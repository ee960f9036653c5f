import DocBlock.Proofs.Block.Redecoration
import DocBlock.Proofs.Block.RoundTrip
import DocBlock.Proofs.Comment.ShownWords

/-! The words of a comment that is offered as one field. Moving the decoration of its lines keeps
them, but of the stars at its start only the first is decoration, so that a second one there becomes
part of the text.
-/

namespace DocBlock.Block

open Comment (Closeless)
open Documentation (Margined isBreak bare shownWords dropEndStars)
open Text (isSpace isBlank isSpaceOrStar words withoutSpace)

variable {indent body text rest : Text}

--------------------------------------------------------------------------------
-- Moved decoration
--------------------------------------------------------------------------------

/-- Moving decoration adds only white space and stars. -/
theorem isSpaceOrStar_of_mem_moved (blanks : ∀ c ∈ indent, isBlank c = true) {c : Char}
    (member : c ∈ moved indent text)
    : c ∈ text ∨ isSpaceOrStar c = true := by
  induction text using induction_on_breaks blanks with
  | empty => exact .inl member
  | other d rest fails ih =>
      rw [moved_of_none fails] at member
      rcases List.mem_cons.mp member with rfl | behind
      · exact .inl List.mem_cons_self
      · exact (ih behind).imp_left (List.mem_cons_of_mem d)
  | decorated space rest spaces ih =>
      rw [moved_break blanks spaces, List.mem_append] at member
      rcases member with before | behind
      · have white := spaces_behind_feed (spaces_before_star blanks) c before
        exact .inr (by simp [Text.isSpaceOrStar, white])
      · rcases List.mem_cons.mp behind with rfl | later
        · exact .inr rfl
        · exact (ih later).imp_left fun inside => by simp [inside]

/-- Moving the decoration of a text keeps the words that it shows. Witness: induction on its breaks
with any text in front. Above a decorated line there is only white space, and the blanks in front of
its star do not matter.
-/
theorem shownWords_moved (blanks : ∀ c ∈ indent, isBlank c = true) {front : Text}
    (margined : Margined (front ++ text))
    : shownWords (front ++ moved indent text) = shownWords (front ++ text) := by
  induction text using induction_on_breaks blanks generalizing front with
  | empty => rfl
  | other c rest fails ih =>
      have behind := @ih (front ++ [c]) (by simpa using margined)
      rw [moved_of_none fails]
      simpa using behind
  | decorated space rest spaces ih =>
      have lower : Margined (space ++ '*' :: rest) :=
        Margined.of_break (c := '\n') margined (by decide)
      have behind : shownWords ('*' :: moved indent rest) = shownWords ('*' :: rest) :=
        @ih ['*'] (lower.of_start (by simp; decide))
      have indented : ∀ c ∈ indent ++ [' '], isBlank c = true :=
        List.forall_mem_append.mpr ⟨blanks, by decide⟩
      have feed (later : Text)
          : shownWords (front ++ '\n' :: later) = shownWords front ++ shownWords later :=
        Documentation.shownWords_append (by decide) front later
      rw [moved_break blanks spaces, List.cons_append, List.cons_append, feed, feed,
        Documentation.shownWords_blanks_append indented, behind,
        Documentation.shownWords_spaces_append spaces (by simp; decide) lower]

--------------------------------------------------------------------------------
-- The first star
--------------------------------------------------------------------------------

section FirstStar

variable {gap line : Text}

theorem bare_star (line : Text) : bare ('*' :: line) = line.dropWhile (· = '*') := rfl

/-- White space on the line of a star keeps the stars behind it. -/
theorem shownWords_star_gap (spaces : ∀ c ∈ gap, isSpace c = true ∧ isBreak c = false)
    (nonempty : gap ≠ []) (unbroken : ∀ c ∈ line, isBreak c = false)
    (ends : ∀ c ∈ rest.head?, isBreak c = true)
    : shownWords ('*' :: (gap ++ (line ++ rest))) = words line ++ shownWords rest := by
  have joined : ∀ c ∈ '*' :: (gap ++ line), isBreak c = false :=
    List.forall_mem_cons.mpr
      ⟨by decide, List.forall_mem_append.mpr ⟨fun c member => (spaces c member).2, unbroken⟩⟩
  have kept : bare ('*' :: (gap ++ line)) = gap ++ line := by
    obtain ⟨c, more, rfl⟩ := List.exists_cons_of_ne_nil nonempty
    have other : c ≠ '*' := by
      rintro rfl
      exact absurd (spaces '*' List.mem_cons_self).1 (by decide)
    rw [bare_star]
    simp [other]
  have skipped : words (gap ++ line) = words line :=
    Text.runsFrom_skip (fun c member => (spaces c member).1) line
  have whole := Documentation.shownWords_line joined ends
  rw [kept, skipped] at whole
  simpa using whole

/-- Behind a star that stands alone on its line, and right behind it, further stars are decoration
as well. -/
theorem shownWords_star_line (spaces : ∀ c ∈ gap, isSpace c = true)
    (decorates : gap = [] ∨ ∃ c ∈ gap, isBreak c = true)
    (start : ∀ c ∈ (line ++ rest).head?, isSpace c = false)
    (margined : Margined ('*' :: (gap ++ (line ++ rest))))
    (unbroken : ∀ c ∈ line, isBreak c = false) (ends : ∀ c ∈ rest.head?, isBreak c = true)
    : shownWords ('*' :: (gap ++ (line ++ rest)))
      = words (line.dropWhile (· = '*')) ++ shownWords rest := by
  rcases decorates with rfl | ⟨c, member, stop⟩
  · have joined : ∀ c ∈ '*' :: line, isBreak c = false :=
      List.forall_mem_cons.mpr ⟨by decide, unbroken⟩
    exact Documentation.shownWords_line joined ends
  · obtain ⟨above, margin, rfl⟩ := List.append_of_mem member
    obtain ⟨left, right⟩ := List.forall_mem_append.mp spaces
    have shape : '*' :: (above ++ c :: margin ++ (line ++ rest))
        = ('*' :: above) ++ c :: (margin ++ (line ++ rest)) := by
      simp
    have alone : shownWords (['*'] ++ above) = [] :=
      Documentation.shownWords_append_spaces left ['*']
    rw [shape] at margined ⊢
    have lower := margined.of_break stop
    have unblank : line.dropWhile isBlank = line := by
      cases line with
      | nil => rfl
      | cons d line =>
          have outside := Text.isBlank_of_isSpace_eq_false (start d rfl)
          exact List.dropWhile_cons_of_neg (by simp [outside])
    rw [Documentation.shownWords_append stop, ← List.singleton_append, alone, List.nil_append,
      Documentation.shownWords_spaces_append (List.forall_mem_cons.mp right).2 start lower,
      Documentation.shownWords_line unbroken ends, bare, unblank]

theorem dropEndStars_hidden (hidden : ∀ c ∈ line ++ rest, isSpaceOrStar c = true)
    : dropEndStars (words line ++ shownWords rest) = [] := by
  refine Documentation.dropEndStars_eq_nil fun part member c inside => ?_
  obtain ⟨among, outside⟩ : c ∈ line ++ rest ∧ isSpace c = false := by
    rcases List.mem_append.mp member with first | others
    · exact ⟨List.mem_append_left _ ((Text.isInfix_of_mem_words first).subset inside),
        Text.unspaced_of_mem_words first c inside⟩
    · obtain ⟨behind, outside⟩ := Documentation.mem_of_mem_shownWords others inside
      exact ⟨List.mem_append_right _ behind, outside⟩
  simpa [Text.isSpaceOrStar, outside] using hidden c among

theorem withoutSpace_starred (line : Text)
    : withoutSpace ('*' :: line)
      = '*' :: line.takeWhile (· = '*') ++ withoutSpace (line.dropWhile (· = '*')) := by
  have stars : withoutSpace (line.takeWhile (· = '*')) = line.takeWhile (· = '*') := by
    refine List.filter_eq_self.mpr fun d inside => ?_
    obtain rfl : d = '*' := by simpa using List.mem_takeWhile_imp inside
    rfl
  rw [List.cons_append, ← stars, withoutSpace, withoutSpace, withoutSpace, ← List.filter_append,
    List.takeWhile_append_dropWhile]
  rfl

/-- A star more in front is seen exactly where anything but white space and stars follows: what is
left without it is taken off at the end. -/
theorem dropEndStars_starred_iff (free : Closeless rest)
    : dropEndStars (words ('*' :: line) ++ shownWords rest)
        = dropEndStars (words (line.dropWhile (· = '*')) ++ shownWords rest)
      ↔ ¬ ∃ c ∈ line ++ rest, isSpaceOrStar c = false := by
  constructor
  · rintro same ⟨c, member, plain⟩
    obtain ⟨unspaced, star⟩ : isSpace c = false ∧ c ≠ '*' := by
      simpa [Text.isSpaceOrStar] using plain
    have longer : (words ('*' :: line) ++ shownWords rest).flatten
        = '*' :: line.takeWhile (· = '*')
          ++ (words (line.dropWhile (· = '*')) ++ shownWords rest).flatten := by
      simp only [List.flatten_append, Text.flatten_words, withoutSpace_starred, List.append_assoc]
    have shown : c ∈ (words (line.dropWhile (· = '*')) ++ shownWords rest).flatten := by
      rw [List.flatten_append, Text.flatten_words, List.mem_append]
      rcases List.mem_append.mp member with before | behind
      · refine .inl (List.mem_filter.mpr ⟨?_, by simp [unspaced]⟩)
        exact Text.mem_dropWhile before (by simpa using star)
      · exact .inr (Documentation.mem_flatten_shownWords free behind plain)
    -- Both sides end alike, but the left one has more stars in front.
    have flat := congrArg List.flatten same
    rw [Documentation.flatten_dropEndStars, Documentation.flatten_dropEndStars, longer,
      Text.dropEndWhile_append_of_mem ⟨c, shown, by simpa using star⟩] at flat
    have sizes := congrArg List.length flat
    simp only [List.length_append, List.length_cons] at sizes
    omega
  · intro none
    have hidden : ∀ c ∈ line ++ rest, isSpaceOrStar c = true := by
      intro c member
      by_contra plain
      exact none ⟨c, member, by simpa using plain⟩
    obtain ⟨left, right⟩ := List.forall_mem_append.mp hidden
    have behind : ∀ c ∈ line.dropWhile (· = '*') ++ rest, isSpaceOrStar c = true :=
      List.forall_mem_append.mpr
        ⟨fun c member => left c ((List.dropWhile_suffix _).subset member), right⟩
    rw [dropEndStars_hidden behind]
    exact dropEndStars_hidden (List.forall_mem_cons.mpr ⟨by decide, hidden⟩)

end FirstStar

--------------------------------------------------------------------------------
-- The body as it is offered
--------------------------------------------------------------------------------

theorem redecorated_plain (blanks : ∀ c ∈ indent, isBlank c = true)
    (start : ∀ c ∈ text.head?, isSpace c = false) (other : text.head? ≠ some '*')
    : redecorated indent text = moved indent text := by
  refine redecorated_of_none (Option.eq_none_iff_forall_ne_some.mpr fun parts found => ?_)
  obtain ⟨-, -, before, behind, spaces, shape⟩ := (leadingStar?_eq_some_iff blanks).mp found
  obtain ⟨space, later, white, rfl⟩ := (moved_star_iff blanks text).mp
    ⟨before, behind ++ parts.2, (List.forall_mem_append.mp spaces).1, shape⟩
  cases space with
  | nil => exact other rfl
  | cons c space => exact absurd (white c List.mem_cons_self) (by simp [start c rfl])

theorem redecorated_starred (blanks : ∀ c ∈ indent, isBlank c = true) {gap : Text}
    (spaces : ∀ c ∈ gap, isSpace c = true) (start : ∀ c ∈ rest.head?, isSpace c = false)
    : redecorated indent ('*' :: (gap ++ rest))
      = '\n' :: indent ++ " * ".toList ++ moved indent rest := by
  have stop : (moved indent (gap ++ rest)).dropWhile isSpace = moved indent rest := by
    rw [dropWhile_moved blanks, Text.dropWhile_run spaces start]
  refine redecorated_of_some ((leadingStar?_eq_some_iff blanks).mpr ⟨rfl, ?_, [],
    (moved indent (gap ++ rest)).takeWhile isSpace, fun c => List.mem_takeWhile_imp, ?_⟩)
  · intro c first
    rw [← stop] at first
    exact Text.head?_dropWhile first
  · rw [moved_star, ← stop, List.takeWhile_append_dropWhile]
    rfl

/-- The text starts with two stars that are decoration, on one line or on two, and it is not only
white space and stars. -/
def OpensTwice (text : Text) : Prop :=
  ∃ before behind rest,
    text = before ++ '*' :: (behind ++ '*' :: rest)
    ∧ (∀ c ∈ before ++ behind, isSpace c = true)
    ∧ (behind = [] ∨ ∃ c ∈ behind, isBreak c = true)
    ∧ ∃ c ∈ rest, isSpaceOrStar c = false

theorem opensTwice_starred_iff {gap : Text} (spaces : ∀ c ∈ gap, isSpace c = true)
    (start : ∀ c ∈ rest.head?, isSpace c = false)
    : OpensTwice ('*' :: (gap ++ rest))
      ↔ (gap = [] ∨ ∃ c ∈ gap, isBreak c = true)
        ∧ ∃ later, rest = '*' :: later ∧ ∃ c ∈ later, isSpaceOrStar c = false := by
  constructor
  · rintro ⟨before, behind, later, shape, white, decorates, plain⟩
    obtain ⟨left, right⟩ := List.forall_mem_append.mp white
    have first : '*' :: (gap ++ rest) = '*' :: (behind ++ '*' :: later) :=
      calc '*' :: (gap ++ rest)
        _ = ('*' :: (gap ++ rest)).dropWhile isSpace := rfl
        _ = '*' :: (behind ++ '*' :: later) := by rw [shape, dropWhile_star left]
    have same := List.tail_eq_of_cons_eq first
    have gaps := congrArg (List.takeWhile isSpace) same
    rw [Text.takeWhile_run spaces start, takeWhile_star right] at gaps
    subst gaps
    exact ⟨decorates, later, List.append_cancel_left same, plain⟩
  · rintro ⟨decorates, later, rfl, plain⟩
    exact ⟨[], gap, later, rfl, spaces, decorates, plain⟩

theorem opensTwice_trim_iff (text : Text) : OpensTwice (Text.trim text) ↔ OpensTwice text := by
  constructor
  · rintro ⟨before, behind, rest, whole, white, decorates, c, member, plain⟩
    obtain ⟨front, tail, shape, left, -⟩ := Text.exists_trimBy isSpace text
    rw [Text.trim] at whole
    rw [whole] at shape
    obtain ⟨inside, spaces⟩ := List.forall_mem_append.mp white
    refine ⟨front ++ before, behind, rest ++ tail, by simpa using shape, ?_, decorates, c,
      List.mem_append_left _ member, plain⟩
    exact List.forall_mem_append.mpr ⟨List.forall_mem_append.mpr ⟨left, inside⟩, spaces⟩
  · rintro ⟨before, behind, rest, rfl, white, decorates, c, member, plain⟩
    obtain ⟨left, right⟩ := List.forall_mem_append.mp white
    have unspaced := Text.isSpace_of_isSpaceOrStar plain
    have shape : '*' :: (behind ++ '*' :: rest) = '*' :: (behind ++ ['*']) ++ rest := by simp
    obtain ⟨tail, split, spaces⟩ := Text.exists_dropEndWhile isSpace rest
    refine ⟨[], behind, Text.dropEndWhile isSpace rest, ?_, right, decorates, c, ?_, plain⟩
    · rw [Text.trim, Text.trimBy, dropWhile_star left, shape,
        Text.dropEndWhile_append_of_mem ⟨c, member, unspaced⟩]
      simp
    · rw [split] at member
      refine (List.mem_append.mp member).resolve_right fun dropped => ?_
      exact absurd (spaces c dropped) (by simp [unspaced])

/-- A star and text on its line stand in front of no margin of their own. -/
theorem margined_behind_star {front : Text} (margined : Margined rest)
    (unbroken : ∀ c ∈ front, isBreak c = false)
    : Margined ('*' :: front ++ rest) := by
  intro above margin later shape ends spaces
  rcases List.eq_nil_or_concat above with rfl | ⟨earlier, d, rfl⟩
  · cases margin with
    | nil => simp
    | cons c margin =>
        obtain ⟨rfl, -⟩ := List.cons.inj shape
        exact absurd (spaces '*' List.mem_cons_self).1 (by decide)
  · have stop : isBreak d = true := ends d (by simp)
    have flat : ∀ c ∈ '*' :: front, isBreak c = false :=
      List.forall_mem_cons.mpr ⟨by decide, unbroken⟩
    rw [List.append_assoc] at shape
    -- The line end in front of the margin stands behind the line of the star.
    rcases List.append_eq_append_iff.mp shape with ⟨more, longer, tail⟩ | ⟨more, shorter, -⟩
    · rcases List.eq_nil_or_concat more with rfl | ⟨inner, e, rfl⟩
      · have among : d ∈ '*' :: front := by
          rw [← List.append_nil ('*' :: front), ← longer]
          simp
        exact absurd stop (by simp [flat d among])
      · refine margined (inner.concat e) margin later (by rw [tail, List.append_assoc]) ?_ spaces
        intro c last
        exact ends c (longer ▸ Text.getLast?_of_isSuffix (List.suffix_append _ _) last)
    · have among : d ∈ '*' :: front := by
        rw [shorter]
        simp
      exact absurd stop (by simp [flat d among])

/-- A body that opens with one star is offered with the text behind it on a line of its own. -/
theorem shownWords_redecorated_starred (blanks : ∀ c ∈ indent, isBlank c = true) {gap line : Text}
    (spaces : ∀ c ∈ gap, isSpace c = true)
    (start : ∀ c ∈ (line ++ rest).head?, isSpace c = false)
    (margined : Margined ('*' :: (gap ++ (line ++ rest))))
    (unbroken : ∀ c ∈ line, isBreak c = false) (ends : ∀ c ∈ rest.head?, isBreak c = true)
    : shownWords (redecorated indent ('*' :: (gap ++ (line ++ rest))))
      = words line ++ shownWords rest := by
  have lower : Margined (line ++ rest) := @Margined.of_start ('*' :: gap) _ margined start
  have starred : Margined ("* ".toList ++ (line ++ rest)) :=
    @margined_behind_star _ [' '] lower (by decide)
  have indented : ∀ c ∈ indent ++ [' '], isBlank c = true :=
    List.forall_mem_append.mpr ⟨blanks, by decide⟩
  have shape : '\n' :: indent ++ " * ".toList ++ moved indent (line ++ rest)
      = [] ++ '\n' :: (indent ++ [' '] ++ ("* ".toList ++ moved indent (line ++ rest))) := by
    simp
  have first : shownWords ([] ++ '\n' :: (indent ++ [' ']
        ++ ("* ".toList ++ moved indent (line ++ rest))))
      = shownWords (indent ++ [' '] ++ ("* ".toList ++ moved indent (line ++ rest))) :=
    Documentation.shownWords_append (by decide) [] _
  rw [redecorated_starred blanks spaces start, shape, first,
    Documentation.shownWords_blanks_append indented, shownWords_moved blanks starred]
  exact @shownWords_star_gap rest [' '] line (by decide) (by simp) unbroken ends

theorem dropEndStars_redecorated_starred_iff (blanks : ∀ c ∈ indent, isBlank c = true)
    {gap line : Text} (spaces : ∀ c ∈ gap, isSpace c = true)
    (start : ∀ c ∈ (line ++ rest).head?, isSpace c = false)
    (margined : Margined ('*' :: (gap ++ (line ++ rest)))) (free : Closeless rest)
    (unbroken : ∀ c ∈ line, isBreak c = false) (ends : ∀ c ∈ rest.head?, isBreak c = true)
    : dropEndStars (shownWords (redecorated indent ('*' :: (gap ++ (line ++ rest)))))
        = dropEndStars (shownWords ('*' :: (gap ++ (line ++ rest))))
      ↔ ¬ OpensTwice ('*' :: (gap ++ (line ++ rest))) := by
  rw [shownWords_redecorated_starred blanks spaces start margined unbroken ends,
    opensTwice_starred_iff spaces start]
  by_cases decorates : gap = [] ∨ ∃ c ∈ gap, isBreak c = true
  · rw [shownWords_star_line spaces decorates start margined unbroken ends]
    by_cases second : line.head? = some '*'
    · obtain ⟨line, rfl⟩ := List.head?_eq_some_iff.mp second
      have stars : ('*' :: line).dropWhile (· = '*') = line.dropWhile (· = '*') := rfl
      rw [stars, dropEndStars_starred_iff free]
      simp [decorates]
    · cases line with
      | nil =>
          refine iff_of_true rfl ?_
          rintro ⟨-, later, rfl, -⟩
          exact absurd (ends '*' rfl) (by decide)
      | cons c line =>
          have other : c ≠ '*' := by simpa using second
          have kept : (c :: line).dropWhile (· = '*') = c :: line :=
            List.dropWhile_cons_of_neg (by simpa using other)
          rw [kept]
          refine iff_of_true rfl ?_
          rintro ⟨-, later, shape, -⟩
          exact other (List.cons.inj shape).1
  · obtain ⟨nonempty, flat⟩ := not_or.mp decorates
    have inner : ∀ c ∈ gap, isSpace c = true ∧ isBreak c = false := by
      intro c member
      exact ⟨spaces c member, by simpa using fun stop => flat ⟨c, member, stop⟩⟩
    rw [shownWords_star_gap inner nonempty unbroken ends]
    exact iff_of_true rfl fun opens => decorates opens.1

/-- Offering a body keeps the words that it shows unless it opens twice. -/
theorem dropEndStars_redecorated_iff (blanks : ∀ c ∈ indent, isBlank c = true)
    (free : Closeless text) (margined : Margined text)
    (start : ∀ c ∈ text.head?, isSpace c = false)
    : dropEndStars (shownWords (redecorated indent text)) = dropEndStars (shownWords text)
      ↔ ¬ OpensTwice text := by
  by_cases star : text.head? = some '*'
  · obtain ⟨behind, rfl⟩ := List.head?_eq_some_iff.mp star
    obtain ⟨line, rest, shape, unbroken, ends⟩ :=
      Documentation.exists_line (behind.dropWhile isSpace)
    have whole : behind = behind.takeWhile isSpace ++ (line ++ rest) := by
      rw [← shape, List.takeWhile_append_dropWhile]
    have outside : ∀ c ∈ (line ++ rest).head?, isSpace c = false := by
      rw [← shape]
      exact fun c => Text.head?_dropWhile
    have spaces : ∀ c ∈ behind.takeWhile isSpace, isSpace c = true :=
      fun c => List.mem_takeWhile_imp
    generalize behind.takeWhile isSpace = gap at whole spaces
    subst whole
    have shut : Closeless rest := free.of_isInfix ⟨'*' :: (gap ++ line), [], by simp⟩
    exact dropEndStars_redecorated_starred_iff blanks spaces outside margined shut unbroken ends
  · have kept : shownWords (moved indent text) = shownWords text :=
      @shownWords_moved _ _ blanks [] margined
    rw [redecorated_plain blanks start star, kept]
    refine iff_of_true rfl ?_
    rintro ⟨before, behind, rest, rfl, white, -⟩
    cases before with
    | nil => exact star rfl
    | cons c before => exact absurd (white c List.mem_cons_self) (by simp [start c rfl])

/-- Redecorating adds only white space and stars. -/
theorem isSpaceOrStar_of_mem_redecorated (blanks : ∀ c ∈ indent, isBlank c = true) {c : Char}
    (member : c ∈ redecorated indent text)
    : c ∈ text ∨ isSpaceOrStar c = true := by
  cases found : leadingStar? indent (moved indent text) with
  | none =>
      rw [redecorated_of_none found] at member
      exact isSpaceOrStar_of_mem_moved blanks member
  | some parts =>
      obtain ⟨star, rest⟩ := parts
      obtain ⟨rfl, -, before, behind, -, shape⟩ := (leadingStar?_eq_some_iff blanks).mp found
      rw [redecorated_of_some found] at member
      rcases List.mem_append.mp member with template | later
      · refine .inr ?_
        have added : ∀ d ∈ '\n' :: indent ++ " * ".toList, isSpaceOrStar d = true := by
          refine List.forall_mem_append.mpr ⟨List.forall_mem_cons.mpr ⟨by decide, ?_⟩, by decide⟩
          intro d inside
          simp [Text.isSpaceOrStar, Text.isSpace_of_isBlank (blanks d inside)]
        exact added c template
      · refine isSpaceOrStar_of_mem_moved blanks ?_
        rw [shape]
        simp [later]

--------------------------------------------------------------------------------
-- Main statement
--------------------------------------------------------------------------------

theorem description_read (free : Closeless body) (absent : '@' ∉ body) (keepDirection : Bool)
    : (Documentation.read keepDirection ("/**".toList ++ body ++ "*/".toList)).description
      = Documentation.descriptionOf body := by
  have main := @mainDescription?_block [] body "*/".toList (by simp) (.of_no_at free absent)
    (by decide) (by decide)
  rw [List.nil_append, ← List.append_assoc] at main
  rw [Documentation.read, main, Option.getD_some]

/-- White space around the body of a block shows no word. -/
theorem shownWords_contents (blanks : ∀ c ∈ indent, isBlank c = true) (contents : Text)
    : shownWords (' ' :: (contents ++ closingGap indent contents)) = shownWords contents := by
  have first := @Documentation.shownWords_blanks_append [' '] (by decide)
    (contents ++ closingGap indent contents)
  exact first.trans
    (Documentation.shownWords_append_spaces (spaces_closingGap blanks contents) contents)

theorem shownWords_trim (margined : Margined body)
    : Margined (Text.trim body) ∧ shownWords (Text.trim body) = shownWords body := by
  have start : ∀ c ∈ (Text.trim body).head?, isSpace c = false :=
    fun c first => Text.ends_trimBy (.inl first)
  obtain ⟨before, behind, shape, left, right⟩ := Text.exists_trimBy isSpace body
  rw [← Text.trim, ← List.append_assoc] at shape
  rw [shape] at margined
  have front := margined.of_append
  refine ⟨front.of_start start, Eq.symm ?_⟩
  calc shownWords body
    _ = shownWords (before ++ Text.trim body ++ behind) := by rw [← shape]
    _ = shownWords (before ++ Text.trim body) := Documentation.shownWords_append_spaces right _
    _ = shownWords (Text.trim body) := Documentation.shownWords_spaces_append left start front

theorem not_mem_contents (blanks : ∀ c ∈ indent, isBlank c = true) {c : Char}
    (plain : isSpaceOrStar c = false) (absent : c ∉ text)
    : c ∉ ' ' :: (redecorated indent text ++ closingGap indent (redecorated indent text)) := by
  have unspaced := Text.isSpace_of_isSpaceOrStar plain
  intro member
  rcases List.mem_cons.mp member with rfl | member
  · exact absurd unspaced (by decide)
  · rcases List.mem_append.mp member with body | gap
    · rcases isSpaceOrStar_of_mem_redecorated blanks body with inside | added
      · exact absent inside
      · exact absurd added (by simp [plain])
    · exact absurd (spaces_closingGap blanks _ c gap) (by simp [unspaced])

/-- A comment that is offered as one field keeps its words exactly if it does not open with two
stars that are decoration. Witness: the words of the text are shown line by line, and only those of
the first line are offered behind other decoration.
-/
theorem words_kept_iff (blanks : ∀ c ∈ indent, isBlank c = true) (free : Closeless body)
    (absent : '@' ∉ body) (margined : Margined body) (keepDirection : Bool)
    : let comment := "/**".toList ++ body ++ "*/".toList
      let offered := Snippet.expand (commentField indent [] comment).render
      words (Documentation.read keepDirection offered).description
        = words (Documentation.read keepDirection comment).description
      ↔ ¬ OpensTwice body := by
  intro comment offered
  let contents := redecorated indent (Text.trim body)
  have inside : Closeless (Text.trim body) := Comment.closeless_trim_iff.mpr free
  have written : offered
      = "/**".toList ++ (' ' :: (contents ++ closingGap indent contents)) ++ "*/".toList := by
    simp only [offered, comment, expand_commentField, expansion_commentField, commentBody_eq free,
      List.nil_append, contents]
  have shut : Closeless (' ' :: (contents ++ closingGap indent contents)) :=
    closeless_contents blanks (closeless_redecorated blanks inside)
  have unmarked : '@' ∉ ' ' :: (contents ++ closingGap indent contents) :=
    not_mem_contents blanks (by decide) fun member =>
      absent ((Text.trimBy_isInfix isSpace body).subset member)
  obtain ⟨margin, trimmed⟩ := shownWords_trim margined
  have start : ∀ c ∈ (Text.trim body).head?, isSpace c = false :=
    fun c first => Text.ends_trimBy (.inl first)
  rw [written, description_read shut unmarked, description_read free absent,
    Documentation.words_descriptionOf shut unmarked, Documentation.words_descriptionOf free absent,
    shownWords_contents blanks, ← trimmed, dropEndStars_redecorated_iff blanks inside margin start,
    opensTwice_trim_iff]

/-- Stars behind other text on their line, empty decorated lines and lines without decoration are
kept. -/
theorem words_kept_starred_lines
    : let body := "\n  * * One\r\n\n *\n** two *\n\tthree ** ".toList
      let comment := "/**".toList ++ body ++ "*/".toList
      let offered := Snippet.expand (commentField "\t".toList [] comment).render
      words (Documentation.read true offered).description
        = ["*", "One", "two", "*", "three"].map String.toList
      ∧ ¬ OpensTwice body := by
  intro body comment offered
  have shown : words (Documentation.read true offered).description
      = ["*", "One", "two", "*", "three"].map String.toList := by
    decide +kernel
  have before : words (Documentation.read true comment).description
      = ["*", "One", "two", "*", "three"].map String.toList := by
    decide +kernel
  have margined : Margined body := .of_spaces (by decide +kernel)
  have blanks : ∀ c ∈ "\t".toList, isBlank c = true := by decide
  have free : Closeless body := by decide +kernel
  have absent : '@' ∉ body := by decide +kernel
  exact ⟨shown,
    (words_kept_iff blanks free absent margined true).mp (shown.trans before.symm)⟩

/-- A second star at the start becomes a word, and a star behind a form feed is a word no more. -/
theorem words_changed
    : let opened := "/***\n * Adds.\n */".toList
      let fed := "/** Adds.\n\x0c* two */".toList
      words (Documentation.read true opened).description = ["Adds."].map String.toList
      ∧ words (Documentation.read true
          (Snippet.expand (commentField [] [] opened).render)).description
        = ["*", "Adds."].map String.toList
      ∧ words (Documentation.read true fed).description
        = ["Adds.", "*", "two"].map String.toList
      ∧ words (Documentation.read true
          (Snippet.expand (commentField [] [] fed).render)).description
        = ["Adds.", "two"].map String.toList := by
  decide +kernel

end DocBlock.Block
