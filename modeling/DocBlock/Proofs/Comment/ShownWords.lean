import DocBlock.Proofs.Comment.Words

/-! The words of a description. They are read line by line behind the decoration, and only the words
of the whole decide which stars are taken off at the end.
-/

namespace DocBlock.Documentation

open Comment (Closeless)
open Text (isSpace isBlank isSpaceOrStar words)

--------------------------------------------------------------------------------
-- Stars at the end
--------------------------------------------------------------------------------

/-- Words without the stars at their end. -/
def dropEndStars (parts : List Text) : List Text :=
  match parts.reverse.dropWhile (·.all (· = '*')) with
  | [] => []
  | last :: earlier => earlier.reverse ++ [Text.dropEndWhile (· = '*') last]

theorem dropEndStars_concat (parts : List Text) (part : Text)
    : dropEndStars (parts ++ [part])
      = if part.all (· = '*') then dropEndStars parts
        else parts ++ [Text.dropEndWhile (· = '*') part] := by
  by_cases stars : part.all (· = '*') = true
  · rw [if_pos stars]
    simp [dropEndStars, stars]
  · rw [if_neg stars]
    simp [dropEndStars, stars]

theorem dropEndWhile_star (part : Text)
    : Text.dropEndWhile (· = '*') (part ++ ['*']) = Text.dropEndWhile (· = '*') part :=
  Text.dropEndWhile_append (by simp)

theorem flatten_dropEndStars (parts : List Text)
    : (dropEndStars parts).flatten = Text.dropEndWhile (· = '*') parts.flatten := by
  induction parts using List.reverseRecOn with
  | nil => rfl
  | append_singleton parts part ih =>
      rw [dropEndStars_concat, List.flatten_append, List.flatten_singleton]
      by_cases stars : part.all (· = '*') = true
      · rw [if_pos stars, ih, Text.dropEndWhile_append (by simpa using stars)]
      · rw [if_neg stars, Text.dropEndWhile_append_of_mem (by simpa using stars)]
        simp

theorem dropEndStars_eq_nil {parts : List Text} (stars : ∀ part ∈ parts, ∀ c ∈ part, c = '*')
    : dropEndStars parts = [] := by
  have none : parts.reverse.dropWhile (·.all (· = '*')) = [] := by
    rw [List.dropWhile_eq_nil_iff]
    intro part member
    simpa using stars part (List.mem_reverse.mp member)
  rw [dropEndStars, none]

/-- White space and stars at the end of a text are stars at the end of its words. Witness: induction
on the text from its end.
-/
theorem words_dropEndWhile (text : Text)
    : words (Text.dropEndWhile isSpaceOrStar text) = dropEndStars (words text) := by
  induction text using List.reverseRecOn with
  | nil => rfl
  | append_singleton text c ih =>
      by_cases space : isSpace c = true
      · have removed : isSpaceOrStar c = true := by simp [Text.isSpaceOrStar, space]
        rw [Text.dropEndWhile_append (by simpa using removed), ih,
          Text.words_append_spaces (by simpa using space)]
      · have outside : isSpace c = false := by simpa using space
        obtain ⟨earlier, word, before, after⟩ := Text.exists_words_concat outside text
        rw [after, dropEndStars_concat]
        by_cases star : c = '*'
        · subst star
          rw [Text.dropEndWhile_append (by decide), ih, before, dropEndWhile_star]
          by_cases none : word = []
          · simp [none]
          · rw [if_neg none, dropEndStars_concat]
            simp
        · have kept : Text.dropEndWhile isSpaceOrStar (text ++ [c]) = text ++ [c] :=
            Text.dropEndWhile_of_last (c := c) (by simp) (by simp [Text.isSpaceOrStar, space, star])
          have last : Text.dropEndWhile (· = '*') (word ++ [c]) = word ++ [c] :=
            Text.dropEndWhile_of_last (c := c) (by simp) (by simpa using star)
          rw [kept, after, last, if_neg (by simp [star])]

--------------------------------------------------------------------------------
-- Words behind decoration
--------------------------------------------------------------------------------

/-- A character at which the lines of a comment end. -/
def isBreak (c : Char) : Bool :=
  c = '\r' || c = '\n'

/-- A line without the blanks and stars at its start. -/
def bare (line : Text) : Text :=
  (line.dropWhile isBlank).dropWhile (· = '*')

/-- The words of all lines of a text behind their decoration. -/
def shownWords (text : Text) : List Text :=
  (Text.runsFrom isBreak [] text).flatMap fun line => words (bare line)

theorem isSpace_of_isBreak {c : Char} (stop : isBreak c = true) : isSpace c = true := by
  simp only [isBreak, Bool.or_eq_true, decide_eq_true_eq] at stop
  rcases stop with rfl | rfl <;> decide

/-- The lines that are not empty are the runs between breaks. Witness: induction along the splitting
with any characters of the current line.
-/
theorem filter_sourceLines (text : Text)
    : (Text.sourceLines text).filter (!·.isEmpty) = Text.runsFrom isBreak [] text := by
  suffices general : ∀ current, ∃ first others,
      Text.sourceLines text = first :: others
      ∧ Text.runsFrom isBreak current text
        = ((current.reverse ++ first) :: others).filter (!·.isEmpty) by
    obtain ⟨first, others, lines, runs⟩ := general []
    rw [lines, runs, List.reverse_nil, List.nil_append]
  have broken {c : Char} {rest first : Text} {others : List Text} (stop : isBreak c = true)
      (runs : Text.runsFrom isBreak [] rest = (first :: others).filter (!·.isEmpty))
      (current : Text)
      : Text.runsFrom isBreak current (c :: rest)
        = ((current.reverse ++ []) :: first :: others).filter (!·.isEmpty) := by
    have last : Text.runsFrom isBreak current [] = [current.reverse].filter (!·.isEmpty) := by
      cases current <;> simp [Text.runsFrom]
    rw [← List.nil_append (c :: rest), Text.runsFrom_append stop, last, runs, List.append_nil]
    exact (List.filter_append [current.reverse] (first :: others)).symm
  fun_induction Text.sourceLines text with
  | case1 =>
      intro current
      refine ⟨[], [], rfl, ?_⟩
      cases current <;> simp [Text.runsFrom]
  | case2 rest ih =>
      intro current
      obtain ⟨first, others, lines, runs⟩ := ih []
      refine ⟨[], first :: others, by rw [lines], broken (by decide) ?_ current⟩
      rw [← List.nil_append ('\n' :: rest), Text.runsFrom_append (by decide), runs]
      rfl
  | case3 c rest _ stop ih =>
      intro current
      obtain ⟨first, others, lines, runs⟩ := ih []
      exact ⟨[], first :: others, by rw [lines], broken stop runs current⟩
  | case4 c rest _ other ih =>
      intro current
      obtain ⟨first, others, lines, runs⟩ := ih (c :: current)
      have inner : isBreak c = false := by simpa [isBreak] using other
      refine ⟨c :: first, others, by rw [lines]; rfl, ?_⟩
      rw [Text.runsFrom, if_neg (by simp [inner]), runs]
      simp

/-- Of the stars at the start of a line only those of a comment end stay. -/
theorem words_undecorated {line : Text} (free : Closeless line)
    : words (undecorated line) = words (bare line) := by
  have inside : Closeless (line.dropWhile isBlank) :=
    free.of_isInfix (List.dropWhile_suffix _).isInfix
  have split := @List.takeWhile_append_dropWhile _ (· = '*') (line.dropWhile isBlank)
  unfold undecorated bare
  dsimp only
  rw [Text.drop_length_takeWhile]
  generalize (line.dropWhile isBlank).dropWhile (· = '*') = rest at split ⊢
  split
  · rfl
  · rfl
  · next stars c later nonempty =>
      have unslashed : c ≠ '/' := by
        rintro rfl
        have last := List.getLast?_eq_some_getLast nonempty
        have star := List.mem_takeWhile_imp (List.mem_of_getLast? last)
        rw [decide_eq_true_eq.mp star] at last
        rw [← split] at inside
        exact (Comment.closeless_append_iff.mp inside).2.2 ⟨last, rfl⟩
      rw [if_neg unslashed]
      split
      · next blank => exact (Text.words_cons (Text.isSpace_of_isBlank blank) later).symm
      · rfl

theorem flatMap_filter_nonempty {f : Text → List Text} (empty : f [] = []) (lines : List Text)
    : (lines.filter (!·.isEmpty)).flatMap f = lines.flatMap f := by
  induction lines with
  | nil => rfl
  | cons line lines ih => cases line <;> simp [ih, empty]

/-- The lines of a text show the words behind their decoration. -/
theorem words_undecoratedLines {text : Text} (free : Closeless text)
    : (undecoratedLines text).flatMap words = shownWords text := by
  have line : ∀ line ∈ Text.sourceLines text,
      words (Text.trimEnd (undecorated line)) = words (bare line) := by
    intro line member
    obtain ⟨tail, shape, spaces⟩ := Text.exists_dropEndWhile isSpace (undecorated line)
    have inside := free.of_isInfix (Text.sourceLines_isInfix member)
    rw [← words_undecorated inside]
    nth_rewrite 2 [shape]
    rw [Text.words_append_spaces spaces]
    rfl
  rw [undecoratedLines, List.flatMap_map, List.flatMap_congr line, shownWords,
    ← filter_sourceLines, flatMap_filter_nonempty rfl]

/-- The words of a description without tags. -/
theorem words_descriptionOf {text : Text} (free : Closeless text) (absent : '@' ∉ text)
    : words (descriptionOf text) = dropEndStars (shownWords text) := by
  let lines := (undecoratedLines text).dropWhile List.isEmpty
  have first : descriptionOf text = tidied (Text.trimBy (· = '\n') (Text.unlines lines)) := by
    unfold descriptionOf
    dsimp only
    cases shape : (undecoratedLines text).dropWhile List.isEmpty with
    | nil => simp only [lines, shape]
    | cons line others =>
        have unmarked : Text.after? "@brief".toList line = none := by
          cases marked : Text.after? "@brief".toList line with
          | none => rfl
          | some rest =>
              have among : line ∈ undecoratedLines text :=
                (List.dropWhile_suffix _).subset (shape ▸ List.mem_cons_self)
              have mark : '@' ∈ line := by
                rw [Text.after?_eq_some_iff.mp marked]
                exact List.mem_append_left _ (by decide)
              exact absurd ((undecoratedLines_isInfix among).subset mark) absent
        simp only [unmarked, Option.map_none, Option.getD_none, lines, shape]
  have empty : ((undecoratedLines text).takeWhile List.isEmpty).flatMap words = [] := by
    rw [List.flatMap_eq_nil_iff]
    intro line member
    rw [List.isEmpty_iff.mp (List.mem_takeWhile_imp member), Text.words_nil]
  have shown : words (Text.trimBy (· = '\n') (Text.unlines lines)) = shownWords text := by
    rw [Text.words_trimBy (by simp; decide), Text.unlines, Text.words_join (by decide),
      ← words_undecoratedLines free, ← @List.takeWhile_append_dropWhile _ List.isEmpty
        (undecoratedLines text), List.flatMap_append, empty, List.nil_append]
  rw [first, tidied, Text.words_trim, words_dropEndWhile, shown]

--------------------------------------------------------------------------------
-- Line by line
--------------------------------------------------------------------------------

variable {front line text rest space : Text}

theorem shownWords_append {c : Char} (stop : isBreak c = true) (front rest : Text)
    : shownWords (front ++ c :: rest) = shownWords front ++ shownWords rest := by
  rw [shownWords, Text.runsFrom_append stop, List.flatMap_append, shownWords, shownWords]

/-- The first line of a text is shown in front of the others. -/
theorem shownWords_line (unbroken : ∀ c ∈ line, isBreak c = false)
    (ends : ∀ c ∈ rest.head?, isBreak c = true)
    : shownWords (line ++ rest) = words (bare line) ++ shownWords rest := by
  by_cases empty : line = []
  · subst empty
    rfl
  · rw [shownWords, Text.runsFrom_first empty unbroken ends, List.flatMap_cons, shownWords]

theorem exists_line (text : Text)
    : ∃ line rest,
        text = line ++ rest
        ∧ (∀ c ∈ line, isBreak c = false)
        ∧ ∀ c ∈ rest.head?, isBreak c = true := by
  refine ⟨text.takeWhile (!isBreak ·), text.dropWhile (!isBreak ·),
    List.takeWhile_append_dropWhile.symm, fun c member => ?_, fun c first => ?_⟩
  · simpa using List.mem_takeWhile_imp member
  · simpa using Text.head?_dropWhile first

theorem exists_last_line (text : Text)
    : ∃ above line,
        text = above ++ line
        ∧ (∀ c ∈ above.getLast?, isBreak c = true)
        ∧ ∀ c ∈ line, isBreak c = false := by
  obtain ⟨line, shape, unbroken⟩ := Text.exists_dropEndWhile (!isBreak ·) text
  refine ⟨_, line, shape, fun c last => ?_, fun c member => by simpa using unbroken c member⟩
  simpa using Text.getLast?_dropEndWhile last

/-- Behind a line end the words are shown as those of a text of its own. -/
theorem shownWords_above (ends : ∀ c ∈ front.getLast?, isBreak c = true) (rest : Text)
    : shownWords (front ++ rest) = shownWords front ++ shownWords rest := by
  rcases List.eq_nil_or_concat front with rfl | ⟨above, c, rfl⟩
  · rfl
  · have stop : isBreak c = true := ends c (by simp)
    have last := shownWords_append stop above []
    rw [List.concat_eq_append, List.append_assoc, List.singleton_append, shownWords_append stop,
      last]
    simp [shownWords, Text.runsFrom]

/-- Only blanks and stars at the start of a line are decoration. -/
theorem words_bare_of_plain {c : Char} (plain : isSpaceOrStar c = false)
    (spaces : ∀ d ∈ space, isSpace d = true) (rest : Text)
    : words (bare (space ++ c :: rest)) = words (c :: rest) := by
  obtain ⟨unspaced, star⟩ : isSpace c = false ∧ c ≠ '*' := by
    simpa [Text.isSpaceOrStar] using plain
  have inside : ∀ d ∈ space.dropWhile isBlank, isSpace d = true :=
    fun d member => spaces d ((List.dropWhile_suffix _).subset member)
  have kept : bare (space ++ c :: rest) = space.dropWhile isBlank ++ c :: rest := by
    rw [bare, Text.dropWhile_append_stop (Text.isBlank_of_isSpace_eq_false unspaced)]
    cases margin : space.dropWhile isBlank with
    | nil => simp [star]
    | cons d margin =>
        have other : d ≠ '*' := by
          rintro rfl
          exact absurd (inside '*' (by simp [margin])) (by decide)
        simp [other]
  rw [kept]
  exact Text.runsFrom_skip inside _

theorem bare_append_blanks {blanks : Text} (inside : ∀ c ∈ blanks, isBlank c = true) (line : Text)
    : bare (blanks ++ line) = bare line := by
  rw [bare, List.dropWhile_append_of_pos inside, bare]

theorem exists_dropWhile_append_spaces {p : Char → Bool} (spaces : ∀ c ∈ space, isSpace c = true)
    (line : Text)
    : ∃ tail,
        (∀ c ∈ tail, isSpace c = true)
        ∧ (line ++ space).dropWhile p = line.dropWhile p ++ tail := by
  rw [List.dropWhile_append]
  split
  · next empty =>
    refine ⟨space.dropWhile p, fun c member => ?_, ?_⟩
    · exact spaces c ((List.dropWhile_suffix p).subset member)
    · rw [List.isEmpty_iff.mp empty, List.nil_append]
  · exact ⟨space, spaces, rfl⟩

theorem words_bare_append (spaces : ∀ c ∈ space, isSpace c = true) (line : Text)
    : words (bare (line ++ space)) = words (bare line) := by
  obtain ⟨tail, inside, blanks⟩ := @exists_dropWhile_append_spaces space isBlank spaces line
  obtain ⟨last, within, stars⟩ :=
    @exists_dropWhile_append_spaces tail (· = '*') inside (line.dropWhile isBlank)
  rw [bare, blanks, stars, Text.words_append_spaces within, bare]

theorem isBreak_of_isBlank {c : Char} (blank : isBlank c = true) : isBreak c = false := by
  simp only [isBlank, Bool.or_eq_true, decide_eq_true_eq] at blank
  rcases blank with rfl | rfl <;> decide

theorem shownWords_blanks_append {blanks : Text} (inside : ∀ c ∈ blanks, isBlank c = true)
    (text : Text)
    : shownWords (blanks ++ text) = shownWords text := by
  obtain ⟨line, rest, rfl, unbroken, ends⟩ := exists_line text
  have joined : ∀ c ∈ blanks ++ line, isBreak c = false :=
    List.forall_mem_append.mpr ⟨fun c member => isBreak_of_isBlank (inside c member), unbroken⟩
  rw [← List.append_assoc, shownWords_line joined ends, bare_append_blanks inside,
    shownWords_line unbroken ends]

theorem mem_of_mem_shownWords {word : Text} {c : Char} (member : word ∈ shownWords text)
    (inside : c ∈ word)
    : c ∈ text ∧ isSpace c = false := by
  obtain ⟨line, among, shown⟩ := List.mem_flatMap.mp member
  rw [← filter_sourceLines] at among
  have part : bare line <:+: text :=
    ((List.dropWhile_suffix _).trans (List.dropWhile_suffix _)).isInfix.trans
      (Text.sourceLines_isInfix (List.mem_of_mem_filter among))
  exact ⟨part.subset ((Text.isInfix_of_mem_words shown).subset inside),
    Text.unspaced_of_mem_words shown c inside⟩

theorem shownWords_of_spaces (spaces : ∀ c ∈ space, isSpace c = true) : shownWords space = [] := by
  refine List.eq_nil_iff_forall_not_mem.mpr fun word member => ?_
  obtain ⟨line, -, shown⟩ := List.mem_flatMap.mp member
  obtain ⟨c, inside⟩ := List.exists_mem_of_ne_nil word (Text.mem_words_iff.mp shown).1
  obtain ⟨among, outside⟩ := mem_of_mem_shownWords member inside
  exact absurd (spaces c among) (by simp [outside])

/-- White space behind a text shows no word. -/
theorem shownWords_append_spaces (spaces : ∀ c ∈ space, isSpace c = true) (text : Text)
    : shownWords (text ++ space) = shownWords text := by
  obtain ⟨above, line, rfl, stop, unbroken⟩ := exists_last_line text
  obtain ⟨behind, rest, rfl, flat, ends⟩ := exists_line space
  obtain ⟨left, right⟩ := List.forall_mem_append.mp spaces
  have joined : ∀ c ∈ line ++ behind, isBreak c = false :=
    List.forall_mem_append.mpr ⟨unbroken, flat⟩
  have alone := @shownWords_line line [] unbroken (by simp)
  have whole := @shownWords_line (line ++ behind) rest joined ends
  rw [List.append_nil] at alone
  rw [words_bare_append left, shownWords_of_spaces right, List.append_assoc] at whole
  rw [List.append_assoc, shownWords_above stop, shownWords_above stop, whole, alone]
  rfl

/-- All but white space and stars is shown. -/
theorem mem_flatten_shownWords {c : Char} (free : Closeless text) (member : c ∈ text)
    (plain : isSpaceOrStar c = false)
    : c ∈ (shownWords text).flatten := by
  have outside : ∀ d ∈ [c], isSpaceOrStar d = false := by simpa using plain
  have unspaced : ∀ d ∈ [c], isSpace d = false := fun d inside =>
    Text.isSpace_of_isSpaceOrStar (outside d inside)
  have alone : [c] <:+: text := by
    obtain ⟨before, behind, rfl⟩ := List.append_of_mem member
    exact ⟨before, behind, by simp⟩
  obtain ⟨line, among, part⟩ :=
    isInfix_undecoratedLines (List.cons_ne_nil c []) outside alone
  obtain ⟨word, shown, inside⟩ :=
    Text.exists_word_of_isInfix (List.cons_ne_nil c []) unspaced part
  rw [← words_undecoratedLines free]
  exact List.mem_flatten.mpr
    ⟨word, List.mem_flatMap.mpr ⟨line, among, shown⟩, inside.subset List.mem_cons_self⟩

--------------------------------------------------------------------------------
-- Margins
--------------------------------------------------------------------------------

/-- In front of the stars that start a line stand only blanks. -/
def Margined (text : Text) : Prop :=
  ∀ above margin rest,
    text = above ++ margin ++ '*' :: rest
    → (∀ c ∈ above.getLast?, isBreak c = true)
    → (∀ c ∈ margin, isSpace c = true ∧ isBreak c = false)
    → ∀ c ∈ margin, isBlank c = true

/-- Where all white space is blanks and line breaks, the margins are blank. -/
theorem Margined.of_spaces (blanks : ∀ c ∈ text, isSpace c = true → isBlank c || isBreak c)
    : Margined text := by
  rintro above margin later rfl - spaces c member
  obtain ⟨space, inner⟩ := spaces c member
  simpa [inner] using blanks c (by simp [member]) space

theorem Margined.of_append (margined : Margined (front ++ rest)) : Margined front := by
  rintro above margin later rfl
  exact margined above margin (later ++ rest) (by simp)

theorem Margined.of_break {c : Char} (margined : Margined (front ++ c :: rest))
    (stop : isBreak c = true)
    : Margined rest := by
  rintro above margin later rfl ends
  refine margined (front ++ c :: above) margin later (by simp) fun d last => ?_
  rw [List.getLast?_append, List.getLast?_cons, Option.some_or] at last
  cases final : above.getLast? with
  | none =>
      obtain rfl : c = d := by simpa [final] using last
      exact stop
  | some e =>
      obtain rfl : e = d := by simpa [final] using last
      exact ends e final

theorem Margined.of_start (margined : Margined (front ++ text))
    (start : ∀ c ∈ text.head?, isSpace c = false)
    : Margined text := by
  rintro above margin later rfl ends spaces
  rcases List.eq_nil_or_concat above with rfl | ⟨earlier, d, rfl⟩
  · cases margin with
    | nil => simp
    | cons c margin =>
        exact absurd (spaces c List.mem_cons_self).1 (by simp [start c rfl])
  · refine margined (front ++ earlier.concat d) margin later (by simp) (fun c last => ?_) spaces
    exact ends c (by simpa using last)

/-- White space in front of a text shows nothing, if only blanks stand in front of a star. -/
theorem shownWords_spaces_append (spaces : ∀ c ∈ space, isSpace c = true)
    (start : ∀ c ∈ text.head?, isSpace c = false) (margined : Margined (space ++ text))
    : shownWords (space ++ text) = shownWords text := by
  obtain ⟨above, margin, rfl, stop, flat⟩ := exists_last_line space
  obtain ⟨left, right⟩ := List.forall_mem_append.mp spaces
  rw [List.append_assoc, shownWords_above stop, shownWords_of_spaces left, List.nil_append]
  cases text with
  | nil => rw [List.append_nil, shownWords_of_spaces right]; rfl
  | cons c rest =>
      by_cases star : c = '*'
      · subst star
        exact shownWords_blanks_append
          (margined above margin rest rfl stop fun c member => ⟨right c member, flat c member⟩) _
      · have unspaced : isSpace c = false := start c rfl
        have plain : isSpaceOrStar c = false := by simp [Text.isSpaceOrStar, unspaced, star]
        obtain ⟨line, behind, shape, unbroken, ends⟩ := exists_line (c :: rest)
        cases line with
        | nil =>
            have stop : isBreak c = true := ends c (by rw [← List.nil_append behind, ← shape]; rfl)
            exact absurd (isSpace_of_isBreak stop) (by simp [unspaced])
        | cons d line =>
            obtain ⟨rfl, -⟩ := List.cons.inj shape
            have joined : ∀ d ∈ margin ++ c :: line, isBreak d = false :=
              List.forall_mem_append.mpr ⟨flat, unbroken⟩
            have first : words (bare (c :: line)) = words (c :: line) :=
              @words_bare_of_plain [] c plain (by simp) line
            rw [shape, ← List.append_assoc, shownWords_line joined ends,
              words_bare_of_plain plain right, shownWords_line unbroken ends, first]

end DocBlock.Documentation
