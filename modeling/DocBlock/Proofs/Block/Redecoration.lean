import DocBlock.Proofs.Block.WholeComment
import DocBlock.Proofs.Text.Classes

/-! A comment that was offered as one field is offered as the same text again. Moving the decoration
of a body behind an indentation leaves every decorated line at that indentation, and a body with all
its decorated lines there stays as it is.
-/

namespace DocBlock.Block

open Comment (Closeless)
open Snippet (expansion)
open Text (isSpace isBlank)

/-- Between a line feed and a star behind it there is an indentation and one space. -/
def Aligned (indent text : Text) : Prop :=
  ∀ space rest,
    '\n' :: space ++ '*' :: rest <:+ text
    → (∀ c ∈ space, isSpace c = true)
    → space = indent ++ [' ']

variable {indent text body rest : Text}

--------------------------------------------------------------------------------
-- Decorated lines at an indentation
--------------------------------------------------------------------------------

theorem Aligned.of_suffix (aligned : Aligned indent text) (behind : rest <:+ text)
    : Aligned indent rest :=
  fun space later position => aligned space later (position.trans behind)

/-- Text without line feeds in front of an aligned text leaves it aligned. -/
theorem Aligned.append_left (aligned : Aligned indent text) {front : Text} (unbroken : '\n' ∉ front)
    : Aligned indent (front ++ text) :=
  fun space later position => aligned space later (Text.suffix_of_not_mem_left unbroken position)

theorem spaces_before_star (blanks : ∀ c ∈ indent, isBlank c = true)
    : ∀ c ∈ indent ++ [' '], isSpace c = true :=
  List.forall_mem_append.mpr ⟨fun c member => Text.isSpace_of_isBlank (blanks c member), by decide⟩

/-- The white space in front of a star is found again. -/
theorem takeWhile_star {space : Text} (spaces : ∀ c ∈ space, isSpace c = true) (later : Text)
    : (space ++ '*' :: later).takeWhile isSpace = space :=
  Text.takeWhile_run spaces (by rintro c ⟨⟩; decide)

theorem dropWhile_star {space : Text} (spaces : ∀ c ∈ space, isSpace c = true) (later : Text)
    : (space ++ '*' :: later).dropWhile isSpace = '*' :: later :=
  Text.dropWhile_run spaces (by rintro c ⟨⟩; decide)

theorem decoratedBreak?_of_ne {c : Char} (other : c ≠ '\n') (rest : Text)
    : decoratedBreak? indent (c :: rest) = none := by
  unfold decoratedBreak?
  split
  · next same => exact absurd (List.cons.inj same).1 other
  · rfl

theorem moved_star (rest : Text) : moved indent ('*' :: rest) = '*' :: moved indent rest :=
  moved_of_none (decoratedBreak?_of_ne (by decide) rest)

theorem spaces_behind_feed {space : Text} (spaces : ∀ c ∈ space, isSpace c = true)
    : ∀ c ∈ '\n' :: space, isSpace c = true :=
  List.forall_mem_cons.mpr ⟨by decide, spaces⟩

/-- White space is moved together with the star behind it, so that white space in front may be
dropped before or after. -/
theorem dropWhile_moved (blanks : ∀ c ∈ indent, isBlank c = true) (text : Text)
    : (moved indent text).dropWhile isSpace = moved indent (text.dropWhile isSpace) := by
  induction text using induction_on_breaks blanks with
  | empty => rfl
  | other c rest fails ih =>
      by_cases space : isSpace c = true
      · rw [moved_of_none fails, List.dropWhile_cons_of_pos space,
          List.dropWhile_cons_of_pos space, ih]
      · rw [moved_of_none fails, List.dropWhile_cons_of_neg space,
          List.dropWhile_cons_of_neg space, moved_of_none fails]
  | decorated space rest spaces ih =>
      rw [moved_break blanks spaces,
        dropWhile_star (spaces_behind_feed (spaces_before_star blanks)),
        dropWhile_star (spaces_behind_feed spaces), moved_star]

/-- The first character that is no white space stays. -/
theorem head?_dropWhile_moved (blanks : ∀ c ∈ indent, isBlank c = true) (text : Text)
    : ((moved indent text).dropWhile isSpace).head? = (text.dropWhile isSpace).head? := by
  rw [dropWhile_moved blanks]
  cases first : text.dropWhile isSpace with
  | nil => rfl
  | cons c rest =>
      have outside : isSpace c = false := Text.head?_dropWhile (by rw [first]; rfl)
      have other : c ≠ '\n' := by
        rintro rfl
        exact absurd outside (by decide)
      rw [moved_of_none (decoratedBreak?_of_ne other rest)]
      rfl

theorem getLast?_moved (blanks : ∀ c ∈ indent, isBlank c = true) (text : Text)
    : (moved indent text).getLast? = text.getLast? := by
  induction text using induction_on_breaks blanks with
  | empty => rfl
  | other c rest fails ih => rw [moved_of_none fails, List.getLast?_cons, ih, List.getLast?_cons]
  | decorated space rest spaces ih =>
      have star (front later : Text)
          : (front ++ '*' :: later).getLast? = some (later.getLast?.getD '*') := by
        rw [List.getLast?_append, List.getLast?_cons, Option.some_or]
      rw [moved_break blanks spaces, star, star, ih]

/-- A text that starts with a star behind white space still does. -/
theorem moved_star_iff (blanks : ∀ c ∈ indent, isBlank c = true) (text : Text)
    : (∃ space later,
        (∀ c ∈ space, isSpace c = true) ∧ moved indent text = space ++ '*' :: later)
      ↔ ∃ space later, (∀ c ∈ space, isSpace c = true) ∧ text = space ++ '*' :: later := by
  have starred (text : Text)
      : (∃ space later, (∀ c ∈ space, isSpace c = true) ∧ text = space ++ '*' :: later)
        ↔ (text.dropWhile isSpace).head? = some '*' := by
    constructor
    · rintro ⟨space, later, spaces, rfl⟩
      rw [dropWhile_star spaces]
      rfl
    · intro star
      obtain ⟨later, shape⟩ := List.head?_eq_some_iff.mp star
      refine ⟨text.takeWhile isSpace, later, fun c => List.mem_takeWhile_imp, ?_⟩
      rw [← shape, List.takeWhile_append_dropWhile]
  rw [starred, starred, head?_dropWhile_moved blanks]

/-- Moving the decoration aligns the text: a break that was not decorated does not become so, and a
decorated one is put where it is to be. -/
theorem aligned_moved (blanks : ∀ c ∈ indent, isBlank c = true) (text : Text)
    : Aligned indent (moved indent text) := by
  induction text using induction_on_breaks blanks with
  | empty => intro space later position; simp [moved] at position
  | other c rest fails ih =>
      rw [moved_of_none fails]
      intro space later position spaces
      rcases List.suffix_cons_iff.mp position with whole | inside
      · rw [List.cons_append] at whole
        obtain ⟨rfl, shape⟩ := List.cons.inj whole
        obtain ⟨space, later, spaces, rfl⟩ :=
          (moved_star_iff blanks rest).mp ⟨space, later, spaces, shape.symm⟩
        have found : decoratedBreak? indent ('\n' :: (space ++ '*' :: later))
            = some ('\n' :: indent ++ " *".toList, later) :=
          (decoratedBreak?_eq_some_iff blanks).mpr ⟨rfl, space, spaces, rfl⟩
        simp [fails] at found
      · exact ih space later inside spaces
  | decorated space rest spaces ih =>
      rw [moved_break blanks spaces]
      intro other later position others
      rw [List.cons_append, List.cons_append] at position
      rcases List.suffix_cons_iff.mp position with whole | inside
      · -- Both sides are white space up to their first star.
        have left := takeWhile_star others later
        rw [List.tail_eq_of_cons_eq whole, takeWhile_star (spaces_before_star blanks)] at left
        exact left.symm
      · have unbroken : '\n' ∉ indent ++ [' '] ++ ['*'] := by
          simpa using fun member => absurd (blanks _ member) (by decide)
        refine ih other later (Text.suffix_of_not_mem_left unbroken ?_) others
        simpa using inside

/-- Aligned text is moved to where it is. -/
theorem Aligned.moved_eq (blanks : ∀ c ∈ indent, isBlank c = true) (aligned : Aligned indent text)
    : moved indent text = text := by
  refine Text.replaceAll_of_kept fun position shown later inside found => ?_
  obtain ⟨rfl, space, spaces, rfl⟩ := (decoratedBreak?_eq_some_iff blanks).mp found
  obtain rfl := aligned space later inside spaces
  exact ⟨by simp, by simp⟩

--------------------------------------------------------------------------------
-- The body of a comment
--------------------------------------------------------------------------------

/-- The body is trimmed and has no comment end. -/
theorem commentBody_spec (comment : Text)
    : Text.trim (commentBody comment) = commentBody comment ∧ Closeless (commentBody comment) := by
  unfold commentBody
  split
  · split
    · next cut =>
      obtain ⟨-, free⟩ := Text.cut?_pair_sound cut
      exact ⟨Text.trimBy_trimBy _, Comment.closeless_trim_iff.mpr free⟩
    · exact ⟨rfl, Closeless.nil⟩
  · exact ⟨rfl, Closeless.nil⟩

theorem trim_moved (blanks : ∀ c ∈ indent, isBlank c = true) (trimmed : Text.trim body = body)
    : Text.trim (moved indent body) = moved indent body := by
  have ends {c : Char} (outer : body.head? = some c ∨ body.getLast? = some c) : isSpace c = false :=
    Text.ends_trimBy (trimmed.symm ▸ outer)
  refine Text.trimBy_of_ends (fun c first => ?_) (fun c last => ?_)
  · cases body with
    | nil => simp [moved] at first
    | cons d rest =>
        have start : isSpace d = false := ends (.inl rfl)
        have other : d ≠ '\n' := by
          rintro rfl
          exact absurd start (by decide)
        rw [moved_of_none (decoratedBreak?_of_ne other rest)] at first
        exact Option.some.inj first ▸ start
  · exact ends (.inr (getLast?_moved blanks body ▸ last))

/-- Trimming leaves a star on a line of its own with the text behind it. -/
theorem trim_starred (blanks : ∀ c ∈ indent, isBlank c = true)
    (last : ∀ c, rest.getLast? = some c → isSpace c = false)
    : ∃ behind,
        (∀ c ∈ behind, isBlank c = true)
        ∧ Text.trim ('\n' :: indent ++ " * ".toList ++ rest) = '*' :: behind ++ rest := by
  have front := spaces_behind_feed (spaces_before_star blanks)
  by_cases empty : rest = []
  · have shape : '\n' :: indent ++ " * ".toList ++ rest
        = '\n' :: (indent ++ [' ']) ++ (['*'] ++ [' ']) := by
      simp [empty]
    refine ⟨[], by simp, ?_⟩
    rw [shape, Text.trim, Text.trimBy_surrounded front (by decide), empty]
    decide
  · have shape : '\n' :: indent ++ " * ".toList ++ rest
        = '\n' :: (indent ++ [' ']) ++ ('*' :: ' ' :: rest ++ []) := by
      simp
    refine ⟨[' '], by decide, ?_⟩
    rw [shape, Text.trim, Text.trimBy_surrounded front (by simp)]
    refine Text.trimBy_of_ends (by rintro c ⟨⟩; decide) fun c ending => last c ?_
    rwa [List.getLast?_cons_cons, List.getLast?_cons_of_ne_nil empty] at ending

theorem redecorated_of_none (fails : leadingStar? indent (moved indent body) = none)
    : redecorated indent body = moved indent body := by
  rw [moved] at fails
  simp [redecorated, fails, moved]

theorem redecorated_of_some {star : Text}
    (found : leadingStar? indent (moved indent body) = some (star, rest))
    : redecorated indent body = star ++ rest := by
  rw [moved] at found
  simp [redecorated, found]

/-- A redecorated body is redecorated to itself. Without a star at the start the decoration is where
it is to be; otherwise the star and the text behind it are found again. -/
theorem redecorated_trim_redecorated (blanks : ∀ c ∈ indent, isBlank c = true)
    (trimmed : Text.trim body = body)
    : redecorated indent (Text.trim (redecorated indent body)) = redecorated indent body := by
  have aligned := aligned_moved blanks body
  have ends := trim_moved blanks trimmed
  cases found : leadingStar? indent (moved indent body) with
  | none =>
      have fixed := aligned.moved_eq blanks
      rw [redecorated_of_none found, ends]
      rw [← fixed] at found
      rw [redecorated_of_none found, fixed]
  | some result =>
      obtain ⟨star, rest⟩ := result
      obtain ⟨rfl, start, before, gap, -, shape⟩ := (leadingStar?_eq_some_iff blanks).mp found
      have tail : rest <:+ moved indent body := ⟨before ++ '*' :: gap, by simp [shape]⟩
      have last : ∀ c, rest.getLast? = some c → isSpace c = false := by
        intro c last
        obtain ⟨front, whole⟩ := tail
        have final : (Text.trim (moved indent body)).getLast? = some c := by
          rw [ends, ← whole, List.getLast?_append, last]
          rfl
        exact Text.ends_trimBy (.inr final)
      obtain ⟨behind, pad, again⟩ := trim_starred blanks last
      have unbroken : '\n' ∉ '*' :: behind := by
        simpa using fun member => absurd (pad _ member) (by decide)
      have fixed := ((aligned.of_suffix tail).append_left unbroken).moved_eq blanks
      rw [redecorated_of_some found, again]
      refine redecorated_of_some ?_
      rw [fixed]
      refine (leadingStar?_eq_some_iff blanks).mpr ⟨rfl, start, [], behind, ?_, by simp⟩
      exact fun c member => Text.isSpace_of_isBlank (pad c (by simpa using member))

--------------------------------------------------------------------------------
-- Main statement
--------------------------------------------------------------------------------

theorem expand_commentField (indent lead comment : Text)
    : Snippet.expand (commentField indent lead comment).render
      = expansion (commentField indent lead comment) := by
  have apart := separated_commentField indent lead comment []
  rw [List.append_nil] at apart
  exact Snippet.expand_render apart

/-- Offering a comment as one field gives a comment that is offered as the same text again. It
starts with an opening and a space, ends with a space and a comment end, and has no other comment
end. -/
theorem commentField_stable (blanks : ∀ c ∈ indent, isBlank c = true) (comment : Text)
    : let text := Snippet.expand (commentField indent [] comment).render
      Snippet.expand (commentField indent [] text).render = text
        ∧ "/** ".toList <+: text
        ∧ " */".toList <:+ text
        ∧ ∀ before later, text = before ++ "*/".toList ++ later → later = [] := by
  intro text
  obtain ⟨trimmed, free⟩ := commentBody_spec comment
  let contents := redecorated indent (commentBody comment)
  have inside : Closeless (' ' :: (contents ++ closingGap indent contents)) :=
    closeless_contents blanks (closeless_redecorated blanks free)
  have whole : text
      = "/**".toList ++ (' ' :: (contents ++ closingGap indent contents)) ++ "*/".toList := by
    simp only [text, expand_commentField, expansion_commentField, contents, List.nil_append]
  have body : commentBody text = Text.trim contents := by
    rw [whole, commentBody_eq inside]
    exact @Text.trimBy_surrounded isSpace [' '] _ (by decide) (spaces_closingGap blanks contents)
      contents
  have again : redecorated indent (commentBody text) = contents := by
    rw [body]
    exact redecorated_trim_redecorated blanks trimmed
  refine ⟨?_, ?_, ?_, ?_⟩
  · rw [expand_commentField, expansion_commentField, again, whole, List.nil_append]
  · rw [whole]
    exact ⟨contents ++ closingGap indent contents ++ "*/".toList, by simp⟩
  · rw [whole]
    refine ⟨"/** ".toList ++ contents
      ++ (if Text.contains ['\n'] contents then '\n' :: indent else []), ?_⟩
    simp [closingGap]
  · intro before later split
    have opened : Closeless ("/**".toList ++ (' ' :: (contents ++ closingGap indent contents))) :=
      Closeless.append (by decide) inside (by simp)
    exact opened.eq_nil_of_close (whole ▸ split)

/-- Stars at the start of the body, white space over several lines in front of a star and a nested
opening are put in place once. -/
theorem commentField_stable_stars
    : Snippet.expand (commentField "\t".toList []
          "/***\n\n  ** One /** $2\n\n* two\n */".toList).render
        = "/** \n\t * ** One /** $2\n\t * two\n\t */".toList
      ∧ Snippet.expand (commentField "\t".toList []
          "/** \n\t * ** One /** $2\n\t * two\n\t */".toList).render
        = "/** \n\t * ** One /** $2\n\t * two\n\t */".toList := by
  have first : Snippet.expand (commentField "\t".toList []
        "/***\n\n  ** One /** $2\n\n* two\n */".toList).render
      = "/** \n\t * ** One /** $2\n\t * two\n\t */".toList := by
    decide
  have blanks : ∀ c ∈ "\t".toList, isBlank c = true := by decide
  have again :=
    (commentField_stable blanks "/***\n\n  ** One /** $2\n\n* two\n */".toList).1
  rw [first] at again
  exact ⟨first, again⟩

end DocBlock.Block
