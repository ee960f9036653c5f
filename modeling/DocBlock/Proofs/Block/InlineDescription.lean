import DocBlock.Proofs.Block.Regeneration
import Mathlib.Logic.Function.Iterate

/-! Descriptions of several lines on the opening line of their comment. There the text stands two
spaces behind the star and only one of them is decoration, so that reading a comment sets every
further line in by one space. Writing and reading it again does so each time.
-/

namespace DocBlock.Block

open Documentation (Plain Hollow Tagged undecorated undecoratedLines)
open Snippet (expansion)
open Text (isSpace isBlank)

/-- The lines of a description, all but the first set in by some spaces. -/
def setIn (spaces : Nat) : List Text → List Text
  | [] => []
  | first :: rest => first :: rest.map (List.replicate spaces ' ' ++ ·)

@[simp]
theorem setIn_zero (lines : List Text) : setIn 0 lines = lines := by
  cases lines with
  | nil => rfl
  | cons first rest => simp [setIn]

/-- A line that is set in is a plain line behind spaces. -/
theorem mem_setIn {spaces : Nat} {lines : List Text} {line : Text}
    (member : line ∈ setIn spaces lines)
    : ∃ n, ∃ text ∈ lines, line = List.replicate n ' ' ++ text := by
  cases lines with
  | nil => contradiction
  | cons first rest =>
      rw [setIn, List.mem_cons, List.mem_map] at member
      rcases member with rfl | ⟨text, among, rfl⟩
      · exact ⟨0, line, List.mem_cons_self, rfl⟩
      · exact ⟨spaces, text, List.mem_cons_of_mem first among, rfl⟩

theorem setIn_succ (spaces : Nat) (first : Text) (rest : List Text)
    : setIn (spaces + 1) (first :: rest)
      = first :: (rest.map (List.replicate spaces ' ' ++ ·)).map ([' '] ++ ·) := by
  simp [setIn, List.replicate_succ]

/-- How far the lines are set in shows in the second line. -/
theorem setIn_injective {lines : List Text} (several : 2 ≤ lines.length) {m n : Nat}
    (same : setIn m lines = setIn n lines)
    : m = n := by
  match lines, several with
  | first :: second :: rest, _ =>
      have lengths := congrArg (fun shown : List Text => (shown[1]?.getD []).length) same
      simpa [setIn] using lengths

--------------------------------------------------------------------------------
-- Plain lines behind spaces
--------------------------------------------------------------------------------

section Inset

variable {lines : List Text} {spaces : Nat}

theorem setIn_ne_nil (nonempty : lines ≠ []) : setIn spaces lines ≠ [] := by
  obtain ⟨first, rest, rfl⟩ := List.exists_cons_of_ne_nil nonempty
  simp [setIn]

/-- What the characters of plain lines behind spaces are. -/
theorem setIn_inner (plain : ∀ line ∈ lines, Plain line) {line : Text}
    (member : line ∈ setIn spaces lines) {c : Char} (inside : c ∈ line)
    : c ≠ '@' ∧ c ≠ '*' ∧ Text.isLineBoundary c = false := by
  obtain ⟨n, text, among, rfl⟩ := mem_setIn member
  rcases List.mem_append.mp inside with pad | inside
  · rw [List.eq_of_mem_replicate pad]
    decide
  · exact (plain text among).inner c inside

theorem setIn_ends (plain : ∀ line ∈ lines, Plain line) {line : Text}
    (member : line ∈ setIn spaces lines)
    : ∃ c, line.getLast? = some c ∧ Text.isSpaceOrStar c = false := by
  obtain ⟨n, text, among, rfl⟩ := mem_setIn member
  obtain ⟨c, last, inside⟩ := (plain text among).ends
  refine ⟨c, ?_, inside⟩
  rw [List.getLast?_append, last]
  rfl

theorem setIn_last (plain : ∀ line ∈ lines, Plain line) {line : Text}
    (member : line ∈ setIn spaces lines)
    : ∀ c ∈ line.getLast?, isSpace c = false := by
  intro c last
  obtain ⟨d, ends, outside⟩ := setIn_ends plain member
  obtain rfl : d = c := Option.some.inj (ends.symm.trans last)
  exact Text.isSpace_of_isSpaceOrStar outside

theorem nonempty_of_mem_setIn (plain : ∀ line ∈ lines, Plain line) {line : Text}
    (member : line ∈ setIn spaces lines)
    : line ≠ [] := by
  rintro rfl
  obtain ⟨c, last, -⟩ := setIn_ends plain member
  simp at last

theorem lines_unlines_setIn (plain : ∀ line ∈ lines, Plain line) (nonempty : lines ≠ [])
    : Text.lines (Text.unlines (setIn spaces lines)) = setIn spaces lines := by
  apply Text.lines_unlines (setIn_ne_nil nonempty)
  intro line member feed
  exact absurd (setIn_inner plain member feed).2.2 (by decide)

/-- The joined lines start and end with text. -/
theorem unlines_setIn_ends (plain : ∀ line ∈ lines, Plain line) (nonempty : lines ≠ [])
    : (∀ c ∈ (Text.unlines (setIn spaces lines)).head?, isSpace c = false)
      ∧ ∃ c,
          (Text.unlines (setIn spaces lines)).getLast? = some c
          ∧ Text.isSpaceOrStar c = false := by
  constructor
  · obtain ⟨first, rest, rfl⟩ := List.exists_cons_of_ne_nil nonempty
    have opening := plain first List.mem_cons_self
    rw [setIn, Text.head?_unlines opening.nonempty]
    exact opening.first
  · obtain ⟨front, line, shape⟩ :=
      (List.eq_nil_or_concat (setIn spaces lines)).resolve_left (setIn_ne_nil nonempty)
    have member : line ∈ setIn spaces lines := by simp [shape]
    rw [shape, List.concat_eq_append, Text.getLast?_unlines (nonempty_of_mem_setIn plain member)]
    exact setIn_ends plain member

/-- Nothing of a description of plain lines behind spaces is removed when it is written. -/
theorem expansion_setIn (plain : ∀ line ∈ lines, Plain line) (nonempty : lines ≠ [])
    {declaration : Declaration}
    (description : declaration.description = Text.unlines (setIn spaces lines)) (margin : Margin)
    : expansion (descriptionPieces margin declaration)
      = margin.continueLines (setIn spaces lines) := by
  have split := @lines_unlines_setIn _ spaces plain nonempty
  obtain ⟨-, c, final, inside⟩ := @unlines_setIn_ends _ spaces plain nonempty
  have written : descriptionLines declaration.description = setIn spaces lines := by
    have unbroken : ∀ c ∈ declaration.description,
        c = '\n' ∨ (c ≠ '@' ∧ Text.isLineBoundary c = false) := by
      intro c member
      rw [description] at member
      rcases Text.mem_unlines member with feed | ⟨line, among, inside⟩
      · exact .inl feed
      · have inner := setIn_inner plain among inside
        exact .inr ⟨inner.1, inner.2.2⟩
    rw [← split, ← description]
    apply descriptionLines_of_lines
    · intro member
      rcases unbroken _ member with feed | inner
      · exact absurd feed (by decide)
      · exact inner.1 rfl
    · intro c member boundary
      rcases unbroken c member with feed | inner
      · exact feed
      · exact absurd (boundary.symm.trans inner.2) (by decide)
    · refine ⟨c, by rw [description]; exact final, ?_⟩
      rintro rfl
      exact absurd inside (by decide)
    · rw [description, split]
      exact fun line member => setIn_last plain member
    · rw [description, split]
      exact fun line outer => nonempty_of_mem_setIn plain (List.mem_of_head? outer)
    · rw [description, split]
      exact fun line outer => nonempty_of_mem_setIn plain (List.mem_of_getLast? outer)
  have whole : splitParagraph? (setIn spaces lines) = none := by
    have full : [] ∉ setIn spaces lines := fun member => nonempty_of_mem_setIn plain member rfl
    simp [splitParagraph?, full]
  simp [descriptionPieces, written, whole]

/-- On the opening line a description is read with its further lines set in by one more space. -/
theorem descriptionOf_setIn {style : Style} {declaration : Declaration} {indent gap : Text}
    (plain : ∀ line ∈ lines, Plain line) (nonempty : lines ≠ [])
    (inline : style.firstLineInline = true) (unnamed : declaration.isMacro = false)
    (blanks : ∀ c ∈ indent, isBlank c = true) (hollow : Hollow gap)
    : Documentation.descriptionOf
          (openingText style (.ofStyle style indent) declaration
            ++ ((Margin.ofStyle style indent).continueLines (setIn spaces lines) ++ '\n' :: gap))
      = Text.unlines (setIn (spaces + 1) lines) := by
  have ends := @unlines_setIn_ends _ (spaces + 1) plain nonempty
  obtain ⟨first, rest, rfl⟩ := List.exists_cons_of_ne_nil nonempty
  obtain ⟨marker, marked, opening⟩ :=
    @openingText_of_undefined style _ (.inl unnamed) (.ofStyle style indent)
  have ordinary := plain first List.mem_cons_self
  obtain ⟨star, inner, start⟩ := marked_inner marked (.inr ordinary)
  have free : ∀ c ∈ ' ' :: (marker ++ first), c ≠ '\r' ∧ c ≠ '\n' :=
    List.forall_mem_cons.mpr ⟨by decide, inner⟩
  have undecorate : undecorated (' ' :: (marker ++ first)) = marker ++ first := by
    rw [Documentation.undecorated_of_no_star (by simpa using star)]
    exact @Text.dropWhile_run isBlank [' '] _ (by decide) start
  have space : (Margin.ofStyle style indent).space = ' ' :: [' '] := by
    simp [Margin.ofStyle, inline]
  have reads : ∀ line ∈ rest.map (List.replicate spaces ' ' ++ ·),
      (Margin.ofStyle style indent).ReadsAs line ([' '] ++ line) := by
    intro line member
    have among : line ∈ setIn spaces (first :: rest) := List.mem_cons_of_mem first member
    refine Margin.readsAs_line blanks space (by decide) (nonempty_of_mem_setIn plain among)
      (fun c inside => ?_) (setIn_last plain among)
    have boundary := (setIn_inner plain among inside).2.2
    constructor <;> (rintro rfl; exact absurd boundary (by decide))
  have shown := Margin.undecoratedLines_continued reads free gap
  rw [undecorate] at shown
  have line : Text.trimEnd (marker ++ first) ≠ [] := by
    rw [ordinary.trimEnd_append]
    simp [ordinary.nonempty]
  obtain ⟨head, c, last, inside⟩ := ends
  rw [setIn_succ] at head last ⊢
  rw [← @Documentation.descriptionOf_lines _ _ _ [] _ _ shown line (by simp) hollow.lines
    (Documentation.withoutBrief marked (.inr ordinary))
    fun feeds behind => Documentation.tidied_feeds head last inside behind]
  simp [opening, inline, setIn, Margin.continueLines]

end Inset

--------------------------------------------------------------------------------
-- Writing and reading again
--------------------------------------------------------------------------------

/-- A declaration with nothing but a description, whose further lines are set in. -/
structure Inset (spaces : Nat) (lines : List Text) (declaration : Declaration) : Prop where
  unnamed : declaration.isMacro = false
  parameters : declaration.parameters = []
  returns : declaration.returns = false
  description : declaration.description = Text.unlines (setIn spaces lines)

variable {style : Style} {keepDirection : Bool} {indent : Text} {lines : List Text}

/-- Reading the comment once more sets the description in once more. -/
theorem Inset.reread {spaces : Nat} {declaration : Declaration}
    (inset : Inset spaces lines declaration) (plain : ∀ line ∈ lines, Plain line)
    (nonempty : lines ≠ []) (inline : style.firstLineInline = true)
    (blanks : ∀ c ∈ indent, isBlank c = true)
    : Inset (spaces + 1) lines (Block.reread style keepDirection indent declaration) := by
  have wider : ∀ c ∈ indent ++ [' '], isBlank c = true :=
    List.forall_mem_append.mpr ⟨blanks, by decide⟩
  have hollow : Hollow (indent ++ [' ']) := Hollow.of_blanks wider
  have empty : Hollow [] := Hollow.of_blanks (by simp)
  have whole : Snippet.expand (snippet style indent [] declaration).render
      = "/**".toList
        ++ (openingText style (.ofStyle style indent) declaration
          ++ ((Margin.ofStyle style indent).continueLines (setIn spaces lines)
            ++ '\n' :: (indent ++ [' ']))
          ++ "*/".toList) := by
    rw [expand_snippet, expansion_snippet,
      expansion_setIn plain nonempty inset.description (.ofStyle style indent)]
    simp [tagText, inset.parameters, inset.returns]
  have opening (more : Text)
      : (openingText style (.ofStyle style indent) declaration ++ more).head? ≠ some '/' := by
    obtain ⟨marker, -, shape⟩ :=
      @openingText_of_undefined style _ (.inl inset.unnamed) (.ofStyle style indent)
    rw [shape]
    split <;> simp
  have quiet := @quiet_lines style declaration indent _ _ blanks
    (fun line member =>
      ⟨fun inside => (@setIn_inner _ spaces plain line member _ inside).1 rfl,
        fun inside => (@setIn_inner _ spaces plain line member _ inside).2.1 rfl⟩)
    (.inl inset.unnamed) hollow
  have read := @read_tagged _ "*/".toList [] [] 0 quiet (opening _) (by simp) (by simp)
    (Tagged.close empty) (by decide) (by decide) keepDirection
  rw [Block.reread, whole, read,
    descriptionOf_setIn plain nonempty inline inset.unnamed blanks hollow]
  exact ⟨rfl, rfl, rfl, rfl⟩

/-- The description after any number of rounds, by induction on their number. -/
theorem Inset.iterate {declaration : Declaration} (inset : Inset 0 lines declaration)
    (plain : ∀ line ∈ lines, Plain line) (nonempty : lines ≠ [])
    (inline : style.firstLineInline = true) (blanks : ∀ c ∈ indent, isBlank c = true)
    (rounds : Nat)
    : Inset rounds lines ((Block.reread style keepDirection indent)^[rounds] declaration) := by
  induction rounds with
  | zero => exact inset
  | succ rounds ih =>
      rw [Function.iterate_succ_apply']
      exact ih.reread plain nonempty inline blanks

/-- A description of several plain lines never settles on the opening line: every round of writing
and reading sets its further lines in by one more space, so that no two rounds write the same text.
Witness: the comment of a round determines the description of the next one, which shows the number
of rounds in its second line.
-/
theorem inline_description_drifts {declaration : Declaration}
    (inline : style.firstLineInline = true) (unnamed : declaration.isMacro = false)
    (parameters : declaration.parameters = []) (returns : declaration.returns = false)
    (plain : ∀ line ∈ Text.lines declaration.description, Plain line)
    (several : 2 ≤ (Text.lines declaration.description).length)
    (blanks : ∀ c ∈ indent, isBlank c = true) (keepDirection : Bool) (rounds : Nat)
    : let after := fun n => (reread style keepDirection indent)^[n] declaration
      (after rounds).description
        = Text.unlines (setIn rounds (Text.lines declaration.description))
      ∧ ∀ others,
          Snippet.expand (snippet style indent [] (after others)).render
            = Snippet.expand (snippet style indent [] (after rounds)).render
          → others = rounds := by
  intro after
  have nonempty := Text.lines_ne_nil declaration.description
  have inset : Inset 0 (Text.lines declaration.description) declaration :=
    ⟨unnamed, parameters, returns, by rw [setIn_zero, Text.unlines_lines]⟩
  have shape (n : Nat) : Inset n (Text.lines declaration.description) (after n) :=
    inset.iterate plain nonempty inline blanks n
  refine ⟨(shape rounds).description, fun others same => ?_⟩
  have next : after (others + 1) = after (rounds + 1) := by
    have read := congrArg (Documentation.read keepDirection) same
    simp only [after, Function.iterate_succ_apply']
    exact read
  have descriptions : Text.unlines (setIn (others + 1) (Text.lines declaration.description))
      = Text.unlines (setIn (rounds + 1) (Text.lines declaration.description)) := by
    rw [← (shape (others + 1)).description, ← (shape (rounds + 1)).description]
    exact congrArg Declaration.description next
  have lines := congrArg Text.lines descriptions
  rw [lines_unlines_setIn plain nonempty, lines_unlines_setIn plain nonempty] at lines
  exact Nat.succ.inj (setIn_injective several lines)

/-- A function without parameters, described in two lines. -/
def describedReset : Declaration :=
  { name := "reset".toList, description := "Reset the counter\nand the clock.".toList }

/-- The style that puts descriptions on the opening line. -/
def inlineStyle : Style :=
  { Style.default with firstLineInline := true }

/-- After two rounds the second line is set in by two spaces. -/
theorem inline_description_drifts_reset
    : (∀ line ∈ Text.lines describedReset.description, Plain line)
      ∧ ((reread inlineStyle true [])^[2] describedReset).description
        = "Reset the counter\n  and the clock.".toList := by
  have plain : ∀ line ∈ Text.lines describedReset.description, Plain line := by decide
  refine ⟨plain, ?_⟩
  have drifts := @inline_description_drifts inlineStyle [] describedReset rfl rfl rfl rfl plain
    (by decide) (by simp) true 2
  exact drifts.1

/-- A comment of two lines on its opening line is read with another description than it was written
from, and is then written as another text. -/
theorem inline_description_not_read_back
    : (reread inlineStyle true [] describedReset).description
        = "Reset the counter\n and the clock.".toList
      ∧ (reread inlineStyle true [] describedReset).description ≠ describedReset.description
      ∧ Snippet.expand
            (snippet inlineStyle [] [] (reread inlineStyle true [] describedReset)).render
          ≠ Snippet.expand (snippet inlineStyle [] [] describedReset).render := by
  decide +kernel

end DocBlock.Block
