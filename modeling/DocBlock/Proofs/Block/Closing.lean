import DocBlock.Proofs.Block.Layout
import DocBlock.Proofs.Block.Margin

/-! Where a comment block ends. A block is one comment exactly if none of the texts it shows holds a
comment end: the pieces around them keep a star from a slash.
-/

namespace DocBlock.Block

open Comment (Closeless closeless_append_cons_iff closeless_append_of_no_star
  closeless_append_of_no_slash)
open Snippet (expansion)
open Text (isSpace isBlank)

variable {style : Style} {indent : Text}

/-- A block of tag lines has no comment end exactly if no tag has one, by induction on the tags. -/
theorem closeless_tagBlock_iff (blanks : ∀ c ∈ indent, isBlank c = true) {tags : List Text}
    : Closeless ((Margin.ofStyle style indent).tagBlock tags) ↔ ∀ tag ∈ tags, Closeless tag := by
  have decoration : '/' ∉ (Margin.ofStyle style indent).decoration :=
    (Margin.hollow_decoration blanks).not_mem (by decide)
  have lead : '/' ∉ (Margin.ofStyle style indent).lead :=
    (Margin.hollow_lead blanks).not_mem (by decide)
  have lines (tags : List Text)
      : Closeless (tags.flatMap (Margin.ofStyle style indent).tagLine)
        ↔ ∀ tag ∈ tags, Closeless tag := by
    induction tags with
    | nil => simp
    | cons tag tags ih =>
        have shape : (tag :: tags).flatMap (Margin.ofStyle style indent).tagLine
            = (Margin.ofStyle style indent).lead
              ++ '@' :: (tag ++ '\n' :: tags.flatMap (Margin.ofStyle style indent).tagLine) := by
          simp [Margin.tagLine]
        rw [shape, closeless_append_cons_iff (by decide), closeless_append_cons_iff (by decide), ih,
          and_iff_right (Closeless.of_no_slash lead), List.forall_mem_cons]
  rw [Margin.tagBlock, closeless_append_cons_iff (by decide),
    and_iff_right (Closeless.of_no_slash decoration), lines]

theorem head?_tagBlock (blanks : ∀ c ∈ indent, isBlank c = true) (tags : List Text)
    : ((Margin.ofStyle style indent).tagBlock tags).head? ≠ some '/' := by
  have slash : '/' ∉ (Margin.ofStyle style indent).decoration :=
    (Margin.hollow_decoration blanks).not_mem (by decide)
  rw [Margin.tagBlock]
  cases shape : (Margin.ofStyle style indent).decoration with
  | nil => simp
  | cons c rest =>
      rintro ⟨⟩
      exact slash (by simp [shape])

theorem closeless_directionText_iff {parameter : Parameter}
    : Closeless (directionText parameter)
      ↔ ∀ direction ∈ parameter.direction, Closeless direction := by
  cases given : parameter.direction with
  | none => simp [directionText, given]
  | some direction =>
      have shape : Closeless ('[' :: direction ++ [']']) ↔ Closeless direction := by
        rw [closeless_append_of_no_slash (by decide)]
        exact @closeless_append_of_no_star ['['] direction (by decide)
      by_cases empty : direction = []
      · simp [directionText, given, empty]
      · simpa [directionText, given, empty] using shape

theorem closeless_parameterTag_iff {parameter : Parameter} (width : Nat)
    : Closeless (parameterTag width parameter)
      ↔ (∀ direction ∈ parameter.direction, Closeless direction)
        ∧ Closeless parameter.name
        ∧ Closeless parameter.description := by
  have pad (n : Nat) : '*' ∉ List.replicate n ' ' := by simp
  have shape : parameterTag width parameter
      = parameterKeyword ++ directionText parameter ++ ' ' :: (parameter.name
        ++ ' ' :: (List.replicate (width - parameter.name.length) ' '
          ++ Text.trim parameter.description)) := by
    simp [parameterTag]
  rw [shape, closeless_append_cons_iff (by decide), closeless_append_cons_iff (by decide),
    closeless_append_of_no_star (by decide), closeless_append_of_no_star (pad _),
    Comment.closeless_trim_iff, closeless_directionText_iff]

/-- Text behind the start of a line has a comment end only of its own. -/
theorem closeless_lead_append_iff (blanks : ∀ c ∈ indent, isBlank c = true) {text : Text}
    : Closeless ((Margin.ofStyle style indent).lead ++ text) ↔ Closeless text := by
  have slash : '/' ∉ (Margin.ofStyle style indent).lead :=
    (Margin.hollow_lead blanks).not_mem (by decide)
  obtain ⟨front, shape⟩ := Margin.lead_ofStyle style indent
  rw [shape] at slash ⊢
  rw [List.append_assoc, List.singleton_append, closeless_append_cons_iff (by decide)]
  exact and_iff_right (Closeless.of_no_slash fun member => slash (List.mem_append_left _ member))

/-- Splitting off a paragraph loses only empty lines. -/
theorem forall_closeless_splitParagraph {lines first rest : List Text}
    (split : splitParagraph? lines = some (first, rest))
    : (∀ line ∈ lines, Closeless line)
      ↔ (∀ line ∈ first, Closeless line) ∧ ∀ line ∈ rest, Closeless line := by
  unfold splitParagraph? at split
  obtain ⟨-, parts⟩ := Option.ite_none_right_eq_some.mp split
  obtain ⟨rfl, rfl⟩ := Prod.mk.inj (Option.some.inj parts)
  have skipped (lines : List Text)
      : (∀ line ∈ lines, Closeless line)
        ↔ ∀ line ∈ lines.dropWhile List.isEmpty, Closeless line := by
    induction lines with
    | nil => simp
    | cons line lines ih =>
        by_cases empty : line.isEmpty = true
        · obtain rfl : line = [] := by simpa using empty
          rw [List.dropWhile_cons_of_pos rfl, ← ih, List.forall_mem_cons]
          exact and_iff_right Closeless.nil
        · rw [List.dropWhile_cons_of_neg empty]
  rw [← skipped, ← List.forall_mem_append, List.takeWhile_append_dropWhile]

theorem closeless_description_iff (blanks : ∀ c ∈ indent, isBlank c = true)
    (declaration : Declaration)
    : Closeless (expansion (descriptionPieces (.ofStyle style indent) declaration))
      ↔ ∀ line ∈ descriptionLines declaration.description, Closeless line := by
  unfold descriptionPieces
  dsimp only
  split
  · next first rest found =>
    have split : splitParagraph? (descriptionLines declaration.description)
        = some (first, rest) := by
      split at found
      · exact found
      · contradiction
    have decoration : '/' ∉ (Margin.ofStyle style indent).decoration :=
      (Margin.hollow_decoration blanks).not_mem (by decide)
    have shape : expansion
        [
          .field (Text.unwords (first.map Text.trim)),
          .literal ('\n' :: (Margin.ofStyle style indent).decoration
            ++ '\n' :: (Margin.ofStyle style indent).lead),
          .field ((Margin.ofStyle style indent).continueLines rest)
        ]
        = Text.unwords (first.map Text.trim) ++ '\n' :: ((Margin.ofStyle style indent).decoration
          ++ '\n' :: ((Margin.ofStyle style indent).lead
            ++ (Margin.ofStyle style indent).continueLines rest)) := by
      simp
    rw [shape, closeless_append_cons_iff (by decide), closeless_append_cons_iff (by decide),
      and_iff_right (Closeless.of_no_slash decoration), closeless_lead_append_iff blanks,
      Margin.closeless_continueLines_iff blanks, Text.unwords,
      Comment.closeless_join_iff (by decide), forall_closeless_splitParagraph split]
    simp [Comment.closeless_trim_iff]
  · simpa using Margin.closeless_continueLines_iff blanks

theorem openingText_starts (style : Style) (margin : Margin) (declaration : Declaration)
    : ∃ c more, openingText style margin declaration = c :: more ∧ c ≠ '/' := by
  unfold openingText
  by_cases inline : style.firstLineInline = true
  · rw [if_pos inline]
    exact ⟨' ', _, rfl, by decide⟩
  · rw [if_neg inline]
    exact ⟨'\n', _, rfl, by decide⟩

/-- The opening of a block adds a comment end only with the name of a macro. -/
theorem closeless_openingText_append_iff (blanks : ∀ c ∈ indent, isBlank c = true)
    (declaration : Declaration) {text : Text}
    : Closeless (openingText style (.ofStyle style indent) declaration ++ text)
      ↔ ((declaration.isMacro && style.emitMacroDef) = true → Closeless declaration.name)
        ∧ Closeless text := by
  have slash : '/' ∉ (Margin.ofStyle style indent).decoration :=
    (Margin.hollow_decoration blanks).not_mem (by decide)
  have feed {text : Text} : Closeless ('\n' :: text) ↔ Closeless text :=
    @closeless_append_of_no_star ['\n'] text (by decide)
  have start {text : Text}
      : Closeless ((if style.firstLineInline then [' ']
            else '\n' :: (Margin.ofStyle style indent).lead) ++ text)
        ↔ Closeless text := by
    split
    · exact closeless_append_of_no_star (by decide)
    · rw [List.cons_append, feed, closeless_lead_append_iff blanks]
  have brief : Closeless ((if style.includeBrief then "@brief ".toList else []) ++ text)
      ↔ Closeless text := by
    split
    · exact closeless_append_of_no_star (by decide)
    · rfl
  rw [openingText, List.append_assoc, List.append_assoc, start]
  split
  · next named =>
    have shape (rest : Text) : '@' :: "def ".toList ++ declaration.name
          ++ '\n' :: (Margin.ofStyle style indent).decoration
          ++ '\n' :: (Margin.ofStyle style indent).lead ++ rest
        = '@' :: "def ".toList ++ (declaration.name ++ '\n' ::
          ((Margin.ofStyle style indent).decoration
            ++ '\n' :: ((Margin.ofStyle style indent).lead ++ rest))) := by
      simp
    rw [shape, closeless_append_of_no_star (by decide), closeless_append_cons_iff (by decide),
      closeless_append_cons_iff (by decide), closeless_lead_append_iff blanks, brief,
      and_iff_right (Closeless.of_no_slash slash)]
    simp [named]
  · next unnamed =>
    rw [List.nil_append, brief]
    simp [unnamed]

/-- The tag lines of a block have no comment end exactly if no parameter and no return tag has
one. -/
theorem closeless_tagText_iff (blanks : ∀ c ∈ indent, isBlank c = true) (declaration : Declaration)
    : Closeless (tagText style (.ofStyle style indent) declaration)
      ↔ (∀ parameter ∈ declaration.parameters,
          (∀ direction ∈ parameter.direction, Closeless direction)
            ∧ Closeless parameter.name
            ∧ Closeless parameter.description)
        ∧ (declaration.returns = true
          → ∀ tag ∈ returnTags style declaration.returnDescriptions, Closeless tag) := by
  have apart {text : Text}
      : Closeless (text ++ (if declaration.returns then
            (Margin.ofStyle style indent).tagBlock
              (returnTags style declaration.returnDescriptions)
          else []))
        ↔ Closeless text
          ∧ (declaration.returns = true
            → ∀ tag ∈ returnTags style declaration.returnDescriptions, Closeless tag) := by
    split
    · next returns =>
      rw [Comment.closeless_append_iff, closeless_tagBlock_iff blanks]
      simp [returns, head?_tagBlock blanks]
    · next absent => simp [absent]
  rw [tagText, apart]
  split
  · next empty =>
    have none : declaration.parameters = [] := by simpa using empty
    simp [none]
  · rw [closeless_tagBlock_iff blanks, List.forall_mem_map]
    simp only [closeless_parameterTag_iff]

theorem snippet_ends (style : Style) (indent lead : Text) (declaration : Declaration)
    : ∃ text, expansion (snippet style indent lead declaration) = text ++ "*/".toList := by
  have close : " */".toList = [' '] ++ "*/".toList := rfl
  rw [expansion_snippet, close, ← List.append_assoc]
  exact ⟨_, rfl⟩

/-- A block is one comment exactly if no text it shows holds a comment end. -/
theorem isDocBlock_snippet_iff (blanks : ∀ c ∈ indent, isBlank c = true) {lead : Text}
    (before : ∀ c ∈ lead, isBlank c = true) (declaration : Declaration)
    : Comment.isDocBlock
          ((expansion (snippet style indent lead declaration)).dropWhile isBlank) = true
      ↔ ((declaration.isMacro && style.emitMacroDef) = true → Closeless declaration.name)
        ∧ (∀ line ∈ descriptionLines declaration.description, Closeless line)
        ∧ (∀ parameter ∈ declaration.parameters,
            (∀ direction ∈ parameter.direction, Closeless direction)
              ∧ Closeless parameter.name
              ∧ Closeless parameter.description)
        ∧ (declaration.returns = true
          → ∀ tag ∈ returnTags style declaration.returnDescriptions, Closeless tag) := by
  have indented : '/' ∉ indent ++ [' '] := by
    intro member
    rcases List.mem_append.mp member with blank | space
    · exact absurd (blanks _ blank) (by decide)
    · exact absurd space (by decide)
  have shape : expansion (snippet style indent lead declaration)
      = lead ++ ("/**".toList
        ++ (openingText style (.ofStyle style indent) declaration
          ++ (expansion (descriptionPieces (.ofStyle style indent) declaration)
            ++ '\n' :: (tagText style (.ofStyle style indent) declaration ++ (indent ++ [' ']))))
        ++ "*/".toList) := by
    rw [expansion_snippet]
    simp
  have opened (rest : Text) : (lead ++ ("/**".toList ++ rest ++ "*/".toList)).dropWhile isBlank
      = "/**".toList ++ rest ++ "*/".toList :=
    Text.dropWhile_run before (by rintro c ⟨⟩; decide)
  have start (rest : Text)
      : (openingText style (.ofStyle style indent) declaration ++ rest).head? ≠ some '/' := by
    obtain ⟨c, more, opening, other⟩ :=
      openingText_starts style (.ofStyle style indent) declaration
    rw [opening]
    simpa using other
  rw [shape, opened, Comment.isDocBlock_iff, Comment.close_infix_cons_iff, not_or,
    and_iff_right (start _)]
  change Closeless _ ↔ _
  rw [closeless_openingText_append_iff blanks, closeless_append_cons_iff (by decide),
    closeless_append_of_no_slash indented, closeless_description_iff blanks,
    closeless_tagText_iff blanks]

end DocBlock.Block
