import DocBlock.Block.Render
import DocBlock.Proofs.Snippet.Reading

/-! The text of a comment block when every field keeps its default: an opening, the description,
and blocks of tag lines behind an empty decorated line. Every field is followed by a line feed, so
an editor reads the block as it was written.
-/

namespace DocBlock.Snippet

@[simp]
theorem expansion_nil : expansion [] = [] := rfl

@[simp]
theorem expansion_literal_cons (text : Text) (rest : Snippet)
    : expansion (.literal text :: rest) = text ++ expansion rest := rfl

@[simp]
theorem expansion_field_cons (value : Text) (rest : Snippet)
    : expansion (.field value :: rest) = value ++ expansion rest := rfl

@[simp]
theorem expansion_append (left right : Snippet)
    : expansion (left ++ right) = expansion left ++ expansion right :=
  List.flatMap_append

theorem expansion_flatMap {α : Type} (f : α → Snippet) (items : List α)
    : expansion (items.flatMap f) = items.flatMap fun item => expansion (f item) :=
  List.flatMap_assoc

end DocBlock.Snippet

namespace DocBlock.Block

open Snippet (expansion separated opensWithDigit)
open Text (isSpace)

/-- The description is separated from a line feed behind it. -/
theorem separated_descriptionPieces (margin : Margin) (declaration : Declaration) (rest : Snippet)
    : separated (descriptionPieces margin declaration ++ .literal ['\n'] :: rest)
      = separated rest := by
  unfold descriptionPieces
  dsimp only
  split <;> simp [separated, opensWithDigit]

theorem separated_parameterPieces (margin : Margin) (width : Nat) (parameters : List Parameter)
    (rest : Snippet)
    : separated (parameters.flatMap (parameterPieces margin width) ++ rest) = separated rest := by
  induction parameters with
  | nil => rfl
  | cons parameter more ih =>
      simpa [parameterPieces, separated, opensWithDigit] using ih

theorem separated_returnsPieces (style : Style) (margin : Margin) (descriptions : List Text)
    (rest : Snippet)
    : separated (returnsPieces style margin descriptions ++ rest) = separated rest := by
  unfold returnsPieces
  split
  · simp [separated, opensWithDigit]
  · next nonempty =>
    clear nonempty
    induction descriptions with
    | nil => rfl
    | cons description more ih =>
        rw [List.flatMap_cons, List.append_assoc, ← ih]
        unfold returnPieces
        dsimp only
        split <;> simp [separated, opensWithDigit]

/-- An editor reads a whole block as it was written. -/
theorem separated_snippet (style : Style) (indent lead : Text) (declaration : Declaration)
    (rest : Snippet)
    : separated (snippet style indent lead declaration ++ rest) = separated rest := by
  unfold snippet openingPieces
  dsimp only
  simp only [List.append_assoc, List.cons_append, List.nil_append, separated,
    separated_descriptionPieces]
  split <;> split <;>
    simp [Margin.separator, separated, separated_parameterPieces, separated_returnsPieces]

/-- The keyword of a parameter tag. -/
def parameterKeyword : Text := "param".toList

/-- What stands behind the `@` of a parameter line. -/
def parameterTag (width : Nat) (parameter : Parameter) : Text :=
  parameterKeyword ++ directionText parameter ++ ' ' :: parameter.name ++ ' '
    :: List.replicate (width - parameter.name.length) ' ' ++ Text.trim parameter.description

theorem unbroken_directionText {parameter : Parameter}
    (unbroken : ∀ direction ∈ parameter.direction, '\n' ∉ direction)
    : '\n' ∉ directionText parameter := by
  unfold directionText
  split
  · next given =>
    split <;> simp [unbroken _ given]
  · simp

/-- What stands behind the `@` of a return line; a description that starts with white space has no
line. -/
def returnTag? (description : Text) : Option Text :=
  let keyword := description.takeWhile (!isSpace ·)
  let rest := description.dropWhile (!isSpace ·)
  if keyword.isEmpty then none
  else if (rest.dropWhile isSpace).isEmpty then some (keyword ++ [' '])
  else some description

/-- A keyword with a text behind it is written as it stands. -/
theorem returnTag?_of_text {keyword body : Text} (nonempty : keyword ≠ [])
    (unspaced : ∀ c ∈ keyword, isSpace c = false) (text : body.dropWhile isSpace ≠ [])
    : returnTag? (keyword ++ ' ' :: body) = some (keyword ++ ' ' :: body) := by
  have run : ∀ c ∈ keyword, (!isSpace c) = true := by simpa using unspaced
  have outside : ∀ c, (' ' :: body).head? = some c → (!isSpace c) = false := by
    rintro c ⟨⟩
    decide
  have front := Text.takeWhile_run run outside
  have later := Text.dropWhile_run run outside
  have space : (' ' :: body).dropWhile isSpace = body.dropWhile isSpace :=
    List.dropWhile_cons_of_pos (by decide)
  simp [returnTag?, front, later, space, nonempty, text]

/-- What stands behind the `@` of the return lines. -/
def returnTags (style : Style) (descriptions : List Text) : List Text :=
  if descriptions.isEmpty then [style.returnKeyword ++ [' ']]
  else descriptions.filterMap returnTag?

/-- The line of a tag. -/
def Margin.tagLine (margin : Margin) (tag : Text) : Text :=
  margin.lead ++ '@' :: tag ++ ['\n']

/-- The lines of some tags behind an empty line. -/
def Margin.tagBlock (margin : Margin) (tags : List Text) : Text :=
  margin.decoration ++ '\n' :: tags.flatMap margin.tagLine

/-- What stands between the opening of a block and its description. -/
def openingText (style : Style) (margin : Margin) (declaration : Declaration) : Text :=
  (if style.firstLineInline then [' '] else '\n' :: margin.lead)
    ++ (if declaration.isMacro && style.emitMacroDef then
          '@' :: "def ".toList ++ declaration.name ++ '\n' :: margin.decoration
            ++ '\n' :: margin.lead
        else [])
    ++ (if style.includeBrief then "@brief ".toList else [])

/-- The tag lines of a block. -/
def tagText (style : Style) (margin : Margin) (declaration : Declaration) : Text :=
  (if declaration.parameters.isEmpty then []
    else
      margin.tagBlock
        (declaration.parameters.map
          (parameterTag (nameWidth style declaration.parameters))))
    ++ (if declaration.returns then
          margin.tagBlock (returnTags style declaration.returnDescriptions)
        else [])

/-- A description without lines leaves its place empty. -/
theorem expansion_descriptionPieces_nil {declaration : Declaration}
    (empty : descriptionLines declaration.description = []) (margin : Margin)
    : expansion (descriptionPieces margin declaration) = [] := by
  simp [descriptionPieces, empty, splitParagraph?, Margin.continueLines]

/-- The text of parameter lines. -/
theorem expansion_parameterPieces (margin : Margin) (width : Nat) (parameters : List Parameter)
    : expansion (parameters.flatMap (parameterPieces margin width))
      = (parameters.map (parameterTag width)).flatMap margin.tagLine := by
  have keyword : "@param".toList = '@' :: parameterKeyword := rfl
  rw [Snippet.expansion_flatMap, List.flatMap_map]
  simp only [parameterPieces, Margin.tagLine, parameterTag, keyword, List.append_assoc,
    Snippet.expansion_literal_cons, Snippet.expansion_field_cons, Snippet.expansion_nil,
    List.cons_append, List.nil_append, List.append_nil]

theorem expansion_returnPieces (margin : Margin) (description : Text)
    : expansion (returnPieces margin description)
      = ((returnTag? description).map margin.tagLine).getD [] := by
  have whole : description.takeWhile (!isSpace ·)
      ++ ((description.dropWhile (!isSpace ·)).takeWhile isSpace
        ++ (description.dropWhile (!isSpace ·)).dropWhile isSpace) = description := by
    rw [List.takeWhile_append_dropWhile, List.takeWhile_append_dropWhile]
  unfold returnPieces returnTag?
  dsimp only
  split
  · rfl
  · split
    · next empty =>
      have body : (description.dropWhile (!isSpace ·)).dropWhile isSpace = [] := by
        simpa using empty
      simp [body, Margin.tagLine]
    · next nonempty =>
      have line : description.takeWhile (!isSpace ·)
          ++ ((description.dropWhile (!isSpace ·)).takeWhile isSpace
            ++ ((description.dropWhile (!isSpace ·)).dropWhile isSpace ++ ['\n']))
          = description ++ ['\n'] := by
        rw [← List.append_assoc, ← List.append_assoc, List.append_assoc _ _ (List.dropWhile _ _),
          whole]
      simp [Margin.tagLine, line]

theorem expansion_returnsPieces (style : Style) (margin : Margin) (descriptions : List Text)
    : expansion (returnsPieces style margin descriptions)
      = (returnTags style descriptions).flatMap margin.tagLine := by
  unfold returnsPieces returnTags
  split
  · simp [Margin.tagLine]
  · rw [Snippet.expansion_flatMap]
    next nonempty =>
    clear nonempty
    induction descriptions with
    | nil => rfl
    | cons description more ih =>
        rw [List.flatMap_cons, expansion_returnPieces, ih, List.filterMap_cons]
        cases returnTag? description <;> simp

/-- The text of a block when every field keeps its default. -/
theorem expansion_snippet (style : Style) (indent lead : Text) (declaration : Declaration)
    : expansion (snippet style indent lead declaration)
      = lead ++ "/**".toList
        ++ openingText style (.ofStyle style indent) declaration
        ++ expansion (descriptionPieces (.ofStyle style indent) declaration)
        ++ '\n' :: tagText style (.ofStyle style indent) declaration
        ++ indent ++ " */".toList := by
  have opening (margin : Margin)
      : expansion (openingPieces style margin lead declaration)
        = lead ++ "/**".toList ++ openingText style margin declaration := by
    have tag : "@def ".toList = '@' :: "def ".toList := rfl
    simp only [openingPieces, openingText, tag, List.append_assoc, Snippet.expansion_literal_cons,
      Snippet.expansion_nil, List.append_nil]
  have tags (margin : Margin)
      : expansion
            (if declaration.parameters.isEmpty then []
            else
              margin.separator
                :: declaration.parameters.flatMap
                    (parameterPieces margin (nameWidth style declaration.parameters)))
          ++ expansion
              (if declaration.returns then
                margin.separator :: returnsPieces style margin declaration.returnDescriptions
              else [])
        = tagText style margin declaration := by
    simp only [apply_ite expansion, Margin.separator, Snippet.expansion_literal_cons,
      expansion_parameterPieces, expansion_returnsPieces, Snippet.expansion_nil, tagText,
      Margin.tagBlock, List.append_assoc, List.singleton_append]
  simp only [snippet, Snippet.expansion_append, opening, List.append_assoc,
    Snippet.expansion_literal_cons, Snippet.expansion_nil]
  rw [← List.append_assoc (expansion (ite _ _ _)), tags]
  simp

/-- Writing a block and expanding its fields gives its text. -/
theorem expand_snippet (style : Style) (indent lead : Text) (declaration : Declaration)
    : Snippet.expand (snippet style indent lead declaration).render
      = expansion (snippet style indent lead declaration) := by
  have apart := separated_snippet style indent lead declaration []
  rw [List.append_nil] at apart
  exact Snippet.expand_render apart

end DocBlock.Block
