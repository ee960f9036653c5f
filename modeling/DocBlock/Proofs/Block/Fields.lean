import DocBlock.Proofs.Block.Layout

/-! The fields an editor finds in a written block. They are numbered from one in order of
appearance: first those of the description, then one for each parameter, then those of the return
lines. No text of the declaration adds, hides or splits a field.
-/

namespace DocBlock.Snippet

/-- The default texts of the fields of a snippet, in order of appearance. -/
def values (snippet : Snippet) : List Text :=
  snippet.filterMap fun
    | .literal _ => none
    | .field value => some value

/-- The fields among the tokens that an editor sees: their numbers and their default texts. -/
def fields (tokens : List Token) : List (Nat × Text) :=
  tokens.filterMap fun
    | .char _ => none
    | .field number value => some (number, value)

@[simp]
theorem values_nil : values [] = [] := rfl

@[simp]
theorem values_literal_cons (text : Text) (rest : Snippet)
    : values (.literal text :: rest) = values rest := rfl

@[simp]
theorem values_field_cons (value : Text) (rest : Snippet)
    : values (.field value :: rest) = value :: values rest := rfl

@[simp]
theorem values_append (left right : Snippet)
    : values (left ++ right) = values left ++ values right :=
  List.filterMap_append

/-- Characters are no fields, by induction on the text. -/
theorem fields_chars_append (text : Text) (tokens : List Token)
    : fields (text.map .char ++ tokens) = fields tokens := by
  induction text with
  | nil => rfl
  | cons c text ih => exact ih

/-- The fields of the tokens are numbered on from the first number and hold the default texts of the
pieces, by induction on the pieces with any first number.
-/
theorem fields_tokensFrom (snippet : Snippet) (number : Nat)
    : (fields (tokensFrom number snippet)).map Prod.fst
        = List.range' number (values snippet).length
      ∧ (fields (tokensFrom number snippet)).map Prod.snd = values snippet := by
  induction snippet generalizing number with
  | nil => exact ⟨rfl, rfl⟩
  | cons piece rest ih =>
      cases piece with
      | literal text =>
          rw [tokensFrom, fields_chars_append]
          exact ih number
      | field value =>
          obtain ⟨numbers, texts⟩ := ih (number + 1)
          have first : fields (tokensFrom number (.field value :: rest))
              = (number, value) :: fields (tokensFrom (number + 1) rest) := rfl
          rw [first, values_field_cons, List.map_cons, List.map_cons, numbers, texts,
            List.length_cons, List.range'_succ]
          exact ⟨rfl, rfl⟩

end DocBlock.Snippet

namespace DocBlock.Block

open Snippet (values)
open Text (isSpace)

--------------------------------------------------------------------------------
-- Lines of a description
--------------------------------------------------------------------------------

/-- Neither the first nor the last of the lines that are left after trimming is blank. Witness: what
is dropped from the end leaves the first line in place.
-/
theorem trimLines_ends {blank : Text → Bool} {parts : List Text} {line : Text}
    (outer : line ∈ (Text.trimLines blank parts).head?
      ∨ line ∈ (Text.trimLines blank parts).getLast?)
    : blank line = false := by
  have front (lines : List Text) (first : line ∈ (lines.dropWhile blank).head?)
      : blank line = false := by
    have stop := List.head?_dropWhile_not blank lines
    rw [Option.mem_def.mp first] at stop
    simpa using stop
  rcases outer with first | last
  · have start : Text.trimLines blank parts <+: parts.dropWhile blank := by
      have suffix := List.dropWhile_suffix blank (l := (parts.dropWhile blank).reverse)
      have reversed := List.reverse_prefix.mpr suffix
      rwa [List.reverse_reverse] at reversed
    obtain ⟨rest, whole⟩ := start
    apply front parts
    rw [← whole, List.head?_append, Option.mem_def.mp first]
    rfl
  · apply front (parts.dropWhile blank).reverse
    rwa [Text.trimLines, List.getLast?_reverse] at last

/-- Where neither the first nor the last line is empty, an empty line stands between others. -/
theorem mem_tail_dropLast {lines : List Text}
    (ends : ∀ line, line ∈ lines.head? ∨ line ∈ lines.getLast? → line ≠ [])
    : [] ∈ lines.tail.dropLast ↔ [] ∈ lines := by
  constructor
  · intro inner
    exact List.mem_of_mem_tail (List.dropLast_subset _ inner)
  · intro member
    cases lines with
    | nil => contradiction
    | cons first rest =>
        rcases List.mem_cons.mp member with empty | behind
        · exact absurd empty.symm (ends first (.inl rfl))
        · rcases List.eq_nil_or_concat rest with rfl | ⟨inner, last, rfl⟩
          · contradiction
          · have final : last ≠ [] := ends last (.inr (by simp [List.getLast?_cons]))
            simp only [List.concat_eq_append, List.mem_append, List.mem_singleton] at behind
            simpa using behind.resolve_right fun empty => final empty.symm

/-- A description is split into paragraphs exactly if it has an empty line inside. -/
theorem splitParagraph?_isSome (description : Text)
    : (splitParagraph? (descriptionLines description)).isSome
      = (descriptionLines description).tail.dropLast.contains [] := by
  have inside : [] ∈ (descriptionLines description).tail.dropLast
      ↔ [] ∈ descriptionLines description := by
    apply mem_tail_dropLast
    intro line outer
    have kept := trimLines_ends outer
    simpa using kept
  unfold splitParagraph?
  split
  · next found =>
    simp only [List.contains_iff_mem] at found
    simp [inside, found]
  · next missing =>
    simp only [List.contains_iff_mem] at missing
    simp [inside, missing]

--------------------------------------------------------------------------------
-- Fields of a block
--------------------------------------------------------------------------------

/-- The number of fields of the description: two for documented text with an empty line inside, and
one otherwise. -/
def descriptionFields (declaration : Declaration) : Nat :=
  if declaration.documented && (descriptionLines declaration.description).tail.dropLast.contains []
  then 2
  else 1

/-- A return description starts with a keyword. -/
def opensWithKeyword (description : Text) : Bool :=
  description.head?.any (!isSpace ·)

/-- The number of fields of the return lines: one for each description that starts with a keyword,
and one where nothing is described. -/
def returnFields (declaration : Declaration) : Nat :=
  if !declaration.returns then 0
  else if declaration.returnDescriptions.isEmpty then 1
  else declaration.returnDescriptions.countP opensWithKeyword

/-- The text of a description: its lines behind the decoration. The first of several documented
paragraphs stands on one line, with an empty line behind it. -/
def descriptionText (margin : Margin) (declaration : Declaration) : Text :=
  let lines := descriptionLines declaration.description
  match if declaration.documented then splitParagraph? lines else none with
  | some (first, rest) =>
    Text.unwords (first.map Text.trim) ++ '\n' :: margin.decoration ++ '\n' :: margin.lead
      ++ margin.continueLines rest
  | none => margin.continueLines lines

theorem expansion_description (margin : Margin) (declaration : Declaration)
    : Snippet.expansion (descriptionPieces margin declaration)
      = descriptionText margin declaration := by
  cases paragraphs : if declaration.documented then
      splitParagraph? (descriptionLines declaration.description) else none with
  | none => simp [descriptionPieces, descriptionText, paragraphs]
  | some parts => simp [descriptionPieces, descriptionText, paragraphs]

theorem length_values_description (margin : Margin) (declaration : Declaration)
    : (values (descriptionPieces margin declaration)).length = descriptionFields declaration := by
  unfold descriptionPieces descriptionFields
  rw [← splitParagraph?_isSome]
  cases declaration.documented with
  | false => simp
  | true =>
      cases paragraphs : splitParagraph? (descriptionLines declaration.description) with
      | none => simp [paragraphs]
      | some parts => simp [paragraphs]

/-- Each parameter line has one field, by induction on the parameters. -/
theorem values_parameters (margin : Margin) (width : Nat) (parameters : List Parameter)
    : values (parameters.flatMap (parameterPieces margin width))
      = parameters.map fun parameter => Text.trim parameter.description := by
  induction parameters with
  | nil => rfl
  | cons parameter rest ih =>
      simpa [parameterPieces] using ih

theorem length_values_return (margin : Margin) (description : Text)
    : (values (returnPieces margin description)).length
      = if opensWithKeyword description then 1 else 0 := by
  unfold returnPieces opensWithKeyword
  cases description with
  | nil => rfl
  | cons c rest =>
      cases space : isSpace c with
      | true => simp [space]
      | false => simp [space]

/-- The return lines have as many fields as there are lines, by induction on the descriptions. -/
theorem length_values_returns (style : Style) (margin : Margin) (declaration : Declaration)
    (returns : declaration.returns = true)
    : (values (returnsPieces style margin declaration.returnDescriptions)).length
      = returnFields declaration := by
  unfold returnsPieces returnFields
  rw [returns]
  cases declaration.returnDescriptions.isEmpty with
  | true => rfl
  | false =>
      simp only [Bool.not_true, Bool.false_eq_true, if_false]
      induction declaration.returnDescriptions with
      | nil => rfl
      | cons description rest ih =>
          rw [List.flatMap_cons, Snippet.values_append, List.length_append, ih,
            length_values_return, List.countP_cons, Nat.add_comm]

/-- The fields of a block are those of its description, its parameters and its return lines. -/
theorem values_snippet (style : Style) (indent lead : Text) (declaration : Declaration)
    : ∃ description returns,
        values (snippet style indent lead declaration)
          = description
            ++ declaration.parameters.map (fun parameter => Text.trim parameter.description)
            ++ returns
        ∧ description.length = descriptionFields declaration
        ∧ returns.length = returnFields declaration := by
  refine ⟨values (descriptionPieces (.ofStyle style indent) declaration),
    values (if declaration.returns then
        (Margin.ofStyle style indent).separator
          :: returnsPieces style (.ofStyle style indent) declaration.returnDescriptions
      else []), ?_, length_values_description _ declaration, ?_⟩
  · have parameters : values
        (if declaration.parameters.isEmpty then []
        else
          (Margin.ofStyle style indent).separator
            :: declaration.parameters.flatMap
                (parameterPieces (.ofStyle style indent)
                  (nameWidth style declaration.parameters)))
        = declaration.parameters.map fun parameter => Text.trim parameter.description := by
      cases shape : declaration.parameters with
      | nil => rfl
      | cons parameter rest => exact values_parameters _ _ (parameter :: rest)
    simp only [snippet, openingPieces, Snippet.values_append, parameters,
      Snippet.values_literal_cons, Snippet.values_nil, List.nil_append, List.append_nil]
  · cases returns : declaration.returns with
    | false => simp [returnFields, returns]
    | true =>
        rw [if_pos rfl]
        exact length_values_returns style _ declaration returns

/-- An editor reads a written block back. It finds fields numbered from one on without gaps: those
of the description, one for each parameter, and those of the return lines. The fields of the
parameters hold the trimmed descriptions, and with every field at its default the text is the one
the block was to show. Witness: every field is followed by a line feed, so the block is read as its
pieces.
-/
theorem read_fields_of_block (style : Style) (indent lead : Text) (declaration : Declaration)
    : let written := (snippet style indent lead declaration).render
      let found := Snippet.fields (Snippet.read written)
      let margin := Margin.ofStyle style indent
      found.map Prod.fst
          = List.range' 1
              (descriptionFields declaration + declaration.parameters.length
                + returnFields declaration)
        ∧ ((found.map Prod.snd).drop (descriptionFields declaration)).take
              declaration.parameters.length
            = declaration.parameters.map (fun parameter => Text.trim parameter.description)
        ∧ Snippet.expand written
            = lead ++ "/**".toList ++ openingText style margin declaration
              ++ descriptionText margin declaration
              ++ '\n' :: tagText style margin declaration
              ++ indent ++ " */".toList := by
  intro written found margin
  have apart := separated_snippet style indent lead declaration []
  rw [List.append_nil] at apart
  have tokens
      : Snippet.read written = Snippet.tokensFrom 1 (snippet style indent lead declaration) :=
    Snippet.read_renderFrom apart 1
  obtain ⟨numbers, texts⟩ :=
    Snippet.fields_tokensFrom (snippet style indent lead declaration) 1
  obtain ⟨description, returns, values, first, last⟩ :=
    values_snippet style indent lead declaration
  rw [← tokens, values] at numbers texts
  refine ⟨?_, ?_, ?_⟩
  · rw [numbers, List.length_append, List.length_append, List.length_map, first, last]
  · rw [texts, ← first, List.append_assoc, List.drop_left]
    exact List.take_left' (List.length_map _)
  · rw [← expansion_description, ← expansion_snippet]
    exact expand_snippet style indent lead declaration

end DocBlock.Block
