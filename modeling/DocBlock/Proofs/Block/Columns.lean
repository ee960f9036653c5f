import DocBlock.Proofs.Block.Layout
import DocBlock.Proofs.Document.Position

/-! The columns at which the descriptions of parameters start. Names are padded to one width, but
the directions in front of them are not, so the descriptions stand in one column exactly if all
directions are equally long.
-/

namespace DocBlock.Block

open Document (column)

/-- A declaration with one text in place of the description of every parameter. -/
def withDescriptions (marker : Text) (declaration : Declaration) : Declaration :=
  { declaration with
    parameters := declaration.parameters.map fun parameter =>
      { parameter with description := marker } }

/-- What stands behind the margin and in front of the description on the line of a parameter whose
name is followed by some more spaces. -/
def parameterFront (pad : Nat) (parameter : Parameter) : Text :=
  '@' :: parameterKeyword ++ directionText parameter ++ ' ' :: parameter.name
    ++ ' ' :: List.replicate pad ' '

/-- The description of a parameter starts at an offset of a text: it is the rest of a line that
names the parameter in front of it. -/
structure DescribedAt (margin : Margin) (marker text : Text) (parameter : Parameter) (offset : Nat)
    : Prop where
  front : ∃ pad, '\n' :: margin.lead ++ parameterFront pad parameter <:+ text.take offset
  shown : marker ++ ['\n'] <+: text.drop offset

variable {style : Style} {margin : Margin} {parameter : Parameter} {parameters : List Parameter}

/-- No name is wider than the width to which names are padded, by induction on the parameters. -/
theorem length_le_nameWidth (aligned : style.alignParameterNames = true)
    (member : parameter ∈ parameters)
    : parameter.name.length ≤ nameWidth style parameters := by
  have grows (start : Nat) (parameters : List Parameter)
      : start ≤ parameters.foldl (fun width parameter => max width parameter.name.length) start
        ∧ ∀ parameter ∈ parameters,
            parameter.name.length
              ≤ parameters.foldl (fun width parameter => max width parameter.name.length)
                start := by
    induction parameters generalizing start with
    | nil => simp
    | cons first rest ih =>
        obtain ⟨wider, each⟩ := ih (max start first.name.length)
        refine ⟨(Nat.le_max_left _ _).trans wider, List.forall_mem_cons.mpr ⟨?_, each⟩⟩
        exact (Nat.le_max_right _ _).trans wider
  rw [nameWidth, if_pos aligned]
  exact (grows 0 parameters).2 parameter member

/-- A padded name takes the whole width. -/
theorem length_parameterFront {width : Nat} (fits : parameter.name.length ≤ width)
    : (parameterFront (width - parameter.name.length) parameter).length
      = (directionText parameter).length + width + 8 := by
  have keyword : parameterKeyword.length = 5 := rfl
  simp only [parameterFront, List.length_append, List.length_cons, List.length_replicate, keyword]
  omega

theorem unbroken_parameterFront (name : '\n' ∉ parameter.name)
    (direction : ∀ direction ∈ parameter.direction, '\n' ∉ direction) (pad : Nat)
    : '\n' ∉ parameterFront pad parameter := by
  simp [parameterFront, parameterKeyword, unbroken_directionText direction, name]

/-- The column at which the text behind a margin starts. -/
def Margin.column (margin : Margin) : Nat :=
  (margin.lead.reverse.takeWhile (· ≠ '\n')).length

/-- The line of a parameter with its description. -/
def describedLine (margin : Margin) (width : Nat) (marker : Text) (parameter : Parameter) : Text :=
  margin.lead ++ parameterFront (width - parameter.name.length) parameter ++ marker ++ ['\n']

/-- The column of an offset behind a line feed, a margin and a stretch without line feeds. -/
theorem column_behind_margin (before : Text) {front : Text} (flat : '\n' ∉ front) (rest : Text)
    : column (before ++ '\n' :: margin.lead ++ front ++ rest)
        (before ++ '\n' :: margin.lead ++ front).length
      = margin.column + front.length := by
  have inner : ∀ c ∈ front.reverse, decide (c ≠ '\n') = true := by
    intro c member
    exact decide_eq_true fun feed => flat (feed ▸ List.mem_reverse.mp member)
  have turned : (before ++ '\n' :: margin.lead ++ front).reverse
      = front.reverse ++ (margin.lead.reverse ++ '\n' :: before.reverse) := by
    simp
  rw [column, List.take_left, turned, List.takeWhile_append_of_pos inner,
    Text.takeWhile_append_stop (by decide), List.length_append, List.length_reverse, Nat.add_comm,
    Margin.column]

/-- The lines of parameters behind a line feed show their descriptions one after the other. Witness:
induction on the parameters, with the lines before as part of the text in front.
-/
theorem exists_described {width : Nat} {marker before : Text}
    (unbroken : ∀ parameter ∈ parameters,
      '\n' ∉ parameter.name ∧ ∀ direction ∈ parameter.direction, '\n' ∉ direction)
    (rest : Text)
    : ∃ offsets,
        let text := before ++ '\n' :: parameters.flatMap (describedLine margin width marker) ++ rest
        List.Forall₂ (DescribedAt margin marker text) parameters offsets
          ∧ offsets.map (column text)
            = parameters.map (fun parameter =>
                margin.column + (parameterFront (width - parameter.name.length) parameter).length)
          ∧ offsets.Pairwise (· < ·)
          ∧ ∀ offset ∈ offsets, before.length < offset := by
  induction parameters generalizing before with
  | nil => exact ⟨[], .nil, rfl, .nil, by simp⟩
  | cons parameter parameters ih =>
      rw [List.forall_mem_cons] at unbroken
      let front := parameterFront (width - parameter.name.length) parameter
      have flat : '\n' ∉ front := unbroken_parameterFront unbroken.1.1 unbroken.1.2 _
      obtain ⟨offsets, described, columns, increasing, behind⟩ :=
        @ih (before ++ '\n' :: margin.lead ++ front ++ marker) unbroken.2
      have whole : before ++ '\n' :: (parameter :: parameters).flatMap
            (describedLine margin width marker) ++ rest
          = before ++ '\n' :: margin.lead ++ front ++ (marker
            ++ '\n' :: parameters.flatMap (describedLine margin width marker) ++ rest) := by
        simp [describedLine, front]
      have later : before ++ '\n' :: margin.lead ++ front ++ marker
            ++ '\n' :: parameters.flatMap (describedLine margin width marker) ++ rest
          = before ++ '\n' :: margin.lead ++ front ++ (marker
            ++ '\n' :: parameters.flatMap (describedLine margin width marker) ++ rest) := by
        simp
      refine ⟨(before ++ '\n' :: margin.lead ++ front).length :: offsets, ?_⟩
      dsimp only at described columns ⊢
      rw [later] at described columns
      rw [whole]
      refine ⟨.cons ⟨⟨width - parameter.name.length, ?_⟩, ?_⟩ described, ?_, ?_, ?_⟩
      · rw [List.take_left, List.append_assoc]
        exact List.suffix_append before _
      · rw [List.drop_left]
        exact ⟨parameters.flatMap (describedLine margin width marker) ++ rest, by simp⟩
      · rw [List.map_cons, List.map_cons, columns, column_behind_margin before flat]
      · refine List.pairwise_cons.mpr ⟨fun offset member => ?_, increasing⟩
        have := behind offset member
        rw [List.length_append] at this
        omega
      · refine List.forall_mem_cons.mpr ⟨by simp, fun offset member => ?_⟩
        have := behind offset member
        simp only [List.length_append, List.length_cons] at this
        omega

theorem tagLine_withDescription (margin : Margin) (width : Nat) (marker : Text)
    (parameter : Parameter)
    : margin.tagLine (parameterTag width { parameter with description := marker })
      = describedLine margin width (Text.trim marker) parameter := by
  have direction
      : directionText { parameter with description := marker } = directionText parameter :=
    rfl
  simp [Margin.tagLine, parameterTag, describedLine, parameterFront, direction]

theorem nameWidth_withDescriptions (style : Style) (marker : Text) (declaration : Declaration)
    : nameWidth style (withDescriptions marker declaration).parameters
      = nameWidth style declaration.parameters := by
  simp [nameWidth, withDescriptions, List.foldl_map]

/-- The lines of parameters stand behind a line feed in the text of a block. -/
theorem exists_parameterLines (style : Style) (indent lead marker : Text)
    {declaration : Declaration} (nonempty : declaration.parameters ≠ [])
    : ∃ before rest,
        Snippet.expand (snippet style indent lead (withDescriptions marker declaration)).render
          = before
            ++ '\n' :: declaration.parameters.flatMap
              (describedLine (.ofStyle style indent) (nameWidth style declaration.parameters)
                (Text.trim marker))
            ++ rest := by
  let described := withDescriptions marker declaration
  let margin := Margin.ofStyle style indent
  have shown : described.parameters.isEmpty = false := by
    simpa [described, withDescriptions] using nonempty
  have lines
      : (described.parameters.map
          (parameterTag (nameWidth style described.parameters))).flatMap margin.tagLine
        = declaration.parameters.flatMap
            (describedLine margin (nameWidth style declaration.parameters) (Text.trim marker)) := by
    rw [nameWidth_withDescriptions]
    simp only [described, withDescriptions, List.map_map, List.flatMap_map, Function.comp_apply,
      tagLine_withDescription]
  refine ⟨lead ++ "/**".toList ++ openingText style margin described
      ++ Snippet.expansion (descriptionPieces margin described) ++ '\n' :: margin.decoration,
    (if described.returns then margin.tagBlock (returnTags style described.returnDescriptions)
      else []) ++ indent ++ " */".toList, ?_⟩
  rw [expand_snippet, expansion_snippet, tagText, shown, if_neg Bool.false_ne_true,
    Margin.tagBlock, lines]
  simp only [described, margin, List.append_assoc, List.cons_append]

/-- With names padded, the descriptions of the parameters start in one column exactly if the
directions in front of the names are equally long. -/
theorem descriptions_aligned_iff (aligned : style.alignParameterNames = true)
    {declaration : Declaration}
    (unbroken : ∀ parameter ∈ declaration.parameters,
      '\n' ∉ parameter.name ∧ ∀ direction ∈ parameter.direction, '\n' ∉ direction)
    (indent lead marker : Text)
    : let text :=
        Snippet.expand (snippet style indent lead (withDescriptions marker declaration)).render
      ∃ offsets,
        List.Forall₂ (DescribedAt (.ofStyle style indent) (Text.trim marker) text)
            declaration.parameters offsets
          ∧ offsets.Pairwise (· < ·)
          ∧ ((∀ one ∈ offsets, ∀ other ∈ offsets, column text one = column text other)
            ↔ ∀ one ∈ declaration.parameters, ∀ other ∈ declaration.parameters,
                (directionText one).length = (directionText other).length) := by
  intro text
  by_cases nonempty : declaration.parameters = []
  · exact ⟨[], nonempty ▸ .nil, .nil, by simp [nonempty]⟩
  · obtain ⟨before, rest, whole⟩ := exists_parameterLines style indent lead marker nonempty
    obtain ⟨offsets, described, columns, increasing, -⟩ := @exists_described (.ofStyle style indent)
      declaration.parameters (nameWidth style declaration.parameters) (Text.trim marker) before
      unbroken rest
    rw [← whole] at described columns
    refine ⟨offsets, described, increasing, ?_⟩
    have padded : declaration.parameters.map (fun parameter =>
          (Margin.ofStyle style indent).column
            + (parameterFront (nameWidth style declaration.parameters - parameter.name.length)
              parameter).length)
        = declaration.parameters.map fun parameter =>
          (Margin.ofStyle style indent).column
            + ((directionText parameter).length + nameWidth style declaration.parameters + 8) := by
      refine List.map_congr_left fun parameter member => ?_
      rw [length_parameterFront (length_le_nameWidth aligned member)]
    have members : (∀ one ∈ offsets, ∀ other ∈ offsets, column text one = column text other)
        ↔ ∀ one ∈ offsets.map (column text), ∀ other ∈ offsets.map (column text), one = other := by
      simp only [List.forall_mem_map]
    rw [members, columns, padded]
    simp only [List.forall_mem_map, Nat.add_right_cancel_iff, Nat.add_left_cancel_iff]

/-- A declaration with two parameters, of some directions. -/
def copying (source target : Text) : Declaration :=
  {
    name := "copy".toList
    parameters := [
      { name := "src".toList, direction := some source },
      { name := "target".toList, direction := some target }
    ]
  }

/-- The descriptions of two inputs start in one column, whatever their names. -/
theorem descriptions_aligned_inputs
    : let text := "/**\n * \n *\n * @param[in] src    #\n * @param[in] target #\n */".toList
      Snippet.expand (snippet .default [] []
          (withDescriptions ['#'] (copying "in".toList "in".toList))).render = text
        ∧ ∃ offsets,
            List.Forall₂ (DescribedAt (.ofStyle .default []) ['#'] text)
                (copying "in".toList "in".toList).parameters offsets
              ∧ ∀ one ∈ offsets, ∀ other ∈ offsets, column text one = column text other := by
  intro text
  have shown : Snippet.expand (snippet .default [] []
      (withDescriptions ['#'] (copying "in".toList "in".toList))).render = text := by decide
  obtain ⟨offsets, described, -, aligned⟩ := @descriptions_aligned_iff .default rfl
    (copying "in".toList "in".toList) (by simp [copying]) [] [] ['#']
  rw [shown] at described aligned
  exact ⟨shown, offsets, described, aligned.mpr (by simp [copying, directionText])⟩

/-- The description of an input starts four columns before that of a parameter that is written,
although names are padded. -/
theorem descriptions_apart
    : let text := "/**\n * \n *\n * @param[in] src    #\n * @param[in,out] target #\n */".toList
      Style.default.alignParameterNames = true
        ∧ Snippet.expand (snippet .default [] []
          (withDescriptions ['#'] (copying "in".toList "in,out".toList))).render = text
        ∧ List.Forall₂ (DescribedAt (.ofStyle .default []) ['#'] text)
            (copying "in".toList "in,out".toList).parameters [32, 59]
        ∧ column text 32 = 21
        ∧ column text 59 = 25 := by
  intro text
  refine ⟨rfl, by decide, .cons ⟨⟨3, by decide⟩, by decide⟩ ?_, by decide, by decide⟩
  exact .cons ⟨⟨0, by decide⟩, by decide⟩ .nil

end DocBlock.Block
