import DocBlock.Proofs.Block.RoundTrip
import DocBlock.Proofs.Declaration.Filling
import Mathlib.Data.List.Nodup

/-! Writing a block again. A declaration that is merged with its own block says nothing new, so that
the block of the merged declaration is the same text.
-/

namespace DocBlock.Block

open Documentation (Quiet Tagged OpensSegment)
open Snippet (expansion)
open Text (isBlank)

variable {style : Style} {declaration : Declaration}

--------------------------------------------------------------------------------
-- Reading
--------------------------------------------------------------------------------

/-- A comment is read as the description before its tags, the parameters its first tags show, and
the return descriptions found behind these. -/
theorem read_tags {body rest : Text} {parameters : List Parameter} {tags : List Text}
    {width : Nat} (quiet : Quiet body) (opening : body.head? ≠ some '/')
    (legible : ∀ parameter ∈ parameters, LegibleParameter parameter)
    (others : ∀ rest, Tagged tags rest → Text.findAll Documentation.parameterSegment? rest = [])
    (tagged : Tagged (parameters.map (parameterTag width) ++ tags) rest)
    (stops : Documentation.endsDescription rest = true) (start : rest.head? ≠ some '/')
    (keepDirection : Bool)
    : ∃ later,
        Tagged tags later
          ∧ Documentation.read keepDirection ("/**".toList ++ (body ++ rest))
            = {
              documented := true
              description := Documentation.descriptionOf body
              parameters :=
                parameters.zipIdx.map fun (parameter, index) =>
                  shownParameter keepDirection parameter index
              returns := !(Text.findAll Documentation.returnSegment? later).isEmpty
              returnDescriptions := Text.findAll Documentation.returnSegment? later
            } := by
  have main := @mainDescription?_block [] body rest (by simp) quiet start stops
  have front := @quiet_front [] body (by simp) quiet opening
  rw [List.nil_append] at main front
  obtain ⟨found, later, behind, same⟩ :=
    findAll_parameters keepDirection width legible others tagged 0
  refine ⟨later, behind, ?_⟩
  have described : Text.findAll Documentation.returnSegment? ("/**".toList ++ body ++ rest)
      = Text.findAll Documentation.returnSegment? later := by
    rw [front.findAll_returnSegment?, same]
  rw [Documentation.read, main, ← List.append_assoc, described, front.findAll_parameterSegment?,
    found, Option.getD_some]

/-- A comment is read as the description before its tags and what the tags show. -/
theorem read_tagged {body rest : Text} {parameters : List Parameter} {descriptions : List Text}
    {width : Nat} (quiet : Quiet body) (opening : body.head? ≠ some '/')
    (legible : ∀ parameter ∈ parameters, LegibleParameter parameter)
    (returns : ∀ description ∈ descriptions, LegibleReturn description)
    (tagged : Tagged
      (parameters.map (parameterTag width) ++ descriptions.filterMap returnTag?) rest)
    (stops : Documentation.endsDescription rest = true) (start : rest.head? ≠ some '/')
    (keepDirection : Bool)
    : Documentation.read keepDirection ("/**".toList ++ (body ++ rest))
      = {
        documented := true
        description := Documentation.descriptionOf body
        parameters :=
          parameters.zipIdx.map fun (parameter, index) =>
            shownParameter keepDirection parameter index
        returns := !descriptions.isEmpty
        returnDescriptions := descriptions
      } := by
  obtain ⟨later, behind, read⟩ := read_tags quiet opening legible
    (fun rest more => (findAll_returns returns more).1) tagged stops start keepDirection
  rw [read, (findAll_returns returns behind).2]

/-- A block is read as its description, its parameters, and the return descriptions found in its
return lines. -/
theorem read_block {indent : Text} (blanks : ∀ c ∈ indent, isBlank c = true)
    (prose : Prose declaration.description)
    (unnamed : declaration.isMacro = false ∨ style.emitMacroDef = false)
    (short : style.firstLineInline = false ∨ (Text.lines declaration.description).length ≤ 1)
    (legible : ∀ parameter ∈ declaration.parameters, LegibleParameter parameter)
    {tags : List Text}
    (given : tags
      = if declaration.returns then returnTags style declaration.returnDescriptions else [])
    (opens : ∀ tag ∈ tags, OpensSegment tag)
    (others : ∀ rest, Tagged tags rest → Text.findAll Documentation.parameterSegment? rest = [])
    (keepDirection : Bool)
    : ∃ later,
        Tagged tags later
          ∧ Documentation.read keepDirection (expansion (snippet style indent [] declaration))
            = {
              documented := true
              description := declaration.description
              parameters :=
                declaration.parameters.zipIdx.map fun (parameter, index) =>
                  shownParameter keepDirection parameter index
              returns := !(Text.findAll Documentation.returnSegment? later).isEmpty
              returnDescriptions := Text.findAll Documentation.returnSegment? later
            } := by
  have lines := @tagged_tags style declaration indent blanks legible
    fun returns tag member => opens tag (by rw [given, if_pos returns]; exact member)
  rw [← given] at lines
  obtain ⟨gap, rest, shape, hollow, tagged, stops, -, start⟩ := lines.skip
  have opening (more : Text)
      : (openingText style (.ofStyle style indent) declaration ++ more).head? ≠ some '/' := by
    obtain ⟨marker, -, shape⟩ := openingText_of_undefined unnamed (.ofStyle style indent)
    rw [shape]
    split <;> simp
  have whole : expansion (snippet style indent [] declaration)
      = "/**".toList
        ++ (openingText style (.ofStyle style indent) declaration
          ++ ((Margin.ofStyle style indent).continueLines (Text.lines declaration.description)
            ++ '\n' :: gap)
          ++ rest) := by
    rw [expansion_snippet, expansion_descriptionPieces prose]
    simp only [List.append_assoc, List.cons_append, List.nil_append] at shape ⊢
    rw [shape]
  have quiet := quiet_written blanks prose unnamed hollow
  obtain ⟨later, behind, read⟩ :=
    read_tags quiet (opening _) legible others tagged stops start keepDirection
  rw [descriptionOf_written blanks prose unnamed short hollow] at read
  rw [whole]
  exact ⟨later, behind, read⟩

/-- A block is read as what it shows. -/
theorem read_expansion {indent : Text} (legible : Legible style declaration)
    (blanks : ∀ c ∈ indent, isBlank c = true) (keepDirection : Bool)
    : Documentation.read keepDirection (expansion (snippet style indent [] declaration))
      = shown style keepDirection declaration := by
  have tags : (shownReturns style declaration).filterMap returnTag?
      = if declaration.returns then returnTags style declaration.returnDescriptions else [] := by
    by_cases returns : declaration.returns = true
    · rw [if_pos returns, legible.returnTags returns]
    · simp [returns, shownReturns]
  have opens : ∀ tag ∈ (shownReturns style declaration).filterMap returnTag?, OpensSegment tag := by
    intro tag member
    obtain ⟨description, among, written⟩ := List.mem_filterMap.mp member
    exact (legible.shownReturns description among).opensSegment written
  obtain ⟨later, behind, read⟩ := read_block blanks legible.description legible.unnamed
    legible.short legible.parameters tags opens
    (fun rest more => (findAll_returns legible.shownReturns more).1) keepDirection
  rw [read, (findAll_returns legible.shownReturns behind).2, isEmpty_shownReturns, Bool.not_not]
  rfl

/-- A declaration written as a comment at an indentation, and the comment read. -/
def reread (style : Style) (keepDirection : Bool) (indent : Text) (declaration : Declaration)
    : Declaration :=
  Documentation.read keepDirection (Snippet.expand (snippet style indent [] declaration).render)

--------------------------------------------------------------------------------
-- Merging and writing
--------------------------------------------------------------------------------

/-- What a block shows of a parameter fills no gap of it. -/
theorem fill_shownParameter {keepDirection : Bool} {parameter : Parameter}
    (undirected : keepDirection = false → parameter.direction = none) (index : Nat)
    : Declaration.fill true (shownParameter keepDirection parameter index) parameter
      = parameter := by
  have direction : (if keepDirection then parameter.direction else none) = parameter.direction := by
    cases keepDirection with
    | true => rfl
    | false => exact (undirected rfl).symm
  simp [Declaration.fill, shownParameter, Declaration.orElse, Declaration.typeOrElse, direction]

/-- The parameters of a block repeat those of its declaration if no two have one name. -/
theorem repeats_shown (style : Style) {keepDirection : Bool}
    (distinct : (declaration.parameters.map (·.name)).Nodup)
    (undirected : keepDirection = false
      → ∀ parameter ∈ declaration.parameters, parameter.direction = none)
    : Declaration.Repeats true (shown style keepDirection declaration).parameters
        declaration.parameters where
  named := by
    intro parameter member
    obtain ⟨i, stands⟩ := List.mem_iff_getElem?.mp member
    refine ⟨shownParameter keepDirection parameter i, ?_, rfl⟩
    exact List.mem_map.mpr ⟨(parameter, i), List.mem_zipIdx_iff_getElem?.mpr stands, rfl⟩
  fills := by
    intro parameter member donor among same
    obtain ⟨⟨source, i⟩, stands, rfl⟩ := List.mem_map.mp among
    have original := List.mem_of_getElem? (List.mem_zipIdx_iff_getElem?.mp stands)
    obtain rfl : source = parameter := List.inj_on_of_nodup_map distinct original member same
    exact fill_shownParameter (fun off => undirected off source member) i

/-- A declaration with what its own block says: it is documented, and its return value has a tag. -/
def selfDocumented (style : Style) (declaration : Declaration) : Declaration :=
  {
    declaration with
    documented := true
    returnDescriptions :=
      if declaration.returns then shownReturns style declaration
      else declaration.returnDescriptions
  }

/-- A declaration takes only the return tags from its own block. -/
theorem merge_shown (style : Style) {keepDirection : Bool}
    (distinct : (declaration.parameters.map (·.name)).Nodup)
    (undirected : keepDirection = false
      → ∀ parameter ∈ declaration.parameters, parameter.direction = none)
    : Declaration.merge true declaration (shown style keepDirection declaration)
      = selfDocumented style declaration := by
  have parameters := (repeats_shown style distinct undirected).fillAll_eq_self
  have description : Declaration.orElse declaration.description declaration.description
      = declaration.description := by
    simp [Declaration.orElse]
  have returns : (declaration.returns || (declaration.isMacro && declaration.returns))
      = declaration.returns := by
    cases declaration.returns <;> simp
  have described : (if declaration.returnDescriptions.isEmpty && declaration.returns then
        shownReturns style declaration
      else declaration.returnDescriptions)
      = if declaration.returns then shownReturns style declaration
        else declaration.returnDescriptions := by
    unfold shownReturns
    cases declaration.returns <;> cases declaration.returnDescriptions <;> simp
  simp only [Declaration.merge, parameters]
  simp only [shown, selfDocumented, description, returns, described, Bool.or_true]

/-- A return value without descriptions is written under the keyword that is read back. -/
theorem returnTags_selfDocumented (legible : Legible style declaration)
    (returns : declaration.returns = true)
    : returnTags style (selfDocumented style declaration).returnDescriptions
      = returnTags style declaration.returnDescriptions := by
  have several : (shownReturns style declaration).isEmpty = false := by
    rw [isEmpty_shownReturns, returns]
    rfl
  rw [legible.returnTags returns, selfDocumented, if_pos returns, returnTags, several]
  rfl

/-- With what its block says a declaration has the same block. -/
theorem expansion_selfDocumented (legible : Legible style declaration) (indent lead : Text)
    : expansion (snippet style indent lead (selfDocumented style declaration))
      = expansion (snippet style indent lead declaration) := by
  have prose : Prose (selfDocumented style declaration).description := legible.description
  have tags : tagText style (.ofStyle style indent) (selfDocumented style declaration)
      = tagText style (.ofStyle style indent) declaration := by
    by_cases returns : declaration.returns = true
    · rw [tagText, returnTags_selfDocumented legible returns]
      rfl
    · have same : (selfDocumented style declaration).returnDescriptions
          = declaration.returnDescriptions := by
        rw [selfDocumented, if_neg returns]
      rw [tagText, same]
      rfl
  rw [expansion_snippet, expansion_snippet, tags, expansion_descriptionPieces prose,
    expansion_descriptionPieces legible.description]
  rfl

/-- What stands before a block is written in front of it. -/
theorem expansion_snippet_lead (style : Style) (indent lead : Text) (declaration : Declaration)
    : expansion (snippet style indent lead declaration)
      = lead ++ expansion (snippet style indent [] declaration) := by
  rw [expansion_snippet, expansion_snippet]
  simp

/-- A block that is read, merged into its declaration and written again is the same text. -/
theorem expansion_regenerated {indent : Text} {keepDirection : Bool}
    (legible : Legible style declaration) (distinct : (declaration.parameters.map (·.name)).Nodup)
    (undirected : keepDirection = false
      → ∀ parameter ∈ declaration.parameters, parameter.direction = none)
    (blanks : ∀ c ∈ indent, isBlank c = true)
    : expansion (snippet style indent []
          (Declaration.merge true declaration
            (Documentation.read keepDirection (expansion (snippet style indent [] declaration)))))
      = expansion (snippet style indent [] declaration) := by
  rw [read_expansion legible blanks, merge_shown style distinct undirected]
  exact expansion_selfDocumented legible indent []

--------------------------------------------------------------------------------
-- Line breaks
--------------------------------------------------------------------------------

theorem no_carriageReturn_tagBlock {indent : Text} (blanks : ∀ c ∈ indent, isBlank c = true)
    {tags : List Text} (free : ∀ tag ∈ tags, '\r' ∉ tag)
    : '\r' ∉ (Margin.ofStyle style indent).tagBlock tags := by
  have decoration : '\r' ∉ (Margin.ofStyle style indent).decoration :=
    (Margin.hollow_decoration blanks).not_mem (by decide)
  have lead : '\r' ∉ (Margin.ofStyle style indent).lead :=
    (Margin.hollow_lead blanks).not_mem (by decide)
  intro member
  rw [Margin.tagBlock, List.mem_append, List.mem_cons, List.mem_flatMap] at member
  rcases member with inside | feed | ⟨tag, among, inside⟩
  · exact decoration inside
  · exact absurd feed (by decide)
  · simp [Margin.tagLine, lead, free tag among] at inside

/-- The line of a parameter has no carriage return unless its direction has one. -/
theorem LegibleParameter.no_carriageReturn {parameter : Parameter}
    (legible : LegibleParameter parameter)
    (direction : ∀ text ∈ parameter.direction, '\r' ∉ text) (width : Nat)
    : '\r' ∉ parameterTag width parameter := by
  have name : '\r' ∉ parameter.name :=
    fun member => absurd (legible.name.2 _ member) (by decide +kernel)
  have description : '\r' ∉ parameter.description := by
    rcases legible.description with empty | plain
    · simp [empty]
    · exact fun member => (plain.no_break _ member).1 rfl
  have shown : '\r' ∉ directionText parameter := by
    rcases legible.directionText_cases with ⟨-, empty⟩ | ⟨text, given, shape, -⟩
    · simp [empty]
    · simp [shape, direction text given]
  simp [parameterTag, parameterKeyword, legible.trim_description, name, description, shown]

theorem LegibleReturn.no_carriageReturn {description tag : Text}
    (legible : LegibleReturn description) (written : Block.returnTag? description = some tag)
    : '\r' ∉ tag := by
  obtain ⟨keyword, known, body, ordinary, shape, -⟩ := legible.returnTag?
  obtain rfl : tag = keyword ++ ' ' :: body := Option.some.inj (written.symm.trans shape)
  have checked : ∀ keyword ∈ Documentation.returnKeywords, '\r' ∉ keyword := by decide
  have text : '\r' ∉ body := by
    rcases ordinary with rfl | plain
    · simp
    · exact fun member => (plain.no_break _ member).1 rfl
  simp [checked keyword known, text]

/-- A block brings no carriage return into a document. -/
theorem no_carriageReturn_expansion {indent lead : Text} (legible : Legible style declaration)
    (directions : ∀ parameter ∈ declaration.parameters, ∀ text ∈ parameter.direction, '\r' ∉ text)
    (blanks : ∀ c ∈ indent, isBlank c = true) (before : ∀ c ∈ lead, isBlank c = true)
    : '\r' ∉ expansion (snippet style indent lead declaration) := by
  have free {text : Text} (all : ∀ c ∈ text, isBlank c = true) : '\r' ∉ text :=
    fun member => absurd (all _ member) (by decide)
  have opening : '\r' ∉ openingText style (.ofStyle style indent) declaration := by
    obtain ⟨marker, marked, shape⟩ :=
      openingText_of_undefined legible.unnamed (.ofStyle style indent)
    have margin : '\r' ∉ (Margin.ofStyle style indent).lead :=
      (Margin.hollow_lead blanks).not_mem (by decide)
    have mark : '\r' ∉ marker := by
      rcases marked with rfl | rfl <;> decide
    rw [shape]
    split <;> simp [margin, mark]
  have description : '\r'
      ∉ (Margin.ofStyle style indent).continueLines (Text.lines declaration.description) := by
    intro member
    rcases Margin.mem_continueLines blanks member with blank | star | feed | ⟨line, among, inside⟩
    · exact absurd blank (by decide)
    · exact absurd star (by decide)
    · exact absurd feed (by decide)
    · rcases legible.description.each line among with rfl | plain
      · contradiction
      · exact (plain.no_break _ inside).1 rfl
  have tags : '\r' ∉ tagText style (.ofStyle style indent) declaration := by
    rw [tagText, List.mem_append, not_or]
    constructor
    · split
      · simp
      · apply no_carriageReturn_tagBlock blanks
        intro tag member
        obtain ⟨parameter, among, rfl⟩ := List.mem_map.mp member
        exact (legible.parameters parameter among).no_carriageReturn (directions parameter among) _
    · split
      · next returns =>
        apply no_carriageReturn_tagBlock blanks
        rw [legible.returnTags returns]
        intro tag member
        obtain ⟨text, among, written⟩ := List.mem_filterMap.mp member
        exact (legible.shownReturns text among).no_carriageReturn written
      · simp
  rw [expansion_snippet, expansion_descriptionPieces legible.description]
  simp [free blanks, free before, opening, description, tags]

end DocBlock.Block
