import DocBlock.Proofs.Block.WrittenDescription

/-! Writing a declaration as a comment block and reading the block gives the declaration back, as
far as a comment shows it. Each tag line is one segment, and the empty lines between the tags belong
to no text.
-/

namespace DocBlock.Block

open Comment (Closeless)
open Documentation (Plain Hollow Quiet OpensSegment Tagged returnKeywords)
open Text (isSpace isBlank isWord)

--------------------------------------------------------------------------------
-- Declarations that a comment can show
--------------------------------------------------------------------------------

/-- A parameter that its tag line can show. -/
structure LegibleParameter (parameter : Parameter) : Prop where
  name : parameter.name ≠ [] ∧ ∀ c ∈ parameter.name, isWord c = true
  description : parameter.description = [] ∨ Plain parameter.description
  direction : ∀ text ∈ parameter.direction, text ≠ [] ∧ ∀ c ∈ text, c ≠ ']' ∧ c ≠ '@' ∧ c ≠ '*'

/-- A return description that its tag line can show: a keyword, or a keyword, one space and plain
text. -/
def LegibleReturn (description : Text) : Prop :=
  ∃ keyword ∈ returnKeywords,
    description = keyword ∨ ∃ body, Plain body ∧ description = keyword ++ ' ' :: body

/-- A declaration that a comment block of the style can show. -/
structure Legible (style : Style) (declaration : Declaration) : Prop where
  unnamed : declaration.isMacro = false ∨ style.emitMacroDef = false
  keyword : style.returnKeyword ∈ returnKeywords
  description : Prose declaration.description
  short : style.firstLineInline = false ∨ (Text.lines declaration.description).length ≤ 1
  parameters : ∀ parameter ∈ declaration.parameters, LegibleParameter parameter
  returnDescriptions : ∀ description ∈ declaration.returnDescriptions, LegibleReturn description

/-- What a comment shows of a parameter at its place in the list. -/
def shownParameter (keepDirection : Bool) (parameter : Parameter) (index : Nat) : Parameter :=
  {
    name := parameter.name
    direction := if keepDirection then parameter.direction else none
    index := some index
    description := parameter.description
  }

/-- The return descriptions of a block: an undocumented return value has the style's keyword. -/
def shownReturns (style : Style) (declaration : Declaration) : List Text :=
  if !declaration.returns then []
  else if declaration.returnDescriptions.isEmpty then [style.returnKeyword]
  else declaration.returnDescriptions

theorem isEmpty_shownReturns (style : Style) (declaration : Declaration)
    : (shownReturns style declaration).isEmpty = !declaration.returns := by
  unfold shownReturns
  split
  · simp_all
  · split <;> simp_all

/-- What the comment block of a declaration shows. -/
def shown (style : Style) (keepDirection : Bool) (declaration : Declaration) : Declaration :=
  {
    documented := true
    description := declaration.description
    parameters :=
      declaration.parameters.zipIdx.map fun (parameter, index) =>
        shownParameter keepDirection parameter index
    returns := declaration.returns
    returnDescriptions := shownReturns style declaration
  }

--------------------------------------------------------------------------------
-- Tag lines
--------------------------------------------------------------------------------

namespace Margin

variable {margin : Margin} {tags : List Text} {rest : Text}

/-- A block of tag lines stands in front of further tags, by induction on its tags. -/
theorem tagged_tagBlock (decoration : Hollow margin.decoration) (lead : Hollow margin.lead)
    {new : List Text} (opens : ∀ tag ∈ new, OpensSegment tag) (later : Tagged tags rest)
    : Tagged (new ++ tags) (margin.tagBlock new ++ rest) := by
  have lines : Tagged (new ++ tags) (new.flatMap margin.tagLine ++ rest) := by
    induction new with
    | nil => exact later
    | cons tag new ih =>
        rw [List.forall_mem_cons] at opens
        have line := Tagged.tag lead opens.1 (ih opens.2)
        simpa [tagLine] using line
  have block := lines.prepend decoration
  simpa [tagBlock] using block

end Margin

namespace LegibleParameter

variable {parameter : Parameter}

theorem trim_description (legible : LegibleParameter parameter)
    : Text.trim parameter.description = parameter.description := by
  rcases legible.description with empty | plain
  · rw [empty]
    rfl
  · exact plain.trim_eq

theorem directionText_cases (legible : LegibleParameter parameter)
    : (parameter.direction = none ∧ directionText parameter = [])
      ∨ ∃ text,
          parameter.direction = some text
            ∧ directionText parameter = '[' :: (text ++ [']'])
            ∧ ∀ c ∈ text, c ≠ ']' ∧ c ≠ '@' ∧ c ≠ '*' := by
  cases given : parameter.direction with
  | none => exact .inl ⟨rfl, by simp [directionText, given]⟩
  | some text =>
      obtain ⟨nonempty, inner⟩ := legible.direction text given
      exact .inr ⟨text, rfl, by simp [directionText, given, nonempty], inner⟩

theorem opensSegment (legible : LegibleParameter parameter) (width : Nat)
    : OpensSegment (parameterTag width parameter) := by
  refine ⟨.inl ?_, ?_⟩
  · simp only [parameterTag, parameterKeyword, List.append_assoc]
    exact List.prefix_append _ _
  · have direction : ∀ c ∈ directionText parameter, c ≠ '@' ∧ c ≠ '*' := by
      rcases legible.directionText_cases with ⟨-, empty⟩ | ⟨text, -, shape, inner⟩
      · simp [empty]
      · rw [shape, List.forall_mem_cons, List.forall_mem_append]
        exact ⟨by decide, fun c member => (inner c member).2, by decide⟩
    have name : ∀ c ∈ parameter.name, c ≠ '@' ∧ c ≠ '*' := by
      intro c member
      constructor <;> (rintro rfl; exact absurd (legible.name.2 _ member) (by decide +kernel))
    have description : ∀ c ∈ parameter.description, c ≠ '@' ∧ c ≠ '*' := by
      rcases legible.description with empty | plain
      · simp [empty]
      · exact fun c member => ⟨(plain.inner c member).1, (plain.inner c member).2.1⟩
    have pad (n : Nat) : ∀ c ∈ List.replicate n ' ', c ≠ '@' ∧ c ≠ '*' := by
      intro c member
      rw [List.eq_of_mem_replicate member]
      decide
    rw [parameterTag, legible.trim_description]
    simp only [List.forall_mem_append, List.forall_mem_cons]
    exact ⟨⟨⟨⟨by decide, direction⟩, by decide, name⟩, by decide, pad _⟩, description⟩

/-- What follows `@param` on the line of a parameter. -/
def segment (width : Nat) (parameter : Parameter) : Text :=
  directionText parameter ++ ' ' :: (parameter.name
    ++ (' ' :: List.replicate (width - parameter.name.length) ' ' ++ parameter.description))

theorem parameterTag_eq (legible : LegibleParameter parameter) (width : Nat)
    : parameterTag width parameter = "param".toList ++ segment width parameter := by
  simp [parameterTag, parameterKeyword, segment, legible.trim_description]

/-- The direction in its brackets is read back. -/
theorem direction?_segment (legible : LegibleParameter parameter) {rest : Text}
    (start : rest.head? = some ' ')
    : Documentation.direction? (directionText parameter ++ rest)
      = parameter.direction.map (·, rest) := by
  obtain ⟨later, rfl⟩ := List.head?_eq_some_iff.mp start
  rcases legible.directionText_cases with ⟨none, empty⟩ | ⟨text, given, shape, inner⟩
  · rw [empty, none]
    rfl
  · have inside : ∀ c ∈ text, decide (c ≠ ']') = true := fun c member => by simp [inner c member]
    have outside : ∀ c, (']' :: ' ' :: later).head? = some c → decide (c ≠ ']') = false := by
      rintro c ⟨⟩
      decide
    have taken := Text.takeWhile_run inside outside
    have left := Text.dropWhile_run inside outside
    rw [shape, given]
    simp only [List.cons_append, List.append_assoc, List.nil_append, Documentation.direction?,
      taken, left, Option.map_some]

/-- A parameter is read back from its segment. -/
theorem parameterOf?_segment (legible : LegibleParameter parameter) (keepDirection : Bool)
    (width index : Nat) {gap : Text} (hollow : Hollow gap)
    : Documentation.parameterOf? keepDirection (segment width parameter ++ '\n' :: gap) index
      = some (shownParameter keepDirection parameter index) := by
  have pad : ∀ c ∈ ' ' :: List.replicate (width - parameter.name.length) ' ', isBlank c = true := by
    rw [← List.replicate_succ]
    intro c member
    rw [List.eq_of_mem_replicate member]
    decide
  have body := Documentation.tagBody_line pad legible.description hollow
  have whole : segment width parameter ++ '\n' :: gap
      = directionText parameter ++ ' ' :: (parameter.name
        ++ (' ' :: List.replicate (width - parameter.name.length) ' ' ++ parameter.description
          ++ '\n' :: gap)) := by
    simp [segment]
  have outside : ∀ c,
      (' ' :: List.replicate (width - parameter.name.length) ' ' ++ parameter.description
        ++ '\n' :: gap).head? = some c → isWord c = false := by
    rintro c ⟨⟩
    decide +kernel
  rw [whole]
  generalize ' ' :: List.replicate (width - parameter.name.length) ' ' ++ parameter.description
    ++ '\n' :: gap = tail at body outside
  obtain ⟨c, name, shape⟩ := List.exists_cons_of_ne_nil legible.name.1
  have spaces : (' ' :: (parameter.name ++ tail)).dropWhile isSpace = parameter.name ++ tail := by
    refine @Text.dropWhile_run isSpace [' '] _ (by decide) fun d start => ?_
    rw [shape] at start
    obtain rfl : c = d := by simpa using start
    exact Text.isSpace_of_isWord (legible.name.2 c (by simp [shape]))
  have word : Text.wordRun? (parameter.name ++ tail) = some (parameter.name, tail) := by
    simp only [Text.wordRun?, Text.takeWhile_run legible.name.2 outside,
      Text.dropWhile_run legible.name.2 outside]
    rw [shape]
  have direction := @direction?_segment _ legible (' ' :: (parameter.name ++ tail)) rfl
  rcases legible.directionText_cases with ⟨none, empty⟩ | ⟨text, given, -, -⟩
  · rw [none, empty, List.nil_append, Option.map_none] at direction
    simp [Documentation.parameterOf?, direction, empty, spaces, word, body, shownParameter, none]
  · rw [given, Option.map_some] at direction
    simp [Documentation.parameterOf?, direction, spaces, word, body, shownParameter, given]

end LegibleParameter

/-- A return description is written as its keyword, a space and its text. -/
theorem LegibleReturn.returnTag? {description : Text} (legible : LegibleReturn description)
    : ∃ keyword ∈ returnKeywords,
        ∃ body,
          (body = [] ∨ Plain body)
            ∧ returnTag? description = some (keyword ++ ' ' :: body)
            ∧ description = if body.isEmpty then keyword else keyword ++ ' ' :: body := by
  obtain ⟨keyword, known, shape⟩ := legible
  have nonempty := (Documentation.returnKeyword_word known).1
  have unspaced := Documentation.returnKeyword_unspaced known
  refine ⟨keyword, known, ?_⟩
  rcases shape with rfl | ⟨body, plain, rfl⟩
  · have run : ∀ c ∈ description, (!isSpace c) = true := by simpa using unspaced
    have whole : description.takeWhile (!isSpace ·) = description := by
      simpa using @Text.takeWhile_run (!isSpace ·) description [] run (by simp)
    have none : description.dropWhile (!isSpace ·) = [] := by
      simpa using @Text.dropWhile_run (!isSpace ·) description [] run (by simp)
    exact ⟨[], .inl rfl, by simp [Block.returnTag?, whole, none, nonempty], rfl⟩
  · have shown : body.dropWhile isSpace = body :=
      @Text.dropWhile_run isSpace [] body (by simp) plain.first
    refine ⟨body, .inr plain, returnTag?_of_text nonempty unspaced ?_, by simp [plain.nonempty]⟩
    rw [shown]
    exact plain.nonempty

--------------------------------------------------------------------------------
-- Reading the tags of a block
--------------------------------------------------------------------------------

/-- Return tags are read back, by induction on the descriptions. -/
theorem findAll_returns {descriptions : List Text} {text : Text}
    (legible : ∀ description ∈ descriptions, LegibleReturn description)
    (tagged : Tagged (descriptions.filterMap returnTag?) text)
    : Text.findAll Documentation.parameterSegment? text = []
      ∧ Text.findAll Documentation.returnSegment? text = descriptions := by
  induction descriptions generalizing text with
  | nil => exact tagged.findAll_close
  | cons description rest ih =>
      rw [List.forall_mem_cons] at legible
      obtain ⟨keyword, known, body, ordinary, tag, same⟩ := legible.1.returnTag?
      rw [List.filterMap_cons, tag] at tagged
      obtain ⟨later, further, parameters, returns⟩ := tagged.findAll_return known ordinary
      obtain ⟨none, more⟩ := ih legible.2 further
      rw [parameters, returns, none, more, ← same]
      exact ⟨rfl, rfl⟩

/-- Parameter tags are read back, with the tags behind them left to read. Witness: induction on the
parameters with any first index.
-/
theorem findAll_parameters {parameters : List Parameter} {tags : List Text} {text : Text}
    (keepDirection : Bool) (width : Nat)
    (legible : ∀ parameter ∈ parameters, LegibleParameter parameter)
    (others : ∀ rest, Tagged tags rest → Text.findAll Documentation.parameterSegment? rest = [])
    (tagged : Tagged (parameters.map (parameterTag width) ++ tags) text) (start : Nat)
    : (((Text.findAll Documentation.parameterSegment? text).zipIdx start).filterMap
          fun (segment, index) => Documentation.parameterOf? keepDirection segment index)
        = ((parameters.zipIdx start).map
          fun (parameter, index) => shownParameter keepDirection parameter index)
      ∧ ∃ rest,
          Tagged tags rest
            ∧ Text.findAll Documentation.returnSegment? text
              = Text.findAll Documentation.returnSegment? rest := by
  induction parameters generalizing text start with
  | nil => exact ⟨by rw [others text tagged]; rfl, text, tagged, rfl⟩
  | cons parameter parameters ih =>
      rw [List.forall_mem_cons] at legible
      rw [List.map_cons, List.cons_append, legible.1.parameterTag_eq] at tagged
      obtain ⟨gap, rest, hollow, further, found, returns⟩ := tagged.findAll_parameter
      obtain ⟨more, later, behind, same⟩ := ih legible.2 further (start + 1)
      have first := legible.1.parameterOf?_segment keepDirection width start hollow
      refine ⟨?_, later, behind, returns.trans same⟩
      simp only [found, List.zipIdx_cons, List.filterMap_cons, first, more, List.map_cons]

theorem LegibleReturn.opensSegment {description tag : Text} (legible : LegibleReturn description)
    (written : Block.returnTag? description = some tag)
    : OpensSegment tag := by
  obtain ⟨keyword, known, body, ordinary, shape, -⟩ := legible.returnTag?
  obtain rfl : tag = keyword ++ ' ' :: body := Option.some.inj (written.symm.trans shape)
  have checked : ∀ keyword ∈ returnKeywords,
      "ret".toList <+: keyword ∧ ∀ c ∈ keyword, c ≠ '@' ∧ c ≠ '*' := by
    decide
  obtain ⟨start, inner⟩ := checked keyword known
  refine ⟨.inr (start.trans (List.prefix_append _ _)), ?_⟩
  rw [List.forall_mem_append, List.forall_mem_cons]
  refine ⟨inner, by decide, ?_⟩
  rcases ordinary with rfl | plain
  · simp
  · exact fun c member => ⟨(plain.inner c member).1, (plain.inner c member).2.1⟩

theorem Legible.shownReturns {style : Style} {declaration : Declaration}
    (legible : Legible style declaration)
    : ∀ description ∈ Block.shownReturns style declaration, LegibleReturn description := by
  unfold Block.shownReturns
  split
  · simp
  · split
    · exact List.forall_mem_singleton.mpr ⟨_, legible.keyword, .inl rfl⟩
    · exact legible.returnDescriptions

/-- The return lines of a block are those of the shown return descriptions. -/
theorem Legible.returnTags {style : Style} {declaration : Declaration}
    (legible : Legible style declaration) (returns : declaration.returns = true)
    : Block.returnTags style declaration.returnDescriptions
      = (Block.shownReturns style declaration).filterMap returnTag? := by
  have alone : ∀ keyword ∈ returnKeywords, returnTag? keyword = some (keyword ++ [' ']) := by
    decide
  unfold Block.returnTags Block.shownReturns
  split
  · simp [returns, alone _ legible.keyword]
  · simp [returns]

/-- The tags of a block stand between its description and its end. -/
theorem tagged_tags {style : Style} {declaration : Declaration} {indent : Text}
    (blanks : ∀ c ∈ indent, isBlank c = true)
    (parameters : ∀ parameter ∈ declaration.parameters, LegibleParameter parameter)
    (returns : declaration.returns = true
      → ∀ tag ∈ Block.returnTags style declaration.returnDescriptions, OpensSegment tag)
    : Tagged
        (declaration.parameters.map (parameterTag (nameWidth style declaration.parameters))
          ++ if declaration.returns then Block.returnTags style declaration.returnDescriptions
            else [])
        (tagText style (.ofStyle style indent) declaration ++ (indent ++ " */".toList)) := by
  have decoration : Hollow (Margin.ofStyle style indent).decoration :=
    Margin.hollow_decoration blanks
  have lead : Hollow (Margin.ofStyle style indent).lead := Margin.hollow_lead blanks
  have wider : ∀ c ∈ indent ++ [' '], isBlank c = true :=
    List.forall_mem_append.mpr ⟨blanks, by decide⟩
  have close : Tagged [] (indent ++ " */".toList) := by
    simpa using Tagged.close (Hollow.of_blanks wider)
  have behind : Tagged
      (if declaration.returns then Block.returnTags style declaration.returnDescriptions else [])
      ((if declaration.returns then
          (Margin.ofStyle style indent).tagBlock
            (Block.returnTags style declaration.returnDescriptions)
        else [])
        ++ (indent ++ " */".toList)) := by
    by_cases given : declaration.returns = true
    · have tagged := Margin.tagged_tagBlock decoration lead (returns given) close
      simpa [given] using tagged
    · simpa [given] using close
  rw [tagText, List.append_assoc]
  by_cases none : declaration.parameters = []
  · simpa [none] using behind
  · have opens : ∀ tag ∈
        declaration.parameters.map (parameterTag (nameWidth style declaration.parameters)),
        OpensSegment tag := by
      intro tag member
      obtain ⟨parameter, among, rfl⟩ := List.mem_map.mp member
      exact (parameters parameter among).opensSegment _
    simpa [none] using Margin.tagged_tagBlock decoration lead opens behind

/-- The tags of a legible block are those of its parameters and of its shown return descriptions. -/
theorem tagged_tagText {style : Style} {declaration : Declaration} {indent : Text}
    (legible : Legible style declaration) (blanks : ∀ c ∈ indent, isBlank c = true)
    : Tagged
        (declaration.parameters.map (parameterTag (nameWidth style declaration.parameters))
          ++ (shownReturns style declaration).filterMap returnTag?)
        (tagText style (.ofStyle style indent) declaration ++ (indent ++ " */".toList)) := by
  have tags : (if declaration.returns then
        Block.returnTags style declaration.returnDescriptions else [])
      = (Block.shownReturns style declaration).filterMap returnTag? := by
    by_cases given : declaration.returns = true
    · rw [if_pos given, legible.returnTags given]
    · simp [given, Block.shownReturns]
  rw [← tags]
  refine tagged_tags blanks legible.parameters fun given tag member => ?_
  rw [legible.returnTags given] at member
  obtain ⟨description, among, written⟩ := List.mem_filterMap.mp member
  exact (legible.shownReturns description among).opensSegment written

--------------------------------------------------------------------------------
-- The whole block
--------------------------------------------------------------------------------

/-- The description of a written comment is what stands before the first tag. -/
theorem mainDescription?_block {lead body rest : Text} (before : ∀ c ∈ lead, isBlank c = true)
    (quiet : Quiet body) (start : rest.head? ≠ some '/')
    (stops : Documentation.endsDescription rest = true)
    : Documentation.mainDescription? (lead ++ ("/**".toList ++ (body ++ rest)))
      = some (Documentation.descriptionOf body) := by
  have opened : (lead ++ ("/**".toList ++ (body ++ rest))).dropWhile isSpace
      = "/**".toList ++ (body ++ rest) :=
    Text.dropWhile_run (fun c member => Text.isSpace_of_isBlank (before c member))
      (by rintro c ⟨⟩; decide)
  rw [Documentation.mainDescription?, opened, Text.after?_append, Option.map_some,
    quiet.breakAt_endsDescription start stops]

/-- No segment starts before the first tag of a written comment. -/
theorem quiet_front {lead body : Text} (before : ∀ c ∈ lead, isBlank c = true)
    (quiet : Quiet body) (start : body.head? ≠ some '/')
    : Quiet (lead ++ ("/**".toList ++ body)) := by
  have star : '*' ∉ lead := fun member => absurd (before _ member) (by decide)
  have mark : '@' ∉ lead := fun member => absurd (before _ member) (by decide)
  have opening : Quiet "/**".toList := by
    refine Quiet.of_no_at ?_ (by decide)
    unfold Closeless
    decide
  refine (Quiet.of_no_at (Closeless.of_no_star star) mark).append
    (opening.append quiet fun joint => start joint.2) fun joint => ?_
  exact star (List.mem_of_getLast? joint.1)

/-- Writing a declaration as a comment block and reading the block gives back what the block
shows. -/
theorem read_written_block {style : Style} {declaration : Declaration} {indent lead : Text}
    (legible : Legible style declaration) (blanks : ∀ c ∈ indent, isBlank c = true)
    (before : ∀ c ∈ lead, isBlank c = true) (keepDirection : Bool)
    : Documentation.read keepDirection
          (Snippet.expand (snippet style indent lead declaration).render)
      = shown style keepDirection declaration := by
  obtain ⟨gap, rest, tags, hollow, tagged, describes, -, start⟩ :=
    (tagged_tagText legible blanks).skip
  have quiet := quiet_written blanks legible.description legible.unnamed hollow
  have description :=
    descriptionOf_written blanks legible.description legible.unnamed legible.short hollow
  have whole : Snippet.expand (snippet style indent lead declaration).render
      = lead ++ ("/**".toList
        ++ (openingText style (.ofStyle style indent) declaration
          ++ ((Margin.ofStyle style indent).continueLines (Text.lines declaration.description)
            ++ '\n' :: gap)
          ++ rest)) := by
    rw [expand_snippet, expansion_snippet, expansion_descriptionPieces legible.description]
    simp only [List.append_assoc, List.cons_append] at tags ⊢
    rw [tags]
  have opening : (openingText style (.ofStyle style indent) declaration
      ++ ((Margin.ofStyle style indent).continueLines (Text.lines declaration.description)
        ++ '\n' :: gap)).head? ≠ some '/' := by
    obtain ⟨marker, -, shape⟩ := openingText_of_undefined legible.unnamed (.ofStyle style indent)
    rw [shape]
    split <;> simp
  generalize openingText style (.ofStyle style indent) declaration
      ++ ((Margin.ofStyle style indent).continueLines (Text.lines declaration.description)
        ++ '\n' :: gap) = body at quiet description whole opening
  have front := quiet_front before quiet opening
  obtain ⟨parameters, later, behind, returns⟩ :=
    findAll_parameters keepDirection (nameWidth style declaration.parameters) legible.parameters
      (fun rest more => (findAll_returns legible.shownReturns more).1) tagged 0
  have shape : lead ++ ("/**".toList ++ (body ++ rest))
      = lead ++ ("/**".toList ++ body) ++ rest := by
    simp only [List.append_assoc]
  have main : Documentation.mainDescription? (lead ++ ("/**".toList ++ body) ++ rest)
      = some declaration.description := by
    rw [← shape, mainDescription?_block before quiet start describes, description]
  have found : Text.findAll Documentation.returnSegment? (lead ++ ("/**".toList ++ body) ++ rest)
      = shownReturns style declaration := by
    rw [front.findAll_returnSegment?, returns, (findAll_returns legible.shownReturns behind).2]
  rw [whole, shape, Documentation.read, main, found, front.findAll_parameterSegment?, parameters,
    shown, isEmpty_shownReturns, Bool.not_not, Option.getD_some]

/-- A function with a description of two paragraphs, parameters with and without text, and a return
value with two descriptions. -/
def documentedCopy : Declaration :=
  {
    name := "copy".toList
    returns := true
    description := "Copy a buffer.\n\nThe buffers / views must not\noverlap.".toList
    parameters :=
      [
        { name := "to".toList, direction := some "out".toList, description := "the target".toList },
        { name := "from".toList, direction := some "in".toList }
      ]
    returnDescriptions := ["retval 0 on success".toList, "returns".toList]
    documented := true
  }

/-- The description, both parameters and both return values of the copy are read back. -/
theorem read_documentedCopy
    : Legible Style.default documentedCopy
      ∧ Documentation.read true
          (Snippet.expand (snippet Style.default "\t ".toList [] documentedCopy).render)
        = shown Style.default true documentedCopy := by
  have legible : Legible Style.default documentedCopy := by
    refine ⟨.inl rfl, by decide, by decide, .inl rfl, ?_, ?_⟩
    · simp only [documentedCopy, List.forall_mem_cons]
      refine ⟨⟨by decide +kernel, by decide, ?_⟩, ⟨by decide +kernel, .inl rfl, ?_⟩, by simp⟩
      · rintro text ⟨⟩
        decide
      · rintro text ⟨⟩
        decide
    · simp only [documentedCopy, List.forall_mem_cons]
      refine ⟨⟨"retval".toList, by decide, .inr ⟨"0 on success".toList, by decide, rfl⟩⟩,
        ⟨"returns".toList, by decide, .inl rfl⟩, by simp⟩
  exact ⟨legible, read_written_block legible (by decide) (by decide) true⟩

end DocBlock.Block
