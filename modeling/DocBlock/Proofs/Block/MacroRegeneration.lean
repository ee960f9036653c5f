import DocBlock.Proofs.Block.Regeneration
import DocBlock.Proofs.Comment.Words
import DocBlock.Proofs.Signature.Names

/-! Regenerating the comment of a macro. The arguments of a macro are any text between commas, while
a comment names a parameter by a word: what stands behind the word of an argument is read as its
description. The comment stays as it is exactly if no argument takes over such a text.
-/

namespace DocBlock.Block

open Declaration (donorsAt fillFrom pairings)
open Documentation (Hollow Untagged TagPart segmentTags tagBody)
open Snippet (expansion)
open Text (isSpace isBlank isWord)

--------------------------------------------------------------------------------
-- Macros as they are read from source
--------------------------------------------------------------------------------

/-- An argument as the definition of a macro shows it. -/
structure FreshArgument (parameter : Parameter) : Prop where
  nonempty : parameter.name ≠ []
  first : ∀ c ∈ parameter.name.head?, isSpace c = false
  direction : parameter.direction = some "in".toList
  type : parameter.type = none
  description : parameter.description = []

/-- A macro as its definition shows it. -/
structure FreshMacro (definition : Declaration) : Prop where
  isMacro : definition.isMacro = true
  name : definition.name ≠ [] ∧ ∀ c ∈ definition.name, isWord c = true
  indent : ∀ c ∈ definition.indent, isBlank c = true
  description : definition.description = []
  returns : definition.returns = false
  returnDescriptions : definition.returnDescriptions = []
  arguments : ∀ parameter ∈ definition.parameters, FreshArgument parameter

theorem freshMacro_of_lastMacro {text : Text} {definition : Declaration}
    (found : Signature.lastMacro? true text = some definition)
    : FreshMacro definition := by
  obtain ⟨head, last, rfl⟩ := Option.map_eq_some_iff.mp found
  obtain ⟨line, -, read⟩ := List.mem_filterMap.mp (List.mem_of_getLast? last)
  obtain ⟨name, indent⟩ := Signature.functionMacro?_sound read
  refine ⟨rfl, name, indent, rfl, rfl, rfl, fun parameter member => ?_⟩
  obtain ⟨text, index, rfl, nonempty, first⟩ := Signature.MacroHead.exists_declared member
  exact ⟨nonempty, first, rfl, rfl, rfl⟩

theorem FreshMacro.descriptionLines_eq_nil {definition : Declaration}
    (fresh : FreshMacro definition)
    : descriptionLines definition.description = [] := by
  rw [fresh.description]
  rfl

--------------------------------------------------------------------------------
-- The comment of a macro
--------------------------------------------------------------------------------

/-- What follows `@param` on the line of an argument, up to the next tag. -/
def argumentSegment (width : Nat) (parameter : Parameter) (gap : Text) : Text :=
  "[in]".toList ++ ' ' :: (parameter.name
    ++ ' ' :: (List.replicate (width - parameter.name.length) ' ' ++ '\n' :: gap))

/-- The line of an argument is a parameter segment. -/
theorem parameterTag_argument {parameter : Parameter} (fresh : FreshArgument parameter)
    (width : Nat) (gap : Text)
    : '@' :: (parameterTag width parameter ++ '\n' :: gap)
      = "@param".toList ++ argumentSegment width parameter gap := by
  have none : Text.trim [] = [] := rfl
  simp [parameterTag, parameterKeyword, argumentSegment, directionText, fresh.direction,
    fresh.description, none]

/-- The lines of arguments are one segment for each, with the margin of the next line or the end of
the comment behind it. Witness: induction on the arguments.
-/
theorem exists_segments {margin : Margin} {close : Text} {width : Nat}
    {parameters : List Parameter} (fresh : ∀ parameter ∈ parameters, FreshArgument parameter)
    (nonempty : parameters ≠ [])
    : ∃ segments,
        List.Forall₂
            (fun parameter segment =>
              ∃ gap, (gap = margin.lead ∨ gap = close)
                ∧ segment = argumentSegment width parameter gap)
            parameters segments
          ∧ (parameters.map (parameterTag width)).flatMap margin.tagLine ++ close
            = margin.lead ++ (segments.map ("@param".toList ++ ·)).flatten := by
  induction parameters with
  | nil => contradiction
  | cons parameter parameters ih =>
      rw [List.forall_mem_cons] at fresh
      by_cases last : parameters = []
      · subst last
        refine ⟨[argumentSegment width parameter close],
          .cons ⟨close, .inr rfl, rfl⟩ .nil, ?_⟩
        have line := parameterTag_argument fresh.1 width close
        simp only [List.map_singleton, List.flatten_singleton, ← line]
        simp [Margin.tagLine]
      · obtain ⟨segments, each, whole⟩ := ih fresh.2 last
        refine ⟨argumentSegment width parameter margin.lead :: segments,
          .cons ⟨margin.lead, .inl rfl, rfl⟩ each, ?_⟩
        have line := parameterTag_argument fresh.1 width margin.lead
        simp only [List.map_cons, List.flatten_cons, List.flatMap_cons, ← line,
          List.append_assoc, whole]
        simp [Margin.tagLine]

/-- The line that names a macro. -/
def definitionLine (name : Text) : Text :=
  '@' :: ("def ".toList ++ name)

/-- What stands before the lines of the arguments names the macro, and nothing else is read from
it. -/
theorem descriptionOf_definition {indent name gap : Text} (blanks : ∀ c ∈ indent, isBlank c = true)
    (word : name ≠ [] ∧ ∀ c ∈ name, isWord c = true) (hollow : Hollow gap)
    : Documentation.descriptionOf
          ((Margin.ofStyle .default indent).continuation (definitionLine name) ++ '\n' :: gap)
      = definitionLine name := by
  obtain ⟨front, c, shape⟩ := (List.eq_nil_or_concat name).resolve_left word.1
  have member : c ∈ name := by simp [shape]
  have last : (definitionLine name).getLast? = some c := by
    rw [definitionLine, shape, List.concat_eq_append, ← List.append_assoc, ← List.cons_append,
      List.getLast?_concat]
  have outside : isSpace c = false := Text.isSpace_of_isWord (word.2 c member)
  have inside : Text.isSpaceOrStar c = false := by
    have other : c ≠ '*' := by
      rintro rfl
      exact absurd (word.2 _ member) (by decide +kernel)
    simp [Text.isSpaceOrStar, outside, other]
  have unbroken : ∀ d ∈ definitionLine name, d ≠ '\r' ∧ d ≠ '\n' := by
    refine List.forall_mem_cons.mpr ⟨by decide, List.forall_mem_append.mpr ⟨by decide, ?_⟩⟩
    intro d among
    constructor <;> (rintro rfl; exact absurd (word.2 _ among) (by decide +kernel))
  have reads : (Margin.ofStyle .default indent).ReadsAs (definitionLine name)
      (definitionLine name) := by
    refine @Margin.readsAs_line .default indent blanks _ [] rfl (by simp) (by simp [definitionLine])
      unbroken fun d final => ?_
    obtain rfl : c = d := Option.some.inj (last.symm.trans final)
    exact outside
  have shown := @Margin.undecoratedLines_continued _ id [definitionLine name]
    (by simpa using reads) [] (by simp) gap
  rw [List.flatMap_singleton, List.nil_append] at shown
  have unmarked : Text.after? "@brief".toList (definitionLine name) = none := by
    simp [definitionLine, Text.after?]
  have start : ∀ d ∈ (definitionLine name).head?, isSpace d = false := by
    rintro d ⟨⟩
    decide
  exact @Documentation.descriptionOf_lines _ (definitionLine name) (definitionLine name) [[]] [] _
    shown (by simp [definitionLine]) (by simp) hollow.lines (by rw [unmarked]; rfl)
    fun feeds behind => Documentation.tidied_feeds start last inside behind

/-- No segment starts in what stands before the lines of the arguments. -/
theorem untagged_definition {indent name gap : Text} (blanks : ∀ c ∈ indent, isBlank c = true)
    (word : ∀ c ∈ name, isWord c = true) (hollow : Hollow gap)
    : Untagged segmentTags
        ((Margin.ofStyle .default indent).continuation (definitionLine name) ++ '\n' :: gap) := by
  have shape : (Margin.ofStyle .default indent).continuation (definitionLine name)
      = '\n' :: (Margin.ofStyle .default indent).lead ++ definitionLine name := by
    simp [Margin.continuation, Margin.lead, definitionLine]
  have margin : '@' ∉ '\n' :: (Margin.ofStyle .default indent).lead := by
    simpa using (Margin.hollow_lead blanks).not_mem (by decide)
  have behind : '@' ∉ "def ".toList ++ name ++ '\n' :: gap := by
    have named : '@' ∉ name := fun member => absurd (word _ member) (by decide +kernel)
    have empty : '@' ∉ gap := hollow.not_mem (by decide)
    simp [named, empty]
  have later : Untagged segmentTags ("def ".toList ++ name ++ '\n' :: gap) :=
    .of_no_at (by decide) behind
  have line : Untagged segmentTags ('@' :: ("def ".toList ++ name ++ '\n' :: gap)) := by
    refine later.cons ?_
    simp [Documentation.startsWithTag, segmentTags, Text.startsWith, Text.after?]
  have whole := line.append_left margin
  rw [shape]
  simpa [definitionLine] using whole

/-- The segment of an argument in whose name no tag starts is a part of the comment. -/
theorem tagPart_argument {parameter : Parameter} {width : Nat} {gap : Text}
    (untagged : Untagged segmentTags parameter.name) (absent : '@' ∉ gap)
    : TagPart ("@param".toList ++ argumentSegment width parameter gap) := by
  have pad : '@' ∉ List.replicate (width - parameter.name.length) ' ' := by
    intro member
    exact absurd (List.eq_of_mem_replicate member) (by decide)
  have behind : Untagged segmentTags
      (' ' :: (List.replicate (width - parameter.name.length) ' ' ++ '\n' :: gap)) :=
    .of_no_at (by decide) (by simp [pad, absent])
  have text := (untagged.append behind (by decide)).append_left
    (by decide : '@' ∉ "param[in] ".toList)
  constructor
  · exact Documentation.startsWithTag_append (by decide) _
  · simpa [argumentSegment] using text

/-- The comment of a macro: what names it, and one segment for each argument. -/
theorem exists_comment {definition : Declaration} (fresh : FreshMacro definition)
    : ∃ first segments,
        Untagged segmentTags first
          ∧ Documentation.descriptionOf first = definitionLine definition.name
          ∧ List.Forall₂
              (fun parameter segment =>
                ∃ gap, Hollow gap
                  ∧ segment = argumentSegment (nameWidth .default definition.parameters)
                    parameter gap)
              definition.parameters segments
          ∧ expansion (snippet .default definition.indent [] definition)
            = "/**".toList
              ++ (first ++ (segments.map ("@param".toList ++ ·)).flatten ++ "*/".toList) := by
  have blanks := fresh.indent
  have decoration : Hollow (Margin.ofStyle .default definition.indent).decoration :=
    Margin.hollow_decoration blanks
  have lead : Hollow (Margin.ofStyle .default definition.indent).lead := Margin.hollow_lead blanks
  have close : Hollow (definition.indent ++ [' ']) :=
    Hollow.of_blanks (List.forall_mem_append.mpr ⟨blanks, by decide⟩)
  have opening : openingText .default (.ofStyle .default definition.indent) definition
      = (Margin.ofStyle .default definition.indent).continuation (definitionLine definition.name)
        ++ '\n' :: ((Margin.ofStyle .default definition.indent).decoration
          ++ '\n' :: (Margin.ofStyle .default definition.indent).lead) := by
    simp [openingText, Style.default, fresh.isMacro, Margin.continuation, Margin.lead,
      definitionLine]
  have described := expansion_descriptionPieces_nil
    fresh.descriptionLines_eq_nil (.ofStyle .default definition.indent)
  have whole : expansion (snippet .default definition.indent [] definition)
      = "/**".toList
        ++ ((Margin.ofStyle .default definition.indent).continuation
            (definitionLine definition.name)
          ++ '\n' :: ((Margin.ofStyle .default definition.indent).decoration
            ++ '\n' :: ((Margin.ofStyle .default definition.indent).lead
              ++ '\n' :: (tagText .default (.ofStyle .default definition.indent) definition
                ++ (definition.indent ++ [' ']))))
          ++ "*/".toList) := by
    rw [expansion_snippet, opening, described]
    simp
  by_cases none : definition.parameters = []
  · have gap := decoration.append_feed (lead.append_feed close)
    refine ⟨_, [], untagged_definition blanks fresh.name.2 gap,
      descriptionOf_definition blanks fresh.name gap, by rw [none]; exact .nil, ?_⟩
    rw [whole]
    simp [tagText, none, fresh.returns]
  · obtain ⟨segments, each, lines⟩ :=
      @exists_segments (.ofStyle .default definition.indent) (definition.indent ++ [' '])
        (nameWidth .default definition.parameters) _ fresh.arguments none
    have gap := decoration.append_feed (lead.append_feed (decoration.append_feed lead))
    refine ⟨_, segments, untagged_definition blanks fresh.name.2 gap,
      descriptionOf_definition blanks fresh.name gap, ?_, ?_⟩
    · refine each.imp fun parameter segment found => ?_
      obtain ⟨gap, either, shape⟩ := found
      refine ⟨gap, ?_, shape⟩
      rcases either with rfl | rfl
      · exact lead
      · exact close
    · have block : tagText .default (.ofStyle .default definition.indent) definition
            ++ (definition.indent ++ [' '])
          = (Margin.ofStyle .default definition.indent).decoration
            ++ '\n' :: ((Margin.ofStyle .default definition.indent).lead
              ++ (segments.map ("@param".toList ++ ·)).flatten) := by
        rw [← lines]
        simp [tagText, none, fresh.returns, Margin.tagBlock]
      rw [whole, block]
      simp

--------------------------------------------------------------------------------
-- What the comment says of the arguments
--------------------------------------------------------------------------------

/-- Nothing is read behind the word of a name: the name starts with no word, or only white space and
stars stand behind it. -/
def Bare (name : Text) : Prop :=
  name.takeWhile isWord = [] ∨ ∀ c ∈ name.dropWhile isWord, Text.isSpaceOrStar c = true

instance (name : Text) : Decidable (Bare name) :=
  inferInstanceAs (Decidable (_ ∨ _))

/-- A documented parameter is what the comment says of the argument at a place. -/
structure Shows (parameter : Parameter) (place : Nat) (donor : Parameter) : Prop where
  name : donor.name = parameter.name.takeWhile isWord
  named : donor.name ≠ []
  index : donor.index = some (place : Int)
  direction : donor.direction = some "in".toList
  type : donor.type = none
  bare : donor.description = [] ↔ Bare parameter.name
  trimmed : Text.trim donor.description = donor.description

/-- The documentation says something of exactly the arguments whose names start with a word. -/
structure Documents (documented parameters : List Parameter) : Prop where
  sound : ∀ donor ∈ documented,
    ∃ place parameter, parameters[place]? = some parameter ∧ Shows parameter place donor
  complete : ∀ place parameter, parameters[place]? = some parameter
    → parameter.name.takeWhile isWord ≠ []
    → ∃ donor ∈ documented, Shows parameter place donor

/-- An argument is documented under the word its name starts with, and what stands behind the word
is its description. -/
theorem parameterOf?_argument {parameter : Parameter} (fresh : FreshArgument parameter)
    {width : Nat} {gap : Text} (hollow : Hollow gap) (index : Nat)
    : (parameter.name.takeWhile isWord = []
        ∧ Documentation.parameterOf? true (argumentSegment width parameter gap) index = none)
      ∨ ∃ donor,
          Documentation.parameterOf? true (argumentSegment width parameter gap) index = some donor
            ∧ Shows parameter index donor := by
  have direction : Documentation.direction? (argumentSegment width parameter gap)
      = some ("in".toList,
        ' ' :: (parameter.name
          ++ ' ' :: (List.replicate (width - parameter.name.length) ' ' ++ '\n' :: gap))) := by
    simp [argumentSegment, Documentation.direction?]
  have spaces (rest : Text) : (' ' :: (parameter.name ++ rest)).dropWhile isSpace
      = parameter.name ++ rest := by
    refine @Text.dropWhile_run isSpace [' '] _ (by decide) fun c start => fresh.first c ?_
    obtain ⟨d, name, shape⟩ := List.exists_cons_of_ne_nil fresh.nonempty
    rw [shape] at start ⊢
    exact start
  have outside : ∀ c ∈ ' ' :: (List.replicate (width - parameter.name.length) ' ' ++ '\n' :: gap),
      Text.isSpaceOrStar c = true := by
    intro c member
    rw [List.mem_cons, List.mem_append, List.mem_cons] at member
    rcases member with rfl | pad | rfl | inside
    · decide
    · rw [List.eq_of_mem_replicate pad]
      decide
    · decide
    · rcases hollow.inner c inside with blank | rfl | rfl
      · simp [Text.isSpaceOrStar, Text.isSpace_of_isBlank blank]
      · decide
      · decide
  generalize List.replicate (width - parameter.name.length) ' ' ++ '\n' :: gap = tail
    at direction outside
  have word := @Text.wordRun?_append_stop ' ' (by decide +kernel) parameter.name tail
  by_cases unnamed : parameter.name.takeWhile isWord = []
  · refine .inl ⟨unnamed, ?_⟩
    have none : Text.wordRun? parameter.name = none := by
      simp [Text.wordRun?, unnamed]
    simp [Documentation.parameterOf?, direction, spaces, word, none]
  · have found : Text.wordRun? parameter.name
        = some (parameter.name.takeWhile isWord, parameter.name.dropWhile isWord) := by
      unfold Text.wordRun?
      split
      · next empty => exact absurd empty unnamed
      · rfl
    refine .inr ⟨{
      name := parameter.name.takeWhile isWord
      direction := some "in".toList
      index := some (index : Int)
      description := tagBody (parameter.name.dropWhile isWord ++ ' ' :: tail)
    }, ?_, rfl, unnamed, rfl, rfl, rfl, ?_, Text.trimBy_trimBy _⟩
    · simp [Documentation.parameterOf?, direction, spaces, word, found]
    · rw [Documentation.tagBody_eq_nil_iff, List.forall_mem_append, Bare]
      exact ⟨fun all => .inr all.1, fun bare => ⟨bare.resolve_left unnamed, outside⟩⟩

/-- Related lists agree place by place, by induction on the relation. -/
theorem getElem?_of_forall₂ {α β : Type} {related : α → β → Prop} {left : List α} {right : List β}
    (each : List.Forall₂ related left right) (place : Nat)
    : (left[place]? = none ∧ right[place]? = none)
      ∨ ∃ a b, left[place]? = some a ∧ right[place]? = some b ∧ related a b := by
  induction each generalizing place with
  | nil => exact .inl ⟨rfl, rfl⟩
  | @cons a b left right here later ih =>
      cases place with
      | zero => exact .inr ⟨a, b, rfl, rfl, here⟩
      | succ place => simpa using ih place

/-- Segments of arguments document these arguments. -/
theorem documents_segments {parameters : List Parameter} {segments : List Text} {width : Nat}
    (fresh : ∀ parameter ∈ parameters, FreshArgument parameter)
    (each : List.Forall₂
      (fun parameter segment =>
        ∃ gap, Hollow gap ∧ segment = argumentSegment width parameter gap)
      parameters segments)
    : Documents
        (segments.zipIdx.filterMap fun (segment, index) =>
          Documentation.parameterOf? true segment index)
        parameters := by
  constructor
  · intro donor member
    obtain ⟨⟨segment, place⟩, among, read⟩ := List.mem_filterMap.mp member
    have stands := List.mem_zipIdx_iff_getElem?.mp among
    rcases getElem?_of_forall₂ each place
      with ⟨-, none⟩ | ⟨parameter, _, own, same, gap, hollow, rfl⟩
    · rw [none] at stands
      contradiction
    · obtain rfl := Option.some.inj (same.symm.trans stands)
      have argument := fresh parameter (List.mem_of_getElem? own)
      rcases @parameterOf?_argument _ argument width _ hollow place
        with ⟨-, unread⟩ | ⟨other, found, shows⟩
      · exact absurd (unread.symm.trans read) (by simp)
      · obtain rfl := Option.some.inj (found.symm.trans read)
        exact ⟨place, parameter, own, shows⟩
  · intro place parameter own named
    rcases getElem?_of_forall₂ each place
      with ⟨none, -⟩ | ⟨_, segment, same, stands, gap, hollow, rfl⟩
    · rw [none] at own
      contradiction
    · obtain rfl := Option.some.inj (same.symm.trans own)
      have argument := fresh _ (List.mem_of_getElem? own)
      rcases @parameterOf?_argument _ argument width _ hollow place
        with ⟨unnamed, -⟩ | ⟨donor, found, shows⟩
      · exact absurd unnamed named
      · refine ⟨donor, List.mem_filterMap.mpr ⟨(_, place), ?_, found⟩, shows⟩
        exact List.mem_zipIdx_iff_getElem?.mpr stands

/-- A parameter tag is a parameter segment, and neither an aside nor a return tag. -/
theorem parts_parameter (segment : Text)
    : Documentation.isAside ("@param".toList ++ segment) = false
      ∧ Documentation.parameterPart? ("@param".toList ++ segment) = some segment
      ∧ Documentation.returnPart? ("@param".toList ++ segment) = none := by
  refine ⟨?_, Text.after?_append _ _, ?_⟩
  · rw [Documentation.isAside, Documentation.startsWithTag_append (by decide)]
    rfl
  · have unread : Documentation.returnSegment? ("@param".toList ++ segment) = none :=
      @Documentation.returnSegment?_of_ne 'p' (by decide) ("aram".toList ++ segment)
    rw [← Option.not_isSome_iff_eq_none, Documentation.isSome_returnPart?, unread]
    simp

/-- What is read from the comment of a macro: the line that names it, and its arguments. -/
theorem reread_macro {definition : Declaration} (fresh : FreshMacro definition)
    (untagged : ∀ parameter ∈ definition.parameters, Untagged segmentTags parameter.name)
    : (reread .default true definition.indent definition).description
        = definitionLine definition.name
      ∧ (reread .default true definition.indent definition).returns = false
      ∧ Documents (reread .default true definition.indent definition).parameters
          definition.parameters := by
  obtain ⟨first, segments, before, description, each, whole⟩ := exists_comment fresh
  have shape {segment : Text} (member : segment ∈ segments)
      : ∃ parameter ∈ definition.parameters, ∃ gap, Hollow gap
          ∧ segment = argumentSegment (nameWidth .default definition.parameters) parameter gap := by
    obtain ⟨place, stands⟩ := List.mem_iff_getElem?.mp member
    rcases getElem?_of_forall₂ each place with ⟨-, none⟩ | ⟨parameter, _, own, same, found⟩
    · rw [none] at stands
      contradiction
    · obtain rfl := Option.some.inj (same.symm.trans stands)
      exact ⟨parameter, List.mem_of_getElem? own, found⟩
  have tagged : ∀ part ∈ segments.map ("@param".toList ++ ·), TagPart part := by
    intro part member
    obtain ⟨segment, among, rfl⟩ := List.mem_map.mp member
    obtain ⟨parameter, original, gap, hollow, rfl⟩ := shape among
    exact tagPart_argument (untagged parameter original) (hollow.not_mem (by decide))
  have named : ∀ part ∈ segments.map ("@param".toList ++ ·), part ≠ "@param".toList := by
    intro part member
    obtain ⟨segment, among, rfl⟩ := List.mem_map.mp member
    obtain ⟨parameter, -, gap, -, rfl⟩ := shape among
    simp [argumentSegment]
  have asides : (segments.map ("@param".toList ++ ·)).takeWhile Documentation.isAside = [] := by
    cases segments with
    | nil => rfl
    | cons segment segments =>
        rw [List.map_cons, List.takeWhile_cons, (parts_parameter segment).1]
        rfl
  have parameters : (segments.map ("@param".toList ++ ·)).filterMap Documentation.parameterPart?
      = segments := by
    rw [List.filterMap_map]
    have each : Documentation.parameterPart? ∘ ("@param".toList ++ ·) = some :=
      funext fun segment => (parts_parameter segment).2.1
    rw [each, List.filterMap_some]
  have returns : (segments.map ("@param".toList ++ ·)).filterMap Documentation.returnPart?
      = [] := by
    rw [List.filterMap_eq_nil_iff]
    intro part member
    obtain ⟨segment, -, rfl⟩ := List.mem_map.mp member
    exact (parts_parameter segment).2.2
  rw [reread, expand_snippet, whole, Documentation.read_parts before tagged named, asides,
    parameters, returns]
  exact ⟨by simpa using description, rfl, documents_segments fresh.arguments each⟩

--------------------------------------------------------------------------------
-- Merging
--------------------------------------------------------------------------------

/-- Some argument takes over what is read behind the word of the argument at a place: the one that
has the word as its name, or the one with that index whose own name is documented nowhere. -/
def Adopted (parameters : List Parameter) (place : Nat) (parameter : Parameter) : Prop :=
  ∃ target ∈ parameters,
    target.name = parameter.name.takeWhile isWord
      ∨ (target.index = some (place : Int)
        ∧ ∀ other ∈ parameters, other.name.takeWhile isWord ≠ target.name)

section Merging

variable {documented parameters : List Parameter}

/-- No argument takes over a description exactly if everything that could be taken over is empty. -/
theorem donors_empty_iff (documents : Documents documented parameters)
    (fresh : ∀ parameter ∈ parameters, FreshArgument parameter)
    : (∀ place parameter, parameters[place]? = some parameter
        → ∀ donor ∈ donorsAt documented (pairings parameters documented) place,
          donor.description = [])
      ↔ ∀ place parameter, parameters[place]? = some parameter
        → Adopted parameters place parameter
        → Bare parameter.name := by
  constructor
  · intro empty place parameter own adopted
    by_cases unnamed : parameter.name.takeWhile isWord = []
    · exact .inl unnamed
    obtain ⟨donor, present, shows⟩ := documents.complete place parameter own unnamed
    have byName (known : ∃ target ∈ parameters, target.name = donor.name)
        : Bare parameter.name := by
      obtain ⟨i, target, stands, -, among⟩ := Declaration.exists_place_of_name present known
      exact shows.bare.mp (empty i target stands donor among)
    obtain ⟨target, member, named | ⟨index, undocumented⟩⟩ := adopted
    · exact byName ⟨target, member, named.trans shows.name.symm⟩
    · by_cases known : ∃ other ∈ parameters, other.name = donor.name
      · exact byName known
      · obtain ⟨i, stands⟩ := List.mem_iff_getElem?.mp member
        obtain ⟨first, among, listed, same⟩ := Declaration.exists_donor_of_index stands
          (fun other listed named => by
            obtain ⟨j, source, original, shown⟩ := documents.sound other listed
            exact undocumented source (List.mem_of_getElem? original)
              (shown.name.symm.trans named))
          present (fun other listed named => known ⟨other, listed, named⟩)
          (shows.index.trans index.symm)
        -- The first donor with that index shows the argument at the same place.
        obtain ⟨j, source, original, shown⟩ := documents.sound first listed
        obtain rfl : j = place := by
          have indices := (shown.index.symm.trans same).trans index
          exact Int.ofNat.inj (Option.some.inj indices)
        obtain rfl : source = parameter := Option.some.inj (original.symm.trans own)
        exact shown.bare.mp (empty i target stands first among)
  · intro bare i target stands donor among
    obtain ⟨place, parameter, own, shows⟩ :=
      documents.sound donor (Declaration.mem_of_mem_donorsAt among)
    have member := List.mem_of_getElem? stands
    refine shows.bare.mpr (bare place parameter own ⟨target, member, ?_⟩)
    rcases Declaration.donor_cases stands among with named | ⟨undocumented, -, index⟩
    · exact .inl (named.symm.trans shows.name)
    · refine .inr ⟨index.symm.trans shows.index, fun other listed named => ?_⟩
      obtain ⟨j, original⟩ := List.mem_iff_getElem?.mp listed
      obtain ⟨second, shown, repeats⟩ := documents.complete j other original
        (by rw [named]; exact (fresh target member).nonempty)
      exact undocumented second shown (repeats.name.trans named)

/-- The lines of parameters are as long as those without descriptions and the descriptions together,
by induction on the parameters. -/
theorem length_tagLines (margin : Margin) (width : Nat) (parameters : List Parameter)
    : ((parameters.map (parameterTag width)).flatMap margin.tagLine).length
      = (((parameters.map fun parameter => { parameter with description := [] }).map
            (parameterTag width)).flatMap margin.tagLine).length
        + (parameters.flatMap fun parameter => Text.trim parameter.description).length := by
  induction parameters with
  | nil => rfl
  | cons parameter parameters ih =>
      have none : Text.trim [] = [] := rfl
      have line : (margin.tagLine (parameterTag width parameter)).length
          = (margin.tagLine
              (parameterTag width { parameter with description := [] })).length
            + (Text.trim parameter.description).length := by
        simp only [Margin.tagLine, parameterTag, directionText, none, List.length_append,
          List.length_cons, List.length_nil]
        omega
      simp only [List.map_cons, List.flatMap_cons, List.length_append, ih, line]
      omega

/-- Merging a macro with its own comment changes nothing but the descriptions of its arguments. -/
theorem undescribed_merged (documents : Documents documented parameters)
    (fresh : ∀ parameter ∈ parameters, FreshArgument parameter)
    : ((Declaration.fillAll true documented (pairings parameters documented) parameters).map
          fun parameter => { parameter with description := [] })
      = parameters := by
  apply List.ext_getElem?
  intro place
  rw [List.getElem?_map, Declaration.getElem?_fillAll]
  cases own : parameters[place]? with
  | none => rfl
  | some parameter =>
      have argument := fresh parameter (List.mem_of_getElem? own)
      have same : ∀ donor ∈ donorsAt documented (pairings parameters documented) place,
          donor.direction = parameter.direction ∧ donor.type = none := by
        intro donor among
        obtain ⟨_, _, -, shows⟩ := documents.sound donor (Declaration.mem_of_mem_donorsAt among)
        exact ⟨shows.direction.trans argument.direction.symm, shows.type⟩
      rw [Option.map_some, Option.map_some, Declaration.undescribed_fillFrom same,
        ← argument.description]

/-- The lines of the merged arguments are the same exactly if no donor has a description. Witness: a
description that is taken over makes its line longer.
-/
theorem tagLines_merged_iff (documents : Documents documented parameters)
    (fresh : ∀ parameter ∈ parameters, FreshArgument parameter) (margin : Margin) (width : Nat)
    : ((Declaration.fillAll true documented (pairings parameters documented) parameters).map
            (parameterTag width)).flatMap margin.tagLine
          = (parameters.map (parameterTag width)).flatMap margin.tagLine
      ↔ ∀ place parameter, parameters[place]? = some parameter
        → ∀ donor ∈ donorsAt documented (pairings parameters documented) place,
          donor.description = [] := by
  constructor
  · intro same place parameter own donor among
    have lengths := congrArg List.length same
    rw [length_tagLines, undescribed_merged documents fresh, Nat.add_eq_left,
      List.length_eq_zero_iff, List.flatMap_eq_nil_iff] at lengths
    have stands := @Declaration.getElem?_fillAll true documented
      (pairings parameters documented) parameters place
    rw [own, Option.map_some] at stands
    have member := List.mem_of_getElem? stands
    have short := lengths _ member
    have trimmed : Text.trim (fillFrom true
          (donorsAt documented (pairings parameters documented) place) parameter).description
        = (fillFrom true
          (donorsAt documented (pairings parameters documented) place) parameter).description := by
      obtain ⟨declared, original, filled⟩ := Declaration.mem_fillAll member
      rcases filled.description with same | ⟨other, present, same⟩
      · rw [same, (fresh declared original).description]
        rfl
      · obtain ⟨_, _, -, shows⟩ := documents.sound other present
        rw [same, shows.trimmed]
    rw [trimmed, Declaration.description_fillFrom_eq_nil_iff] at short
    exact short.2 donor among
  · intro empty
    have kept : Declaration.fillAll true documented (pairings parameters documented) parameters
        = parameters := by
      apply Declaration.fillAll_eq_self
      intro place parameter own donor among
      have argument := fresh parameter (List.mem_of_getElem? own)
      obtain ⟨_, _, -, shows⟩ := documents.sound donor (Declaration.mem_of_mem_donorsAt among)
      exact Declaration.fill_eq_self (empty place parameter own donor among)
        (shows.direction.trans argument.direction.symm) shows.type
    rw [kept]

end Merging

/-- The line that names a macro is stale in a description. -/
theorem descriptionLines_definition {name : Text}
    (word : name ≠ [] ∧ ∀ c ∈ name, isWord c = true)
    : descriptionLines (definitionLine name) = [] := by
  have unspaced : ∀ c ∈ name, (!isSpace c) = true := by
    intro c member
    simp [Text.isSpace_of_isWord (word.2 c member)]
  have start : (definitionLine name).dropWhile isSpace = definitionLine name :=
    @Text.dropWhile_run isSpace [] _ (by simp) (by rintro c ⟨⟩; decide)
  have found : Text.after? "@def".toList (definitionLine name) = some (' ' :: name) :=
    Text.after?_eq_some_iff.mpr rfl
  have spaces : (' ' :: name).dropWhile isSpace = name := by
    refine @Text.dropWhile_run isSpace [' '] name (by decide) fun c first => ?_
    simpa using unspaced c (List.mem_of_head? first)
  have none : name.dropWhile (!isSpace ·) = [] := List.dropWhile_eq_nil_iff.mpr unspaced
  have stale : afterDefTag? (definitionLine name) = some [] := by
    rw [afterDefTag?, start, found]
    simp only [Option.bind_eq_bind, Option.bind_some, spaces, none]
    simp [word.1]
  rw [descriptionLines, stale]
  rfl

--------------------------------------------------------------------------------
-- Regenerating
--------------------------------------------------------------------------------

/-- A macro is written in the same way with what its own comment says exactly if no argument takes
over a description: nothing but the lines of the arguments can differ. -/
theorem expansion_merged_iff {definition documentation : Declaration}
    (fresh : FreshMacro definition)
    (description : documentation.description = definitionLine definition.name)
    (returns : documentation.returns = false)
    (documents : Documents documentation.parameters definition.parameters)
    : expansion
            (snippet .default definition.indent []
              (Declaration.merge true definition documentation))
          = expansion (snippet .default definition.indent [] definition)
      ↔ ∀ place parameter, definition.parameters[place]? = some parameter
        → Adopted definition.parameters place parameter
        → Bare parameter.name := by
  rw [← donors_empty_iff documents fresh.arguments,
    ← tagLines_merged_iff documents fresh.arguments (.ofStyle .default definition.indent)
      (nameWidth .default definition.parameters)]
  have unchanged := undescribed_merged documents fresh.arguments
  generalize shape : Declaration.merge true definition documentation = merged
  have parameters : Declaration.fillAll true documentation.parameters
      (pairings definition.parameters documentation.parameters) definition.parameters
        = merged.parameters := by
    rw [← shape]
    rfl
  rw [parameters] at unchanged ⊢
  have opening : openingText .default (.ofStyle .default definition.indent) merged
      = openingText .default (.ofStyle .default definition.indent) definition := by
    rw [← shape]
    rfl
  have described : expansion (descriptionPieces (.ofStyle .default definition.indent) merged)
      = [] := by
    have text : merged.description = definitionLine definition.name := by
      simp [← shape, Declaration.merge, fresh.description, Declaration.orElse, description]
    apply expansion_descriptionPieces_nil
    rw [text, descriptionLines_definition fresh.name]
  have undescribed := expansion_descriptionPieces_nil
    fresh.descriptionLines_eq_nil (.ofStyle .default definition.indent)
  have width : nameWidth .default merged.parameters
      = nameWidth .default definition.parameters := by
    conv_rhs => rw [← unchanged]
    simp [nameWidth, List.foldl_map]
  have empty : merged.parameters.isEmpty = definition.parameters.isEmpty := by
    conv_rhs => rw [← unchanged, List.isEmpty_map]
  have silent : merged.returns = false := by
    simp [← shape, Declaration.merge, fresh.returns, returns]
  rw [expansion_snippet, expansion_snippet, opening, described, undescribed]
  simp only [tagText, width, empty, silent, fresh.returns]
  by_cases none : definition.parameters = []
  · have both : merged.parameters = [] := by
      rw [none, List.isEmpty_nil, List.isEmpty_iff] at empty
      exact empty
    simp [none, both]
  · simp [none, Margin.tagBlock]

/-- The comment of a macro in whose arguments no tag starts stays as it is, when it is read, merged
with the macro and written again, exactly if nothing stands behind the word of an argument that some
argument takes over as its description.
-/
theorem macro_regenerates_iff {text : Text} {definition : Declaration}
    (found : Signature.lastMacro? true text = some definition)
    (untagged : ∀ parameter ∈ definition.parameters, Untagged segmentTags parameter.name)
    : Snippet.expand
            (snippet .default definition.indent []
              (Declaration.merge true definition
                (reread .default true definition.indent definition))).render
          = Snippet.expand (snippet .default definition.indent [] definition).render
      ↔ ∀ place parameter, definition.parameters[place]? = some parameter
        → Adopted definition.parameters place parameter
        → Bare parameter.name := by
  have fresh := freshMacro_of_lastMacro found
  obtain ⟨description, returns, documents⟩ := reread_macro fresh untagged
  rw [expand_snippet, expand_snippet]
  exact expansion_merged_iff fresh description returns documents

theorem macro_regenerates_max
    : ∃ definition,
        Signature.lastMacro? true "#define MAX(a, b) ((a) > (b) ? (a) : (b))".toList
            = some definition
          ∧ definition.parameters.map (·.name) = ["a".toList, "b".toList]
          ∧ Snippet.expand
              (snippet .default definition.indent []
                (Declaration.merge true definition
                  (reread .default true definition.indent definition))).render
            = Snippet.expand (snippet .default definition.indent [] definition).render := by
  have found : (Signature.lastMacro? true
      "#define MAX(a, b) ((a) > (b) ? (a) : (b))".toList).isSome = true := by decide +kernel
  obtain ⟨definition, found⟩ := Option.isSome_iff_exists.mp found
  have names : definition.parameters.map (·.name) = ["a".toList, "b".toList] := by
    have checked : (Signature.lastMacro? true
        "#define MAX(a, b) ((a) > (b) ? (a) : (b))".toList).map
          (fun definition => definition.parameters.map (·.name))
        = some ["a".toList, "b".toList] := by decide +kernel
    rw [found, Option.map_some] at checked
    exact Option.some.inj checked
  have either : ∀ parameter ∈ definition.parameters,
      parameter.name = "a".toList ∨ parameter.name = "b".toList := by
    intro parameter member
    simpa [names] using List.mem_map_of_mem (f := (·.name)) member
  refine ⟨definition, found, names, (macro_regenerates_iff found ?_).mpr ?_⟩
  · intro parameter member
    refine .of_no_at (by decide) ?_
    rcases either parameter member with named | named <;> rw [named] <;> decide
  · intro place parameter own _
    rcases either parameter (List.mem_of_getElem? own) with named | named <;> rw [named] <;>
      decide +kernel

/-- What stands behind the word of an argument is taken over as its description, and again each time
the comment is written. -/
theorem macro_text_taken_over
    : (Signature.lastMacro? true "#define LOG(args...) x".toList).map
          (fun definition =>
            let written := Snippet.expand (snippet .default definition.indent [] definition).render
            let merged := Declaration.merge true definition (Documentation.read true written)
            let rewritten := Snippet.expand (snippet .default definition.indent [] merged).render
            let again := Declaration.merge true definition (Documentation.read true rewritten)
            (merged.parameters.map (·.description), again.parameters.map (·.description),
              decide (rewritten = written)))
      = some (["...".toList], ["... ...".toList], false) := by
  decide +kernel

end DocBlock.Block
