import DocBlock.Proofs.Declaration.Merging
import DocBlock.Proofs.Document.Target
import DocBlock.Proofs.Signature.Names
import DocBlock.Proofs.Text.Words

/-! The invariants of the declaration model. Whatever is read from source or from a comment, merged
in any nesting or returned with a generated comment has named parameters whose indices count up,
and return descriptions only where it returns. What a comment says about return values is always
a keyword with at most one line of text.
-/

namespace DocBlock.Documentation

open Text (isSpace isSpaceOrStar)

--------------------------------------------------------------------------------
-- Tags
--------------------------------------------------------------------------------

theorem parameterOf?_sound {keepDirection : Bool} {segment : Text} {index : Nat}
    {parameter : Parameter}
    (found : parameterOf? keepDirection segment index = some parameter)
    : parameter.index = some (index : Int) ∧ parameter.name ≠ [] := by
  rw [parameterOf?_eq] at found
  obtain ⟨⟨name, body⟩, word, rfl⟩ := Option.map_eq_some_iff.mp found
  exact ⟨rfl, (Text.wordRun?_sound word).2.2⟩

/-- One line of text that starts with no white space and ends with neither white space nor a
star. -/
structure IsTagBody (body : Text) : Prop where
  nonempty : body ≠ []
  unbroken : '\n' ∉ body ∧ '\r' ∉ body
  first : ∀ c, body.head? = some c → isSpace c = false
  last : ∀ c, body.getLast? = some c → isSpace c = false ∧ c ≠ '*'

/-- A return description is a keyword, alone or with a body behind one space. -/
def IsReturnText (text : Text) : Prop :=
  ∃ keyword ∈ ["return", "returns", "retval"].map String.toList,
    text = keyword ∨ ∃ body, text = keyword ++ ' ' :: body ∧ IsTagBody body

/-- A tidied text ends in neither white space nor a star: once these are dropped, trimming white
space takes nothing more from the end. -/
theorem getLast?_tidied {text : Text} {c : Char}
    (last : (tidied text).getLast? = some c)
    : isSpaceOrStar c = false := by
  rw [tidied, Text.trim, Text.trimBy] at last
  cases ends : ((Text.dropEndWhile isSpaceOrStar text).dropWhile isSpace).getLast? with
  | none =>
      rw [List.getLast?_eq_none_iff.mp ends] at last
      cases last
  | some d =>
      have outside : isSpaceOrStar d = false :=
        Text.getLast?_dropEndWhile
          (Text.getLast?_of_isSuffix (List.dropWhile_suffix isSpace) ends)
      rw [Text.dropEndWhile_of_last ends (Text.isSpace_of_isSpaceOrStar outside), ends] at last
      obtain rfl := Option.some.inj last
      exact outside

theorem unbroken_tagBody (text : Text)
    : '\n' ∉ tagBody text ∧ '\r' ∉ tagBody text := by
  have inner : ∀ c ∈ tagBody text, c ≠ '\r' ∧ c ≠ '\n' := by
    intro c member
    rcases Text.mem_join ((tidied_isInfix _).subset member) with
      space | ⟨part, among, inside⟩
    · rw [List.mem_singleton.mp space]
      decide
    · obtain ⟨line, original, rfl⟩ := List.mem_map.mp (List.mem_of_mem_filter among)
      obtain ⟨source, shown, rfl⟩ := List.mem_map.mp original
      have part := (Text.trimBy_isInfix isSpace _).trans
        ((Text.dropEndWhile_isPrefix isSpace (undecorated source)).isInfix.trans
          (undecorated_isSuffix source).isInfix)
      exact Text.inner_of_mem_sourceLines shown c (part.subset inside)
  exact ⟨fun feed => (inner _ feed).2 rfl, fun feed => (inner _ feed).1 rfl⟩

theorem isTagBody_tagBody {text : Text} (nonempty : tagBody text ≠ [])
    : IsTagBody (tagBody text) where
  nonempty := nonempty
  unbroken := unbroken_tagBody text
  first := fun _ first => Text.ends_trimBy (.inl first)
  last := by
    intro c last
    simpa [isSpaceOrStar] using getLast?_tidied last

theorem isReturnText_of_returnSegment {text later description : Text}
    (found : returnSegment? text = some (description, later))
    : IsReturnText description := by
  simp only [returnSegment?, Option.bind_eq_bind, Option.bind_eq_some_iff,
    Prod.exists, Option.ite_none_right_eq_some, Option.some.injEq, Prod.mk.injEq] at found
  obtain ⟨behind, -, keyword, rest, -, known, shape, -⟩ := found
  have listed : ∀ keyword ∈ returnKeywords,
      keyword ∈ ["return", "returns", "retval"].map String.toList := by decide
  refine ⟨keyword, listed keyword (by simpa using known), ?_⟩
  rw [← shape]
  split
  · exact .inl rfl
  · next nonempty => exact .inr ⟨_, rfl, isTagBody_tagBody (by simpa using nonempty)⟩

end DocBlock.Documentation

namespace DocBlock.Declaration

--------------------------------------------------------------------------------
-- Coherent declarations
--------------------------------------------------------------------------------

/-- All parameters have an index, and the indices strictly increase. -/
def CountsUp (parameters : List Parameter) : Prop :=
  ∃ indices : List Int,
    parameters.map (·.index) = indices.map some ∧ indices.Pairwise (· < ·)

/-- The invariants of the declaration model. -/
structure Coherent (declaration : Declaration) : Prop where
  indices : CountsUp declaration.parameters
  names : ∀ parameter ∈ declaration.parameters, parameter.name ≠ []
  returns : declaration.returnDescriptions ≠ [] → declaration.returns = true

/-- Parameters read from numbered items under their numbers count up, whichever items are
skipped. -/
theorem countsUp_of_zipIdx {α : Type} {read : α × Nat → Option Parameter}
    (numbered : ∀ item i parameter, read (item, i) = some parameter
      → parameter.index = some (i : Int))
    (items : List α)
    : CountsUp (items.zipIdx.filterMap read) := by
  refine ⟨(items.zipIdx.filterMap read).map (·.index.getD 0), ?_, ?_⟩
  · rw [List.map_map]
    apply List.map_congr_left
    intro parameter member
    obtain ⟨⟨item, i⟩, -, found⟩ := List.mem_filterMap.mp member
    simp [numbered item i parameter found]
  · rw [List.pairwise_map]
    apply pairwise_of_zipIdx
    intro first second i j lower a b one two
    rw [numbered first i a one, numbered second j b two]
    exact Int.ofNat_lt.mpr lower

/-- Merging keeps a declaration coherent, whatever it is merged with: names and indices stay, and
only what returns takes over return descriptions. -/
theorem Coherent.merge {declared : Declaration} (coherent : Coherent declared)
    (adoptDirection : Bool) (documentation : Declaration)
    : Coherent (declared.merge adoptDirection documentation) where
  indices := by
    obtain ⟨indices, same, increasing⟩ := coherent.indices
    have keys := congrArg (List.map Prod.snd) (@map_key_fillAll adoptDirection
      documentation.parameters (pairings declared.parameters documentation.parameters)
      declared.parameters)
    rw [List.map_map, List.map_map] at keys
    exact ⟨indices, keys.trans same, increasing⟩
  names := by
    intro parameter member
    obtain ⟨old, original, filled⟩ := mem_fillAll member
    rw [filled.name]
    exact coherent.names old original
  returns := by
    intro nonempty
    by_cases own : declared.returnDescriptions = []
    · by_contra silent
      have none : (declared.returns || (declared.isMacro && documentation.returns)) = false :=
        eq_false_of_ne_true silent
      apply nonempty
      simp [Declaration.merge, own, none]
    · simp [Declaration.merge, coherent.returns own]

--------------------------------------------------------------------------------
-- What is read from source
--------------------------------------------------------------------------------

theorem coherent_of_prototype (inferDirection : Bool) (prototype : Signature.Prototype)
    : Coherent (prototype.declaration inferDirection) where
  indices := by
    unfold Signature.Prototype.declaration Signature.readParameters
    split
    · exact ⟨[], rfl, .nil⟩
    · apply countsUp_of_zipIdx
      intro segment i parameter found
      obtain ⟨declarator, -, rfl⟩ := Option.map_eq_some_iff.mp found
      rfl
  names := by
    intro parameter member
    obtain ⟨name, type, index, rfl, nonempty, -⟩ := Signature.Prototype.exists_declared member
    exact nonempty
  returns := fun nonempty => absurd rfl nonempty

theorem coherent_of_macro (inferDirection : Bool) (head : Signature.MacroHead)
    : Coherent (head.declaration inferDirection) where
  indices := by
    apply countsUp_of_zipIdx
    intro name i parameter found
    obtain ⟨-, same⟩ := Option.ite_none_left_eq_some.mp found
    rw [← Option.some.inj same]
    rfl
  names := by
    intro parameter member
    obtain ⟨name, index, rfl, nonempty, -⟩ := Signature.MacroHead.exists_declared member
    exact nonempty
  returns := fun nonempty => absurd rfl nonempty

--------------------------------------------------------------------------------
-- What is read from a comment
--------------------------------------------------------------------------------

theorem coherent_read (keepDirection : Bool) (text : Text)
    : Coherent (Documentation.read keepDirection text) where
  indices := by
    apply countsUp_of_zipIdx
    intro segment i parameter found
    exact (Documentation.parameterOf?_sound found).1
  names := by
    intro parameter member
    obtain ⟨⟨segment, i⟩, -, found⟩ := List.mem_filterMap.mp member
    exact (Documentation.parameterOf?_sound found).2
  returns := by
    intro nonempty
    simpa [Documentation.read] using nonempty

--------------------------------------------------------------------------------
-- What the program produces
--------------------------------------------------------------------------------

/-- A declaration that the program produces: read from source, read from a comment, returned with a
generated comment, or merged from two such declarations. -/
inductive Produced : Declaration → Prop where
  | function {inferDirection : Bool} {text : Text} {declaration : Declaration}
      (found : Signature.lastFunction? inferDirection text = some declaration)
      : Produced declaration
  | pointer {inferDirection : Bool} {text : Text} {declaration : Declaration}
      (found : Signature.functionPointerType? inferDirection text = some declaration)
      : Produced declaration
  | definition {inferDirection : Bool} {text : Text} {declaration : Declaration}
      (found : Signature.lastMacro? inferDirection text = some declaration)
      : Produced declaration
  | comment (keepDirection : Bool) (text : Text)
      : Produced (Documentation.read keepDirection text)
  | generation {style : Style} {document : Text} {line : Int} {declaration : Declaration}
      (found : (Document.generate style document line).declaration = some declaration)
      : Produced declaration
  | merged (adoptDirection : Bool) {declared documentation : Declaration}
      (own : Produced declared) (others : Produced documentation)
      : Produced (declared.merge adoptDirection documentation)

theorem coherent_of_lastFunction {inferDirection : Bool} {text : Text} {declaration : Declaration}
    (found : Signature.lastFunction? inferDirection text = some declaration)
    : Coherent declaration := by
  obtain ⟨prototype, -, rfl⟩ := Option.map_eq_some_iff.mp found
  exact coherent_of_prototype inferDirection prototype

theorem coherent_of_functionPointerType {inferDirection : Bool} {text : Text}
    {declaration : Declaration}
    (found : Signature.functionPointerType? inferDirection text = some declaration)
    : Coherent declaration := by
  obtain ⟨⟨-, prototype⟩, -, rfl⟩ := Option.map_eq_some_iff.mp found
  exact coherent_of_prototype inferDirection prototype

theorem coherent_of_lastMacro {inferDirection : Bool} {text : Text} {declaration : Declaration}
    (found : Signature.lastMacro? inferDirection text = some declaration)
    : Coherent declaration := by
  obtain ⟨head, -, rfl⟩ := Option.map_eq_some_iff.mp found
  exact coherent_of_macro inferDirection head

theorem coherent_of_target {window : Document.Window} {inferDirection : Bool}
    {declaration : Declaration}
    (found : (window.target inferDirection).declaration = some declaration)
    : Coherent declaration := by
  rcases Document.Window.declaration_source found with definition | ⟨head, function | pointer⟩
  · exact coherent_of_lastMacro definition
  · exact coherent_of_lastFunction function
  · exact coherent_of_functionPointerType pointer

theorem coherent_of_generate {style : Style} {document : Text} {line : Int}
    {declaration : Declaration}
    (found : (Document.generate style document line).declaration = some declaration)
    : Coherent declaration := by
  obtain ⟨own, target, rfl | ⟨comment, rfl⟩⟩ := Document.exists_target_of_generate found
  · exact coherent_of_target target
  · exact (coherent_of_target target).merge true _

/-- Every produced declaration is coherent, and a comment is read as returning exactly if it has
return descriptions, each a keyword with at most one line of text. Witness: induction on how the
declaration is produced; a merge keeps what its first declaration has.
-/
theorem produced_coherent
    : (∀ declaration, Produced declaration → Coherent declaration)
      ∧ ∀ keepDirection text,
          ((Documentation.read keepDirection text).returns = true
            ↔ (Documentation.read keepDirection text).returnDescriptions ≠ [])
          ∧ ∀ description ∈ (Documentation.read keepDirection text).returnDescriptions,
              Documentation.IsReturnText description := by
  constructor
  · intro declaration produced
    induction produced with
    | function found => exact coherent_of_lastFunction found
    | pointer found => exact coherent_of_functionPointerType found
    | definition found => exact coherent_of_lastMacro found
    | comment keepDirection text => exact coherent_read keepDirection text
    | generation found => exact coherent_of_generate found
    | merged adoptDirection _ _ coherent _ => exact coherent.merge adoptDirection _
  · intro keepDirection text
    constructor
    · simp [Documentation.read]
    · intro description member
      obtain ⟨rest, later, -, found⟩ := Text.mem_findAll member
      exact Documentation.isReturnText_of_returnSegment found

/-- A macro with an empty argument, merged with a comment that says what it returns. -/
theorem produced_coherent_logging
    : ∃ declaration,
        Signature.lastMacro? true "#define LOG(level,,text) x".toList = some declaration
        ∧ declaration.parameters.map (·.index) = [some 0, some 2]
        ∧ (Documentation.read true "/** @retval 0\n * Logged. **/".toList).returnDescriptions
          = ["retval 0 Logged.".toList]
        ∧ Coherent (declaration.merge true
            (Documentation.read true "/** @retval 0\n * Logged. **/".toList)) := by
  refine ⟨_, rfl, by decide, by decide, ?_⟩
  have definition := @Produced.definition true "#define LOG(level,,text) x".toList _ rfl
  exact produced_coherent.1 _ (.merged true definition (.comment true _))

end DocBlock.Declaration
