import DocBlock.Proofs.Declaration.Filling
import DocBlock.Proofs.Text.Classes
import DocBlock.Signature.FunctionPointer
import DocBlock.Signature.MacroDefinition

/-! Names that are read from source. The parameters of functions and function-pointer types and the
names of macros are words, so that none of them holds a part of a comment end; the arguments of a
macro are any text.
-/

namespace DocBlock.Signature

open Comment (Closeless)
open Documentation (TagsCloseless)
open Text (isWord)

/-- A declaration whose texts come from words and from tags without comment ends, but for its
description and the arguments of a macro. -/
structure Enclosed (declaration : Declaration) : Prop where
  tags : TagsCloseless declaration
  parameters : declaration.isMacro = false
    → ∀ parameter ∈ declaration.parameters, Closeless parameter.name
  name : declaration.isMacro = true → Closeless declaration.name

/-- Filling gaps leaves the names as they are. -/
theorem Enclosed.merge {declared documentation : Declaration} (own : Enclosed declared)
    (others : TagsCloseless documentation) (adoptDirection : Bool)
    : Enclosed (Declaration.merge adoptDirection declared documentation) where
  tags := Declaration.tagsCloseless_merge own.tags others
  parameters := by
    intro function parameter member
    obtain ⟨old, original, filled⟩ := Declaration.mem_fillAll member
    rw [filled.name]
    exact own.parameters function old original
  name := own.name

/-- An identifier is a word. -/
theorem word_identifier {text name rest : Text}
    (found : Text.identifier? text = some (name, rest))
    : name ≠ [] ∧ ∀ c ∈ name, isWord c = true := by
  unfold Text.identifier? at found
  split at found
  · contradiction
  · next c later =>
    split at found
    · next start =>
      obtain ⟨rfl, -⟩ := Prod.mk.inj (Option.some.inj found)
      refine ⟨by simp, List.forall_mem_cons.mpr ⟨Text.isWord_of_isIdentifierStart start, ?_⟩⟩
      exact fun d member => List.mem_takeWhile_imp member
    · contradiction

theorem word_afterType {text : Text} {declarator : Declarator}
    (found : Declarator.afterType? text = some declarator)
    : declarator.name ≠ [] ∧ ∀ c ∈ declarator.name, isWord c = true := by
  unfold Declarator.afterType? at found
  cases read : Text.identifier? (text.dropWhile Text.isSpaceOrStar) with
  | none => simp [read] at found
  | some result =>
      obtain ⟨name, arrays⟩ := result
      simp only [read, Option.ite_none_right_eq_some, Option.some.injEq] at found
      rw [← found.2]
      exact word_identifier read

/-- The name in a declarator is a word, by induction on the text. -/
theorem word_declarator {text : Text} {declarator : Declarator}
    (found : Declarator.read? text = some declarator)
    : declarator.name ≠ [] ∧ ∀ c ∈ declarator.name, isWord c = true := by
  induction text generalizing declarator with
  | nil => simp [Declarator.read?] at found
  | cons c rest ih =>
      rw [Declarator.read?, Option.orElse_eq_orElse, Option.orElse_eq_or,
        Option.or_eq_some_iff] at found
      rcases found with here | ⟨-, later⟩
      · obtain ⟨behind, read, rfl⟩ := Option.map_eq_some_iff.mp here
        have word := word_afterType (Option.ite_none_left_eq_some.mp read).2
        exact word
      · obtain ⟨behind, inner, rfl⟩ := Option.map_eq_some_iff.mp later
        have word := ih inner
        exact word

/-- A direction that a declaration shows is one of two. -/
theorem direction_declared {name direction : Text} {type : Option Text} {index : Option Int}
    {inferDirection : Bool}
    (shown : (Parameter.declared name type index inferDirection).direction = some direction)
    : direction = "in".toList ∨ direction = "in,out".toList := by
  cases inferDirection with
  | false => contradiction
  | true =>
      obtain rfl : Parameter.directionOf type = direction := Option.some.inj shown
      rw [Parameter.directionOf]
      split
      · exact .inr rfl
      · exact .inl rfl

/-- Parameters as a declaration shows them have inferred directions and no descriptions. -/
theorem tagsCloseless_of_declared {declaration : Declaration} (inferDirection : Bool)
    (each : ∀ parameter ∈ declaration.parameters,
      ∃ name type index, parameter = Parameter.declared name type index inferDirection)
    (none : declaration.returnDescriptions = [])
    : TagsCloseless declaration := by
  refine ⟨fun parameter member direction shown => ?_, fun parameter member => ?_, by simp [none]⟩
  · obtain ⟨name, type, index, rfl⟩ := each parameter member
    rcases direction_declared shown with rfl | rfl <;> exact Closeless.of_no_star (by decide)
  · obtain ⟨name, type, index, rfl⟩ := each parameter member
    exact Closeless.nil

/-- A parameter of a prototype is declared under a word. -/
theorem Prototype.exists_declared {prototype : Prototype} {inferDirection : Bool}
    {parameter : Parameter}
    (member : parameter ∈ (prototype.declaration inferDirection).parameters)
    : ∃ name type index,
        parameter = Parameter.declared name type index inferDirection
        ∧ name ≠ []
        ∧ ∀ c ∈ name, isWord c = true := by
  unfold Prototype.declaration readParameters at member
  dsimp only at member
  split at member
  · contradiction
  · obtain ⟨⟨segment, index⟩, -, read⟩ := List.mem_filterMap.mp member
    obtain ⟨declarator, found, rfl⟩ := Option.map_eq_some_iff.mp read
    exact ⟨_, _, _, rfl, word_declarator found⟩

theorem Prototype.enclosed (prototype : Prototype) (inferDirection : Bool)
    : Enclosed (prototype.declaration inferDirection) := by
  refine ⟨tagsCloseless_of_declared inferDirection ?_ rfl, fun _ parameter member => ?_,
    fun impossible => ?_⟩
  · intro parameter member
    obtain ⟨name, type, index, shape, -⟩ := Prototype.exists_declared member
    exact ⟨name, type, index, shape⟩
  · obtain ⟨name, type, index, rfl, -, word⟩ := Prototype.exists_declared member
    exact Closeless.of_no_star fun star => absurd (word _ star) (by decide)
  · contradiction

/-- A macro is named by a word and indented by blanks. -/
theorem functionMacro?_sound {text : Text} {head : MacroHead}
    (found : functionMacro? text = some head)
    : (head.name ≠ [] ∧ ∀ c ∈ head.name, isWord c = true)
      ∧ ∀ c ∈ head.indent, Text.isBlank c = true := by
  simp only [functionMacro?, Option.bind_eq_bind, Option.bind_eq_some_iff, Prod.exists,
    Option.ite_none_left_eq_some, Option.some.injEq] at found
  obtain ⟨directive, rest, -, -, name, later, word, arguments, behind, -, rfl⟩ := found
  obtain ⟨rfl, -, nonempty⟩ := Text.wordRun?_sound word
  exact ⟨⟨nonempty, fun c member => List.mem_takeWhile_imp member⟩,
    fun c member => List.mem_takeWhile_imp member⟩

theorem star_not_mem_macroName {text : Text} {head : MacroHead}
    (found : functionMacro? text = some head)
    : '*' ∉ head.name :=
  fun member => absurd ((functionMacro?_sound found).1.2 _ member) (by decide)

/-- A parameter of a macro is a nonempty argument without white space around it. -/
theorem MacroHead.exists_declared {head : MacroHead} {inferDirection : Bool} {parameter : Parameter}
    (member : parameter ∈ (head.declaration inferDirection).parameters)
    : ∃ name index,
        parameter = Parameter.declared name none index inferDirection
          ∧ name ≠ []
          ∧ ∀ c ∈ name.head?, Text.isSpace c = false := by
  obtain ⟨⟨name, index⟩, among, read⟩ := List.mem_filterMap.mp member
  obtain ⟨nonempty, same⟩ := Option.ite_none_left_eq_some.mp read
  have stands := List.mem_of_getElem? (List.mem_zipIdx_iff_getElem?.mp among)
  obtain ⟨part, -, rfl⟩ := List.mem_map.mp (List.mem_of_mem_filter stands)
  exact ⟨_, _, (Option.some.inj same).symm, by simpa using nonempty,
    fun c first => Text.ends_trimBy (.inl first)⟩

theorem MacroHead.enclosed {head : MacroHead} (free : '*' ∉ head.name) (inferDirection : Bool)
    : Enclosed (head.declaration inferDirection) := by
  refine ⟨tagsCloseless_of_declared inferDirection (fun parameter member => ?_) rfl,
    fun impossible => ?_, fun _ => Closeless.of_no_star free⟩
  · obtain ⟨name, index, shape, -⟩ := MacroHead.exists_declared member
    exact ⟨name, none, index, shape⟩
  · contradiction

theorem enclosed_of_lastFunction {inferDirection : Bool} {text : Text} {declaration : Declaration}
    (found : lastFunction? inferDirection text = some declaration)
    : Enclosed declaration := by
  obtain ⟨prototype, -, rfl⟩ := Option.map_eq_some_iff.mp found
  exact prototype.enclosed inferDirection

theorem enclosed_of_functionPointerType {inferDirection : Bool} {text : Text}
    {declaration : Declaration}
    (found : functionPointerType? inferDirection text = some declaration)
    : Enclosed declaration := by
  obtain ⟨⟨-, prototype⟩, -, rfl⟩ := Option.map_eq_some_iff.mp found
  exact prototype.enclosed inferDirection

theorem enclosed_of_lastMacro {inferDirection : Bool} {text : Text} {declaration : Declaration}
    (found : lastMacro? inferDirection text = some declaration)
    : Enclosed declaration := by
  obtain ⟨head, last, rfl⟩ := Option.map_eq_some_iff.mp found
  obtain ⟨line, -, read⟩ := List.mem_filterMap.mp (List.mem_of_getLast? last)
  exact MacroHead.enclosed (star_not_mem_macroName read) inferDirection

end DocBlock.Signature
