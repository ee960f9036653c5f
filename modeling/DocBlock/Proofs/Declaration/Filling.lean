import DocBlock.Proofs.Comment.Enclosed
import DocBlock.Proofs.Declaration.Pairing

/-! What filling the gaps of a declaration does to each of its parameters: the documented parameters
paired with its place fill it one after the other. So a parameter keeps its name, and its direction
and description are its own or those of a documented parameter. Documentation that only repeats the
parameters changes none of them.
-/

namespace DocBlock.Declaration

open Comment (Closeless)
open Documentation (TagsCloseless)

variable {adoptDirection : Bool} {documented : List Parameter}
variable {declared parameter donor : Parameter}

--------------------------------------------------------------------------------
-- Filling one place
--------------------------------------------------------------------------------

/-- The documented parameters that pairings give to a place, in their order. -/
def donorsAt (documented : List Parameter) (pairings : List Pairing) (place : Nat)
    : List Parameter :=
  pairings.filterMap fun pairing =>
    if pairing.declared = place then documented[pairing.donor]? else none

/-- A parameter filled from one donor after the other. -/
def fillFrom (adoptDirection : Bool) (donors : List Parameter) (parameter : Parameter)
    : Parameter :=
  donors.foldl (fun parameter donor => fill adoptDirection donor parameter) parameter

@[simp]
theorem fillFrom_nil (parameter : Parameter) : fillFrom adoptDirection [] parameter = parameter :=
  rfl

@[simp]
theorem fillFrom_cons (donors : List Parameter) (parameter : Parameter)
    : fillFrom adoptDirection (donor :: donors) parameter
      = fillFrom adoptDirection donors (fill adoptDirection donor parameter) :=
  rfl

theorem mem_donorsAt {pairings : List Pairing} {place : Nat}
    : donor ∈ donorsAt documented pairings place
      ↔ ∃ pairing ∈ pairings,
          pairing.declared = place ∧ documented[pairing.donor]? = some donor := by
  simp [donorsAt, Option.ite_none_right_eq_some]

theorem mem_of_mem_donorsAt {pairings : List Pairing} {place : Nat}
    (among : donor ∈ donorsAt documented pairings place)
    : donor ∈ documented := by
  obtain ⟨pairing, -, -, given⟩ := mem_donorsAt.mp among
  exact List.mem_of_getElem? given

/-- Every parameter is filled from the donors that are paired with its place. Witness: induction on
the pairings, with any list filled so far.
-/
theorem getElem?_fillAll (pairings : List Pairing) (parameters : List Parameter) (place : Nat)
    : (fillAll adoptDirection documented pairings parameters)[place]?
      = parameters[place]?.map (fillFrom adoptDirection (donorsAt documented pairings place)) := by
  induction pairings generalizing parameters with
  | nil =>
      have unchanged : fillAll adoptDirection documented [] parameters = parameters := rfl
      rw [unchanged]
      cases parameters[place]? <;> rfl
  | cons pairing pairings ih =>
      rw [fillAll, List.foldl_cons, ← fillAll, ih]
      cases given : documented[pairing.donor]? with
      | none => simp [donorsAt, given]
      | some donor =>
          dsimp only
          rw [List.getElem?_modify]
          by_cases here : pairing.declared = place
          · cases parameters[place]? <;> simp [donorsAt, given, here]
          · cases parameters[place]? <;> simp [donorsAt, here]

/-- A parameter of a filled list is a declared one, filled from documented parameters. -/
theorem exists_fillFrom {pairings : List Pairing} {parameters : List Parameter}
    (member : parameter ∈ fillAll adoptDirection documented pairings parameters)
    : ∃ place declared,
        parameters[place]? = some declared
          ∧ parameter = fillFrom adoptDirection (donorsAt documented pairings place) declared := by
  obtain ⟨place, found⟩ := List.mem_iff_getElem?.mp member
  rw [getElem?_fillAll] at found
  obtain ⟨declared, stands, rfl⟩ := Option.map_eq_some_iff.mp found
  exact ⟨place, declared, stands, rfl⟩

/-- A donor of the same direction, without a description and a type, changes nothing. -/
theorem fill_eq_self (empty : donor.description = [])
    (direction : donor.direction = parameter.direction) (type : donor.type = none)
    : fill adoptDirection donor parameter = parameter := by
  have description : orElse parameter.description [] = parameter.description := by
    by_cases none : parameter.description = []
    · simp [orElse, none]
    · simp [orElse, none]
  rw [fill, empty, description, direction, type]
  simp [typeOrElse]

/-- Donors that change nothing one by one change nothing together, by induction on them. -/
theorem fillFrom_eq_self {donors : List Parameter}
    (same : ∀ donor ∈ donors, fill adoptDirection donor parameter = parameter)
    : fillFrom adoptDirection donors parameter = parameter := by
  induction donors with
  | nil => rfl
  | cons donor donors ih =>
      rw [List.forall_mem_cons] at same
      rw [fillFrom_cons, same.1, ih same.2]

/-- A text that was taken over is kept. -/
theorem orElse_orElse (mine others : Text)
    : orElse (orElse mine others) others = orElse mine others := by
  by_cases empty : mine = []
  · by_cases none : others = [] <;> simp [orElse, empty, none]
  · simp [orElse, empty]

/-- Filling again from the same donor changes nothing. -/
theorem fill_fill (adoptDirection : Bool) (donor parameter : Parameter)
    : fill adoptDirection donor (fill adoptDirection donor parameter)
      = fill adoptDirection donor parameter := by
  have description := orElse_orElse parameter.description donor.description
  have type : typeOrElse (typeOrElse parameter.type donor.type) donor.type
      = typeOrElse parameter.type donor.type := by
    unfold typeOrElse
    split <;> simp_all
  cases adoptDirection <;> simp [fill, description, type]

/-- A parameter whose donors are all the same is filled once. -/
theorem fillFrom_of_same {donors : List Parameter} (present : donor ∈ donors)
    (same : ∀ other ∈ donors, other = donor)
    : fillFrom adoptDirection donors parameter = fill adoptDirection donor parameter := by
  cases donors with
  | nil => contradiction
  | cons first donors =>
      rw [List.forall_mem_cons] at same
      obtain ⟨rfl, later⟩ := same
      rw [fillFrom_cons]
      apply fillFrom_eq_self
      intro other among
      rw [later other among, fill_fill]

/-- A filled parameter has a description unless it has none of its own and no donor has one, by
induction on the donors. -/
theorem description_fillFrom_eq_nil_iff {donors : List Parameter}
    : (fillFrom adoptDirection donors parameter).description = []
      ↔ parameter.description = [] ∧ ∀ donor ∈ donors, donor.description = [] := by
  induction donors generalizing parameter with
  | nil => simp
  | cons donor donors ih =>
      rw [fillFrom_cons, ih, List.forall_mem_cons, ← and_assoc]
      refine and_congr_left fun _ => ?_
      by_cases empty : parameter.description = []
      · simp [fill, orElse, empty]
      · simp [fill, orElse, empty]

/-- Donors of the same direction and without a type change nothing but the description, by induction
on them. -/
theorem undescribed_fillFrom {donors : List Parameter}
    (same : ∀ donor ∈ donors, donor.direction = parameter.direction ∧ donor.type = none)
    : { fillFrom adoptDirection donors parameter with description := [] }
      = { parameter with description := [] } := by
  induction donors generalizing parameter with
  | nil => rfl
  | cons donor donors ih =>
      rw [List.forall_mem_cons] at same
      have direction : (fill adoptDirection donor parameter).direction = parameter.direction := by
        cases adoptDirection with
        | false => rfl
        | true => exact same.1.1
      have type : (fill adoptDirection donor parameter).type = parameter.type := by
        simp [fill, typeOrElse, same.1.2]
      have name : (fill adoptDirection donor parameter).name = parameter.name := rfl
      have index : (fill adoptDirection donor parameter).index = parameter.index := rfl
      rw [fillFrom_cons, ih (by rw [direction]; exact same.2), direction, type, name, index]

--------------------------------------------------------------------------------
-- Who fills a place
--------------------------------------------------------------------------------

section Pairings

variable {declared : List Parameter} {parameter : Parameter} {place : Nat}

/-- A documented parameter gives to a place: it has the name that stands there first; or it has the
index that stands there, and the name of neither is known on the other side. Where it stands in the
documentation is left open. -/
inductive Donates (declared documented : List Parameter) (place : Nat) (donor : Parameter)
    : Prop where
  | byName (parameter : Parameter) (member : donor ∈ documented)
      (first : First (·.name = donor.name) declared place parameter)
  | byIndex (parameter : Parameter) (member : donor ∈ documented)
      (stands : declared[place]? = some parameter)
      (undocumented : ∀ other ∈ documented, other.name ≠ parameter.name)
      (undeclared : ∀ other ∈ declared, other.name ≠ donor.name)
      (index : donor.index = parameter.index)

theorem donates_of_mem_donorsAt
    (among : donor ∈ donorsAt documented (pairings declared documented) place)
    : Donates declared documented place donor := by
  have member := mem_of_mem_donorsAt among
  obtain ⟨pairing, paired, rfl, given⟩ := mem_donorsAt.mp among
  obtain ⟨parameter, giver, byName | byIndex⟩ := mem_pairings.mp paired
  · obtain rfl : giver = donor := Option.some.inj (byName.gives.symm.trans given)
    exact .byName parameter member byName.takes
  · obtain rfl : giver = donor := Option.some.inj (byIndex.gives.stands.symm.trans given)
    exact .byIndex parameter member byIndex.takes byIndex.undocumented byIndex.gives.fits.1
      byIndex.gives.fits.2

/-- A donor has the name of the parameter it fills; or it has its index, and the name of neither is
known on the other side. -/
theorem donor_cases (taken : declared[place]? = some parameter)
    (among : donor ∈ donorsAt documented (pairings declared documented) place)
    : donor.name = parameter.name
      ∨ ((∀ other ∈ documented, other.name ≠ parameter.name)
        ∧ (∀ other ∈ declared, other.name ≠ donor.name)
        ∧ donor.index = parameter.index) := by
  cases donates_of_mem_donorsAt among with
  | byName own member first =>
      obtain rfl : own = parameter := Option.some.inj (first.stands.symm.trans taken)
      exact .inl first.fits.symm
  | byIndex own member stands undocumented undeclared index =>
      obtain rfl : own = parameter := Option.some.inj (stands.symm.trans taken)
      exact .inr ⟨undocumented, undeclared, index⟩

/-- A documented parameter fills the first declared one of its name. -/
theorem mem_donorsAt_of_first (present : donor ∈ documented)
    (first : First (·.name = donor.name) declared place parameter)
    : donor ∈ donorsAt documented (pairings declared documented) place := by
  obtain ⟨j, given⟩ := List.mem_iff_getElem?.mp present
  have paired : ⟨place, j⟩ ∈ pairings declared documented :=
    mem_pairings.mpr ⟨parameter, donor, .inl ⟨given, first⟩⟩
  exact mem_donorsAt.mpr ⟨⟨place, j⟩, paired, rfl, given⟩

/-- A documented parameter whose name is declared fills a parameter of that name. -/
theorem exists_place_of_name (present : donor ∈ documented)
    (known : ∃ parameter ∈ declared, parameter.name = donor.name)
    : ∃ place parameter,
        declared[place]? = some parameter
          ∧ parameter.name = donor.name
          ∧ donor ∈ donorsAt documented (pairings declared documented) place := by
  obtain ⟨place, parameter, first⟩ := exists_first known
  exact ⟨place, parameter, first.stands, first.fits, mem_donorsAt_of_first present first⟩

/-- Where the documented names differ, a documented parameter whose name is declared fills a
parameter of that name, and no other documented parameter does. -/
theorem exists_filled_of_name {declared : List Parameter}
    (distinct : (documented.map (·.name)).Nodup) (present : donor ∈ documented)
    (known : ∃ parameter ∈ declared, parameter.name = donor.name)
    : ∃ parameter ∈ declared,
        parameter.name = donor.name
          ∧ fill adoptDirection donor parameter
            ∈ fillAll adoptDirection documented (pairings declared documented) declared := by
  obtain ⟨place, parameter, stands, named, among⟩ := exists_place_of_name present known
  refine ⟨parameter, List.mem_of_getElem? stands, named, ?_⟩
  have same : ∀ other ∈ donorsAt documented (pairings declared documented) place,
      other = donor := by
    intro other paired
    rcases donor_cases stands paired with own | ⟨undocumented, -⟩
    · exact List.inj_on_of_nodup_map distinct (mem_of_mem_donorsAt paired) present
        (own.trans named)
    · exact absurd named.symm (undocumented donor present)
  have filled := @getElem?_fillAll adoptDirection documented (pairings declared documented)
    declared place
  rw [stands, Option.map_some, fillFrom_of_same among same] at filled
  exact List.mem_of_getElem? filled

/-- A parameter whose name is not documented is filled from its index, if some documented parameter
there has a name that is not declared. -/
theorem exists_donor_of_index (taken : declared[place]? = some parameter)
    (undocumented : ∀ other ∈ documented, other.name ≠ parameter.name)
    (present : donor ∈ documented) (undeclared : ∀ other ∈ declared, other.name ≠ donor.name)
    (same : donor.index = parameter.index)
    : ∃ first ∈ donorsAt documented (pairings declared documented) place,
        first ∈ documented ∧ first.index = parameter.index := by
  obtain ⟨j, chosen, first⟩ := @exists_first
    (fun donor => (∀ other ∈ declared, other.name ≠ donor.name) ∧ donor.index = parameter.index)
    documented ⟨donor, present, undeclared, same⟩
  have paired : ⟨place, j⟩ ∈ pairings declared documented :=
    mem_pairings.mpr ⟨parameter, chosen, .inr ⟨taken, undocumented, first⟩⟩
  exact ⟨chosen, mem_donorsAt.mpr ⟨⟨place, j⟩, paired, rfl, first.stands⟩,
    List.mem_of_getElem? first.stands, first.fits.2⟩

end Pairings

--------------------------------------------------------------------------------
-- Where the texts come from
--------------------------------------------------------------------------------

/-- A parameter is a declared one with texts from the documentation. -/
structure Filled (documented : List Parameter) (declared parameter : Parameter) : Prop where
  name : parameter.name = declared.name
  direction : parameter.direction = declared.direction
    ∨ ∃ donor ∈ documented, parameter.direction = donor.direction
  description : parameter.description = declared.description
    ∨ ∃ donor ∈ documented, parameter.description = donor.description

theorem Filled.refl (documented : List Parameter) (declared : Parameter)
    : Filled documented declared declared :=
  ⟨rfl, .inl rfl, .inl rfl⟩

/-- Filling once more takes texts from the same documentation. -/
theorem Filled.fill (filled : Filled documented declared parameter) (member : donor ∈ documented)
    (adoptDirection : Bool)
    : Filled documented declared (Declaration.fill adoptDirection donor parameter) where
  name := filled.name
  direction := by
    cases adoptDirection with
    | false => exact filled.direction
    | true => exact .inr ⟨donor, member, rfl⟩
  description := by
    by_cases empty : parameter.description.isEmpty = true
    · exact .inr ⟨donor, member, by simp [Declaration.fill, orElse, empty]⟩
    · simpa [Declaration.fill, orElse, empty] using filled.description

/-- Filling from documented parameters takes texts from these, by induction on the donors. -/
theorem Filled.fillFrom {donors : List Parameter} (filled : Filled documented declared parameter)
    (among : ∀ donor ∈ donors, donor ∈ documented)
    : Filled documented declared (Declaration.fillFrom adoptDirection donors parameter) := by
  induction donors generalizing parameter with
  | nil => exact filled
  | cons donor donors ih =>
      rw [List.forall_mem_cons] at among
      exact ih (filled.fill among.1 adoptDirection) among.2

/-- Every parameter of a filled list is a declared one with texts from the documentation. -/
theorem mem_fillAll {pairings : List Pairing} {parameters : List Parameter}
    (member : parameter ∈ fillAll adoptDirection documented pairings parameters)
    : ∃ declared ∈ parameters, Filled documented declared parameter := by
  obtain ⟨place, declared, stands, rfl⟩ := exists_fillFrom member
  exact ⟨declared, List.mem_of_getElem? stands,
    (Filled.refl documented declared).fillFrom fun donor among => mem_of_mem_donorsAt among⟩

/-- A declaration whose tags hold no comment end keeps that when its gaps are filled from
documentation that has none. -/
theorem tagsCloseless_merge {declared documentation : Declaration}
    (own : TagsCloseless declared) (others : TagsCloseless documentation)
    : TagsCloseless (merge adoptDirection declared documentation) := by
  refine ⟨fun parameter member direction shown => ?_, fun parameter member => ?_, ?_⟩
  · obtain ⟨old, original, filled⟩ := mem_fillAll member
    rcases filled.direction with same | ⟨donor, among, same⟩
    · exact own.directions old original direction (same ▸ shown)
    · exact others.directions donor among direction (same ▸ shown)
  · obtain ⟨old, original, filled⟩ := mem_fillAll member
    rcases filled.description with same | ⟨donor, among, same⟩
    · exact same ▸ own.descriptions old original
    · exact same ▸ others.descriptions donor among
  · unfold merge
    dsimp only
    split
    · exact others.returns
    · exact own.returns

--------------------------------------------------------------------------------
-- Documentation that repeats the declaration
--------------------------------------------------------------------------------

/-- The documentation repeats the declared parameters: it names all of them, and under the name of a
parameter it has nothing to fill in. -/
structure Repeats (adoptDirection : Bool) (documented declared : List Parameter) : Prop where
  named : ∀ parameter ∈ declared, ∃ donor ∈ documented, donor.name = parameter.name
  fills : ∀ parameter ∈ declared, ∀ donor ∈ documented, donor.name = parameter.name
    → fill adoptDirection donor parameter = parameter

/-- Pairings that change no parameter leave the list as it is. -/
theorem fillAll_eq_self {pairings : List Pairing} {parameters : List Parameter}
    (same : ∀ place parameter, parameters[place]? = some parameter
      → ∀ donor ∈ donorsAt documented pairings place,
        fill adoptDirection donor parameter = parameter)
    : fillAll adoptDirection documented pairings parameters = parameters := by
  apply List.ext_getElem?
  intro place
  rw [getElem?_fillAll]
  cases stands : parameters[place]? with
  | none => rfl
  | some parameter =>
      rw [Option.map_some, fillFrom_eq_self (same place parameter stands)]

/-- Repeated parameters stay as they are: every donor has the name of the parameter it fills. -/
theorem Repeats.fillAll_eq_self {adoptDirection : Bool} {documented declared : List Parameter}
    (repeats : Repeats adoptDirection documented declared)
    : fillAll adoptDirection documented (pairings declared documented) declared = declared := by
  apply Declaration.fillAll_eq_self
  intro place parameter taken donor among
  have own := List.mem_of_getElem? taken
  rcases donor_cases taken among with named | ⟨undocumented, -⟩
  · exact repeats.fills parameter own donor (mem_of_mem_donorsAt among) named
  · obtain ⟨other, present, same⟩ := repeats.named parameter own
    exact absurd same (undocumented other present)

end DocBlock.Declaration
