import DocBlock.Declaration.Merge
import Mathlib.Data.List.Nodup

/-! Which documented parameter describes which declared one. Names go first: a documented parameter
goes to the first declared one of its name, and only names that the other side does not know are
paired by index. So no documented parameter is used twice, as long as no two declared parameters
share an index.
-/

namespace DocBlock.Declaration

variable {declared documented : List Parameter} {pairing : Pairing}

--------------------------------------------------------------------------------
-- Who is paired
--------------------------------------------------------------------------------

theorem names_eq_false {parameters : List Parameter} {name : Text}
    : names parameters name = false ↔ ∀ parameter ∈ parameters, parameter.name ≠ name := by
  simp [names]

/-- A parameter stands at a place and is the first one with a property. -/
structure First (property : Parameter → Prop) (parameters : List Parameter) (place : Nat)
    (parameter : Parameter)
    : Prop where
  stands : parameters[place]? = some parameter
  fits : property parameter
  before : ∀ earlier < place, ∀ other, parameters[earlier]? = some other → ¬ property other

/-- Searching a list finds the first fitting parameter. -/
theorem findIdx?_eq_some_iff_first {fits : Parameter → Bool} {property : Parameter → Prop}
    (same : ∀ parameter, fits parameter = true ↔ property parameter)
    {parameters : List Parameter} {place : Nat}
    : parameters.findIdx? fits = some place
      ↔ ∃ parameter, First property parameters place parameter := by
  rw [List.findIdx?_eq_some_iff_getElem]
  constructor
  · intro search
    obtain ⟨bound, found, earlier⟩ := search
    refine ⟨parameters[place], List.getElem?_eq_getElem bound, (same _).mp found, ?_⟩
    intro i lower other stands fitting
    obtain ⟨_, rfl⟩ := List.getElem?_eq_some_iff.mp stands
    exact earlier i lower ((same _).mpr fitting)
  · intro first
    obtain ⟨parameter, stands, fitting, before⟩ := first
    obtain ⟨bound, rfl⟩ := List.getElem?_eq_some_iff.mp stands
    refine ⟨bound, (same _).mpr fitting, fun i lower found => ?_⟩
    have inner : i < parameters.length := Nat.lt_trans lower bound
    exact before i lower _ (List.getElem?_eq_getElem inner) ((same _).mp found)

theorem exists_first {property : Parameter → Prop} {parameters : List Parameter}
    (some : ∃ parameter ∈ parameters, property parameter)
    : ∃ place parameter, First property parameters place parameter := by
  classical
  obtain ⟨place, found⟩ : ∃ place, parameters.findIdx? (fun parameter => property parameter)
      = .some place := by
    rw [← Option.isSome_iff_exists, List.findIdx?_isSome, List.any_eq_true]
    simpa using some
  exact ⟨place, (findIdx?_eq_some_iff_first fun _ => decide_eq_true_iff).mp found⟩

/-- A documented parameter goes to the first declared one of its name. -/
structure PairedByName (declared documented : List Parameter) (pairing : Pairing)
    (parameter donor : Parameter)
    : Prop where
  gives : documented[pairing.donor]? = some donor
  takes : First (·.name = donor.name) declared pairing.declared parameter

/-- A declared parameter whose name is not documented takes the first documented one with its index
whose name is not declared. -/
structure PairedByIndex (declared documented : List Parameter) (pairing : Pairing)
    (parameter donor : Parameter)
    : Prop where
  takes : declared[pairing.declared]? = some parameter
  undocumented : ∀ other ∈ documented, other.name ≠ parameter.name
  gives : First (fun donor => (∀ other ∈ declared, other.name ≠ donor.name)
    ∧ donor.index = parameter.index) documented pairing.donor donor

theorem mem_pairByName
    : pairing ∈ pairByName declared documented
      ↔ ∃ parameter donor, PairedByName declared documented pairing parameter donor := by
  have search (donor : Parameter) (place : Nat)
      : declared.findIdx? (·.name = donor.name) = some place
        ↔ ∃ parameter, First (·.name = donor.name) declared place parameter :=
    findIdx?_eq_some_iff_first fun _ => decide_eq_true_iff
  rw [pairByName, List.mem_filterMap]
  constructor
  · intro member
    obtain ⟨⟨donor, j⟩, source, read⟩ := member
    obtain ⟨i, found, rfl⟩ := Option.map_eq_some_iff.mp read
    obtain ⟨parameter, first⟩ := (search donor i).mp found
    exact ⟨parameter, donor, List.mem_zipIdx_iff_getElem?.mp source, first⟩
  · intro paired
    obtain ⟨parameter, donor, stands, first⟩ := paired
    have found := (search donor pairing.declared).mpr ⟨parameter, first⟩
    refine ⟨(donor, pairing.donor), List.mem_zipIdx_iff_getElem?.mpr stands, ?_⟩
    exact Option.map_eq_some_iff.mpr ⟨pairing.declared, found, rfl⟩

theorem mem_pairByIndex
    : pairing ∈ pairByIndex declared documented
      ↔ ∃ parameter donor, PairedByIndex declared documented pairing parameter donor := by
  have search (parameter : Parameter) (place : Nat)
      : (documented.findIdx? fun donor =>
          !names declared donor.name && donor.index = parameter.index) = some place
        ↔ ∃ donor, First (fun donor => (∀ other ∈ declared, other.name ≠ donor.name)
            ∧ donor.index = parameter.index) documented place donor :=
    findIdx?_eq_some_iff_first fun _ => by
      rw [Bool.and_eq_true, Bool.not_eq_true', names_eq_false, decide_eq_true_iff]
  rw [pairByIndex, List.mem_filterMap]
  constructor
  · intro member
    obtain ⟨⟨parameter, i⟩, source, read⟩ := member
    obtain ⟨unnamed, read⟩ := Option.ite_none_left_eq_some.mp read
    obtain ⟨j, found, rfl⟩ := Option.map_eq_some_iff.mp read
    obtain ⟨donor, first⟩ := (search parameter j).mp found
    exact ⟨parameter, donor, List.mem_zipIdx_iff_getElem?.mp source,
      names_eq_false.mp (eq_false_of_ne_true unnamed), first⟩
  · intro paired
    obtain ⟨parameter, donor, stands, undocumented, first⟩ := paired
    have unnamed : names documented parameter.name ≠ true :=
      ne_true_of_eq_false (names_eq_false.mpr undocumented)
    have found := (search parameter pairing.donor).mpr ⟨donor, first⟩
    refine ⟨(parameter, pairing.declared), List.mem_zipIdx_iff_getElem?.mpr stands, ?_⟩
    refine Option.ite_none_left_eq_some.mpr ⟨unnamed, ?_⟩
    exact Option.map_eq_some_iff.mpr ⟨pairing.donor, found, rfl⟩

theorem mem_pairings
    : pairing ∈ pairings declared documented
      ↔ ∃ parameter donor,
          PairedByName declared documented pairing parameter donor
          ∨ PairedByIndex declared documented pairing parameter donor := by
  rw [pairings, List.mem_append, mem_pairByName, mem_pairByIndex]
  simp only [exists_or]

--------------------------------------------------------------------------------
-- Each donor once
--------------------------------------------------------------------------------

/-- What is read from numbered items comes in the order of their numbers. -/
theorem pairwise_of_zipIdx {α β : Type} {read : α × Nat → Option β} {before : β → β → Prop}
    (ordered : ∀ first second i j, i < j
      → ∀ a b, read (first, i) = some a → read (second, j) = some b → before a b)
    (items : List α)
    : (items.zipIdx.filterMap read).Pairwise before := by
  have increasing : items.zipIdx.Pairwise fun first second => first.2 < second.2 := by
    rw [← @List.pairwise_map _ _ Prod.snd, List.zipIdx_map_snd]
    exact List.pairwise_lt_range'
  rw [List.pairwise_filterMap]
  refine increasing.imp ?_
  intro first second lower a one b two
  exact ordered first.1 second.1 first.2 second.2 lower a b one two

/-- Pairs by name follow the documentation. -/
theorem increasing_pairByName (declared documented : List Parameter)
    : (pairByName declared documented).Pairwise fun first second =>
        first.donor < second.donor := by
  refine pairwise_of_zipIdx (fun first second i j lower a b one two => ?_) documented
  obtain ⟨_, -, rfl⟩ := Option.map_eq_some_iff.mp one
  obtain ⟨_, -, rfl⟩ := Option.map_eq_some_iff.mp two
  exact lower

/-- Pairs by index follow the declaration. -/
theorem increasing_pairByIndex (declared documented : List Parameter)
    : (pairByIndex declared documented).Pairwise fun first second =>
        first.declared < second.declared := by
  refine pairwise_of_zipIdx (fun first second i j lower a b one two => ?_) declared
  obtain ⟨_, -, rfl⟩ := Option.map_eq_some_iff.mp (Option.ite_none_left_eq_some.mp one).2
  obtain ⟨_, -, rfl⟩ := Option.map_eq_some_iff.mp (Option.ite_none_left_eq_some.mp two).2
  exact lower

/-- Declared parameters that take the same donor have its index, so distinct indices keep the donors
apart. -/
theorem nodup_donors_pairByIndex (distinct : (declared.map (·.index)).Nodup)
    (documented : List Parameter)
    : ((pairByIndex declared documented).map (·.donor)).Nodup := by
  rw [List.Nodup, List.pairwise_map]
  refine (increasing_pairByIndex declared documented).imp_of_mem ?_
  intro first second one two lower same
  obtain ⟨parameter, donor, left⟩ := mem_pairByIndex.mp one
  obtain ⟨other, giver, right⟩ := mem_pairByIndex.mp two
  obtain rfl : donor = giver := by
    have stands := left.gives.stands
    rw [same, right.gives.stands] at stands
    exact (Option.some.inj stands).symm
  have bound := (List.getElem?_eq_some_iff.mp left.takes).1
  have places : first.declared = second.declared := by
    refine (List.getElem?_inj (by simpa using bound) distinct).mp ?_
    rw [List.getElem?_map, List.getElem?_map, left.takes, right.takes]
    exact congrArg some (left.gives.fits.2.symm.trans right.gives.fits.2)
  exact absurd places (Nat.ne_of_lt lower)

/-- Documented parameters as pairing uses them: which pairs there are, and that no documented
parameter gives twice. One whose name is declared gives to the first declared parameter of its name
and never by index; a declared parameter whose name is documented takes nothing by index; and pairs
with different names have the same index. -/
structure PairsOnce (declared documented : List Parameter) : Prop where
  pairs : ∀ pairing,
    pairing ∈ pairings declared documented
      ↔ ∃ parameter donor,
          PairedByName declared documented pairing parameter donor
          ∨ PairedByIndex declared documented pairing parameter donor
  once : ((pairings declared documented).map (·.donor)).Nodup
  declaredName : ∀ pairing ∈ pairings declared documented, ∀ donor,
    documented[pairing.donor]? = some donor → (∃ parameter ∈ declared, parameter.name = donor.name)
      → pairing ∉ pairByIndex declared documented
        ∧ ∃ parameter, First (·.name = donor.name) declared pairing.declared parameter
  documentedName : ∀ pairing ∈ pairByIndex declared documented, ∀ parameter,
    declared[pairing.declared]? = some parameter
      → ∀ donor ∈ documented, donor.name ≠ parameter.name
  renamed : ∀ pairing ∈ pairings declared documented,
    ∃ parameter donor,
      declared[pairing.declared]? = some parameter
      ∧ documented[pairing.donor]? = some donor
      ∧ (donor.name ≠ parameter.name → donor.index = parameter.index)

/-- A donor whose name is declared does not give by index. -/
theorem undeclared_of_mem_pairByIndex {donor : Parameter}
    (member : pairing ∈ pairByIndex declared documented)
    (stands : documented[pairing.donor]? = some donor)
    : ∀ other ∈ declared, other.name ≠ donor.name := by
  obtain ⟨parameter, giver, paired⟩ := mem_pairByIndex.mp member
  obtain rfl : giver = donor := Option.some.inj (paired.gives.stands.symm.trans stands)
  exact paired.gives.fits.1

/-- No documented parameter is used twice where the declared indices differ. Witness: pairs by name
follow the documentation, pairs by index with one donor share its index, and a donor of one kind has
a declared name while one of the other kind has none.
-/
theorem pairings_pairsOnce (distinct : (declared.map (·.index)).Nodup)
    (documented : List Parameter)
    : PairsOnce declared documented where
  pairs := fun _ => mem_pairings
  once := by
    have byName : ((pairByName declared documented).map (·.donor)).Nodup := by
      rw [List.Nodup, List.pairwise_map]
      exact (increasing_pairByName declared documented).imp Nat.ne_of_lt
    rw [pairings, List.map_append, List.nodup_append]
    refine ⟨byName, nodup_donors_pairByIndex distinct documented, ?_⟩
    intro place named other renamed same
    obtain ⟨first, one, rfl⟩ := List.mem_map.mp named
    obtain ⟨second, two, rfl⟩ := List.mem_map.mp renamed
    obtain ⟨parameter, donor, paired⟩ := mem_pairByName.mp one
    have stands := List.mem_of_getElem? paired.takes.stands
    exact undeclared_of_mem_pairByIndex two (same ▸ paired.gives) parameter stands
      paired.takes.fits
  declaredName := by
    intro pairing member donor stands known
    obtain ⟨own, among, named⟩ := known
    have other : pairing ∉ pairByIndex declared documented := fun byIndex =>
      undeclared_of_mem_pairByIndex byIndex stands own among named
    refine ⟨other, ?_⟩
    have byName := (List.mem_append.mp member).resolve_right other
    obtain ⟨parameter, giver, paired⟩ := mem_pairByName.mp byName
    obtain rfl : giver = donor := Option.some.inj (paired.gives.symm.trans stands)
    exact ⟨parameter, paired.takes⟩
  documentedName := by
    intro pairing member parameter stands
    obtain ⟨taker, donor, paired⟩ := mem_pairByIndex.mp member
    obtain rfl : taker = parameter := Option.some.inj (paired.takes.symm.trans stands)
    exact paired.undocumented
  renamed := by
    intro pairing member
    obtain ⟨parameter, donor, byName | byIndex⟩ := mem_pairings.mp member
    · exact ⟨parameter, donor, byName.takes.stands, byName.gives, fun other =>
        absurd byName.takes.fits.symm other⟩
    · exact ⟨parameter, donor, byIndex.takes, byIndex.gives.stands, fun _ =>
        byIndex.gives.fits.2⟩

/-- Two parameters of one name, and one without an index. -/
def repeatedParameters : List Parameter :=
  [{ name := ['a'], index := some 0 }, { name := ['a'], index := some 1 }, { name := ['n'] }]

/-- Documentation with the repeated name, an old name and a parameter that is gone. -/
def outdatedParameters : List Parameter :=
  [{ name := ['a'], index := some 7 }, { name := ['m'] }, { name := ['a'], index := some 1 },
    { name := ['g'], index := some 1 }]

theorem pairings_pairsOnce_outdated
    : (repeatedParameters.map (·.index)).Nodup
      ∧ pairings repeatedParameters outdatedParameters = [⟨0, 0⟩, ⟨0, 2⟩, ⟨2, 1⟩]
      ∧ PairsOnce repeatedParameters outdatedParameters :=
  ⟨by decide, by decide, pairings_pairsOnce (by decide) outdatedParameters⟩

end DocBlock.Declaration
