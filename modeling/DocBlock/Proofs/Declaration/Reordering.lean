import DocBlock.Proofs.Declaration.Filling

/-! The order of the documented parameters does not matter to a merge where their names and indices
differ: each declared parameter then has at most one donor, and who it is depends on which
parameters are documented, not on where they stand.
-/

namespace DocBlock.Declaration

variable {declared documented others : List Parameter} {place : Nat} {donor other : Parameter}

/-- Where the documented indices differ, the donors of a place do not depend on the order of the
documentation: the first parameter with an index is the only one. -/
theorem mem_donorsAt_iff_donates (indices : (documented.map (·.index)).Nodup)
    : donor ∈ donorsAt documented (pairings declared documented) place
      ↔ Donates declared documented place donor := by
  constructor
  · exact donates_of_mem_donorsAt
  · intro donates
    cases donates with
    | byName parameter member first => exact mem_donorsAt_of_first member first
    | byIndex parameter member stands undocumented undeclared index =>
        obtain ⟨first, among, present, same⟩ :=
          exists_donor_of_index stands undocumented member undeclared index
        obtain rfl : first = donor :=
          List.inj_on_of_nodup_map indices present member (same.trans index.symm)
        exact among

/-- Only the members of the documentation decide who gives. -/
theorem Donates.of_mem_iff (same : ∀ parameter, parameter ∈ documented ↔ parameter ∈ others)
    (donates : Donates declared documented place donor)
    : Donates declared others place donor := by
  cases donates with
  | byName parameter member first => exact .byName parameter ((same donor).mp member) first
  | byIndex parameter member stands undocumented undeclared index =>
      refine .byIndex parameter ((same donor).mp member) stands ?_ undeclared index
      intro other among
      exact undocumented other ((same other).mpr among)

/-- A place has one donor where the documented names and indices differ. -/
theorem Donates.unique (names : (documented.map (·.name)).Nodup)
    (indices : (documented.map (·.index)).Nodup)
    (one : Donates declared documented place donor)
    (two : Donates declared documented place other)
    : donor = other := by
  cases one with
  | byName parameter member first =>
      cases two with
      | byName taker among second =>
          obtain rfl : parameter = taker :=
            Option.some.inj (first.stands.symm.trans second.stands)
          exact List.inj_on_of_nodup_map names member among (first.fits.symm.trans second.fits)
      | byIndex taker among stands undocumented undeclared index =>
          obtain rfl : parameter = taker := Option.some.inj (first.stands.symm.trans stands)
          exact absurd first.fits.symm (undocumented donor member)
  | byIndex parameter member stands undocumented undeclared index =>
      cases two with
      | byName taker among second =>
          obtain rfl : parameter = taker := Option.some.inj (stands.symm.trans second.stands)
          exact absurd second.fits.symm (undocumented other among)
      | byIndex taker among stood _ _ same =>
          obtain rfl : parameter = taker := Option.some.inj (stands.symm.trans stood)
          exact List.inj_on_of_nodup_map indices member among (index.trans same.symm)

/-- A parameter is filled in the same way from two lists of the same single donor. -/
theorem fillFrom_of_mem_iff {adoptDirection : Bool} {donors givers : List Parameter}
    (same : ∀ donor, donor ∈ donors ↔ donor ∈ givers)
    (single : ∀ donor ∈ donors, ∀ other ∈ donors, donor = other) (parameter : Parameter)
    : fillFrom adoptDirection donors parameter = fillFrom adoptDirection givers parameter := by
  cases donors with
  | nil =>
      have none : givers = [] := by
        apply List.eq_nil_iff_forall_not_mem.mpr
        intro donor among
        exact List.not_mem_nil ((same donor).mpr among)
      rw [none]
  | cons donor rest =>
      have first : donor ∈ donor :: rest := List.mem_cons_self
      rw [fillFrom_of_same first fun other among => single other among donor first]
      refine (fillFrom_of_same ((same donor).mp first) fun other among => ?_).symm
      exact single other ((same other).mpr among) donor first

/-- Reordered documentation fills the same parameters. Witness: at every place the two orders have
the same donors, and there is at most one.
-/
theorem fillAll_of_perm {adoptDirection : Bool} (perm : others.Perm documented)
    (names : (documented.map (·.name)).Nodup) (indices : (documented.map (·.index)).Nodup)
    : fillAll adoptDirection others (pairings declared others) declared
      = fillAll adoptDirection documented (pairings declared documented) declared := by
  have reordered : (others.map (·.index)).Nodup := (perm.map _).nodup_iff.mpr indices
  apply List.ext_getElem?
  intro place
  rw [getElem?_fillAll, getElem?_fillAll]
  congr 1
  funext parameter
  apply fillFrom_of_mem_iff
  · intro donor
    rw [mem_donorsAt_iff_donates reordered, mem_donorsAt_iff_donates indices]
    exact ⟨Donates.of_mem_iff fun _ => perm.mem_iff, Donates.of_mem_iff fun _ => perm.mem_iff.symm⟩
  · intro donor among other present
    have one := (mem_donorsAt_iff_donates reordered).mp among
    have two := (mem_donorsAt_iff_donates reordered).mp present
    exact one.unique ((perm.map _).nodup_iff.mpr names) reordered two

/-- Documentation whose parameters have distinct names and indices merges in the same way in any
order of its parameters. -/
theorem merge_reordered (adoptDirection : Bool) (declared documentation : Declaration)
    {reordered : List Parameter} (perm : reordered.Perm documentation.parameters)
    (names : (documentation.parameters.map (·.name)).Nodup)
    (indices : (documentation.parameters.map (·.index)).Nodup)
    : merge adoptDirection declared { documentation with parameters := reordered }
      = merge adoptDirection declared documentation := by
  have parameters := @fillAll_of_perm declared.parameters documentation.parameters reordered
    adoptDirection perm names indices
  simp only [merge, parameters]

/-- Documentation under an old name and under a repeated one. -/
def describedParameters : List Parameter :=
  [{ name := ['m'], description := "Count.".toList },
    { name := ['a'], index := some 5, description := "First.".toList }]

theorem merge_reordered_described
    : describedParameters.reverse.Perm describedParameters
      ∧ (describedParameters.map (·.name)).Nodup
      ∧ (describedParameters.map (·.index)).Nodup
      ∧ (merge true { parameters := repeatedParameters }
            { parameters := describedParameters }).parameters.map (·.description)
          = ["First.".toList, [], "Count.".toList]
      ∧ merge true { parameters := repeatedParameters }
            { parameters := describedParameters.reverse }
          = merge true { parameters := repeatedParameters } { parameters := describedParameters } :=
  ⟨List.reverse_perm _, by decide, by decide, by decide,
    merge_reordered true _ { parameters := describedParameters } (List.reverse_perm _) (by decide)
      (by decide)⟩

end DocBlock.Declaration
