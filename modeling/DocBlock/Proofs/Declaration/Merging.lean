import DocBlock.Proofs.Declaration.Filling

/-! Merging a declaration with its documentation only fills gaps, and it fills them once. Each
parameter is filled by its donors one after the other: the first text wins, and with adopted
directions the last direction wins. So a second run over the same donors finds nothing to change,
however often a name or an index is repeated.
-/

namespace DocBlock.Declaration

attribute [ext] Parameter

variable {adoptDirection : Bool} {donor before after : Parameter} {donors earlier : List Parameter}

--------------------------------------------------------------------------------
-- What filling a parameter keeps
--------------------------------------------------------------------------------

/-- The parameter has a type, and it is not empty. -/
def Typed (parameter : Parameter) (type : Text) : Prop :=
  parameter.type = some type ∧ type ≠ []

/-- A parameter after filling from donors. Its place in the declaration and what it says stay; only
its direction may be replaced, on demand. A description or type that it lacks is one of a donor, or
no donor has one. Without donors nothing changes. -/
structure GapsFilled (adoptDirection : Bool) (donors : List Parameter) (before after : Parameter)
    : Prop where
  name : after.name = before.name
  index : after.index = before.index
  direction : adoptDirection = false → after.direction = before.direction
  description : before.description ≠ [] → after.description = before.description
  described : before.description = []
    → (after.description = [] ∧ ∀ donor ∈ donors, donor.description = [])
      ∨ ∃ donor ∈ donors, donor.description ≠ [] ∧ after.description = donor.description
  type : ∀ type, Typed before type → Typed after type
  typed : (∀ type, ¬ Typed before type)
    → (after.type = before.type ∧ ∀ donor ∈ donors, ∀ type, ¬ Typed donor type)
      ∨ ∃ donor ∈ donors, ∃ type, Typed donor type ∧ Typed after type
  undonated : donors = [] → after = before

/-- A parameter without donors stays as it is. -/
theorem GapsFilled.refl (adoptDirection : Bool) (parameter : Parameter)
    : GapsFilled adoptDirection [] parameter parameter where
  name := rfl
  index := rfl
  direction := fun _ => rfl
  description := fun _ => rfl
  described := fun empty => .inl ⟨empty, by simp⟩
  type := fun _ typed => typed
  typed := fun _ => .inl ⟨rfl, by simp⟩
  undonated := fun _ => rfl

theorem typeOrElse_of_typed {type : Text} (typed : Typed before type) (others : Option Text)
    : typeOrElse before.type others = some type := by
  simp [typeOrElse, typed.1, typed.2]

/-- A missing type is filled by a type, and by nothing else. -/
theorem typeOrElse_of_untyped (untyped : ∀ type, ¬ Typed before type) (donor : Parameter)
    : (typeOrElse before.type donor.type = before.type ∧ ∀ type, ¬ Typed donor type)
      ∨ ∃ type, Typed donor type ∧ typeOrElse before.type donor.type = some type := by
  have empty : before.type.all List.isEmpty = true := by
    cases own : before.type with
    | none => rfl
    | some type =>
        have none : type = [] := by
          by_contra nonempty
          exact untyped type ⟨own, nonempty⟩
        simp [none]
  cases other : donor.type with
  | none =>
      refine .inl ⟨by simp [typeOrElse], fun type typed => ?_⟩
      exact absurd (typed.1.symm.trans other) (by simp)
  | some type =>
      by_cases none : type = []
      · refine .inl ⟨by simp [typeOrElse, none], fun _ typed => typed.2 ?_⟩
        exact (Option.some.inj (typed.1.symm.trans other)).trans none
      · exact .inr ⟨type, ⟨other, none⟩, by simp [typeOrElse, empty, none]⟩

/-- One more donor fills what the earlier ones left. -/
theorem GapsFilled.fill (filled : GapsFilled adoptDirection donors before after)
    (donor : Parameter)
    : GapsFilled adoptDirection (donors ++ [donor]) before
        (Declaration.fill adoptDirection donor after) where
  name := filled.name
  index := filled.index
  direction := by
    intro kept
    rw [Declaration.fill, if_neg (by simp [kept])]
    exact filled.direction kept
  description := by
    intro own
    have same := filled.description own
    simp [Declaration.fill, orElse, same, own]
  described := by
    intro empty
    rcases filled.described empty with ⟨still, none⟩ | ⟨first, among, nonempty, same⟩
    · have now : (Declaration.fill adoptDirection donor after).description = donor.description := by
        simp [Declaration.fill, orElse, still]
      by_cases blank : donor.description = []
      · refine .inl ⟨now.trans blank, List.forall_mem_append.mpr ⟨none, ?_⟩⟩
        simpa using blank
      · exact .inr ⟨donor, by simp, blank, now⟩
    · refine .inr ⟨first, List.mem_append_left _ among, nonempty, ?_⟩
      simp [Declaration.fill, orElse, same, nonempty]
  type := by
    intro type own
    exact ⟨typeOrElse_of_typed (filled.type type own) donor.type, own.2⟩
  typed := by
    intro untyped
    rcases filled.typed untyped with ⟨still, none⟩ | ⟨first, among, type, own, taken⟩
    · have missing : ∀ type, ¬ Typed after type := by
        intro type typed
        exact untyped type ⟨still.symm.trans typed.1, typed.2⟩
      rcases typeOrElse_of_untyped missing donor with ⟨same, blank⟩ | ⟨type, own, taken⟩
      · refine .inl ⟨same.trans still, List.forall_mem_append.mpr ⟨none, ?_⟩⟩
        simpa using blank
      · exact .inr ⟨donor, by simp, type, own, taken, own.2⟩
    · refine .inr ⟨first, List.mem_append_left _ among, type, own, ?_⟩
      exact ⟨typeOrElse_of_typed taken donor.type, own.2⟩
  undonated := by simp

/-- Filling from donors fills gaps, by induction on the donors with those before them. -/
theorem GapsFilled.fillFrom (filled : GapsFilled adoptDirection earlier before after)
    (donors : List Parameter)
    : GapsFilled adoptDirection (earlier ++ donors) before
        (Declaration.fillFrom adoptDirection donors after) := by
  induction donors generalizing earlier after with
  | nil =>
      rw [List.append_nil]
      exact filled
  | cons donor donors ih =>
      have more := ih (filled.fill donor)
      rw [List.append_assoc] at more
      exact more

theorem gapsFilled_fillFrom (adoptDirection : Bool) (donors : List Parameter)
    (parameter : Parameter)
    : GapsFilled adoptDirection donors parameter (fillFrom adoptDirection donors parameter) :=
  (GapsFilled.refl adoptDirection parameter).fillFrom donors

--------------------------------------------------------------------------------
-- Filling again
--------------------------------------------------------------------------------

/-- An adopted direction is that of the last donor, by induction on the donors. -/
theorem direction_fillFrom (donors : List Parameter) (parameter : Parameter)
    : (fillFrom true donors parameter).direction
      = ((donors.getLast?).map (·.direction)).getD parameter.direction := by
  induction donors generalizing parameter with
  | nil => rfl
  | cons donor donors ih =>
      rw [fillFrom_cons, ih, List.getLast?_cons]
      cases donors.getLast? <;> rfl

/-- A parameter filled again from the same donors stays as it is. Witness: a gap that is left has no
donor, a filled one is kept, and the last direction is the last one again.
-/
theorem fillFrom_fillFrom (adoptDirection : Bool) (donors : List Parameter) (parameter : Parameter)
    : fillFrom adoptDirection donors (fillFrom adoptDirection donors parameter)
      = fillFrom adoptDirection donors parameter := by
  have once := gapsFilled_fillFrom adoptDirection donors parameter
  have twice := gapsFilled_fillFrom adoptDirection donors
    (fillFrom adoptDirection donors parameter)
  have description : (fillFrom adoptDirection donors
        (fillFrom adoptDirection donors parameter)).description
      = (fillFrom adoptDirection donors parameter).description := by
    by_cases empty : (fillFrom adoptDirection donors parameter).description = []
    · have none := (description_fillFrom_eq_nil_iff.mp empty).2
      exact (description_fillFrom_eq_nil_iff.mpr ⟨empty, none⟩).trans empty.symm
    · exact twice.description empty
  have type : (fillFrom adoptDirection donors (fillFrom adoptDirection donors parameter)).type
      = (fillFrom adoptDirection donors parameter).type := by
    by_cases typed : ∃ type, Typed (fillFrom adoptDirection donors parameter) type
    · obtain ⟨type, own⟩ := typed
      exact (twice.type type own).1.trans own.1.symm
    · have untyped := not_exists.mp typed
      rcases twice.typed untyped with ⟨same, -⟩ | ⟨donor, among, type, own, -⟩
      · exact same
      · by_cases before : ∃ type, Typed parameter type
        · obtain ⟨type, first⟩ := before
          exact absurd (once.type type first) (untyped type)
        · rcases once.typed (not_exists.mp before) with ⟨-, none⟩ | ⟨-, -, type, -, taken⟩
          · exact absurd own (none donor among type)
          · exact absurd taken (untyped type)
  have direction : (fillFrom adoptDirection donors
        (fillFrom adoptDirection donors parameter)).direction
      = (fillFrom adoptDirection donors parameter).direction := by
    cases adoptDirection with
    | false => exact twice.direction rfl
    | true =>
        rw [direction_fillFrom, direction_fillFrom]
        cases donors.getLast? <;> rfl
  exact Parameter.ext twice.name type direction twice.index description

--------------------------------------------------------------------------------
-- Filling all parameters
--------------------------------------------------------------------------------

section Pairings

variable {declared others documented : List Parameter}

/-- What parameters are paired by. -/
def key (parameter : Parameter) : Text × Option Int :=
  (parameter.name, parameter.index)

theorem names_eq_any_key (parameters : List Parameter) (name : Text)
    : names parameters name = (parameters.map key).any (·.1 = name) := by
  rw [List.any_map]
  rfl

theorem pairByName_eq (declared documented : List Parameter)
    : pairByName declared documented
      = documented.zipIdx.filterMap fun (donor, j) =>
          ((declared.map key).findIdx? (·.1 = donor.name)).map (⟨·, j⟩) := by
  simp only [List.findIdx?_map]
  rfl

theorem pairByIndex_eq (declared documented : List Parameter)
    : pairByIndex declared documented
      = (declared.map key).zipIdx.filterMap fun (key, i) =>
          if names documented key.1 then none
          else
            (documented.findIdx? fun donor =>
              !(declared.map Declaration.key).any (·.1 = donor.name) && donor.index = key.2).map
                (⟨i, ·⟩) := by
  simp only [pairByIndex, names_eq_any_key declared, List.zipIdx_map, List.filterMap_map]
  rfl

/-- Only the names and indices of a declaration decide who fills its parameters. -/
theorem pairings_congr (same : declared.map key = others.map key) (documented : List Parameter)
    : pairings declared documented = pairings others documented := by
  rw [pairings, pairings, pairByName_eq, pairByIndex_eq, same, ← pairByName_eq, ← pairByIndex_eq]

/-- A filled list has the same parameters to pair, at the same places. -/
theorem map_key_fillAll (pairings : List Pairing) (parameters : List Parameter)
    : (fillAll adoptDirection documented pairings parameters).map key = parameters.map key := by
  apply List.ext_getElem?
  intro place
  rw [List.getElem?_map, List.getElem?_map, getElem?_fillAll, Option.map_map]
  congr 1
  funext parameter
  have filled := gapsFilled_fillFrom adoptDirection (donorsAt documented pairings place) parameter
  exact Prod.ext filled.name filled.index

theorem length_fillAll (pairings : List Pairing) (parameters : List Parameter)
    : (fillAll adoptDirection documented pairings parameters).length = parameters.length := by
  have keys := congrArg List.length
    (@map_key_fillAll adoptDirection documented pairings parameters)
  rw [List.length_map, List.length_map] at keys
  exact keys

/-- Parameters filled again by the same pairings stay as they are. -/
theorem fillAll_fillAll (pairings : List Pairing) (parameters : List Parameter)
    : fillAll adoptDirection documented pairings
        (fillAll adoptDirection documented pairings parameters)
      = fillAll adoptDirection documented pairings parameters := by
  apply List.ext_getElem?
  intro place
  rw [getElem?_fillAll, getElem?_fillAll, Option.map_map]
  congr 1
  funext parameter
  exact fillFrom_fillFrom adoptDirection (donorsAt documented pairings place) parameter

/-- A place in no pairing has no donors. -/
theorem donorsAt_eq_nil {pairings : List Pairing} {place : Nat}
    (unpaired : ∀ pairing ∈ pairings, pairing.declared ≠ place)
    : donorsAt documented pairings place = [] := by
  rw [List.eq_nil_iff_forall_not_mem]
  intro donor among
  obtain ⟨pairing, member, here, -⟩ := mem_donorsAt.mp among
  exact unpaired pairing member here

end Pairings

--------------------------------------------------------------------------------
-- Merging
--------------------------------------------------------------------------------

/-- A declaration merged with its documentation. Its name, text and kind stay, and so do its
parameters, each filled from those that are paired with its place. Its description and its return
descriptions are its own unless it has none. Only a macro takes over that it returns, and return
descriptions are taken over only by what returns. -/
structure FillsGaps (adoptDirection : Bool) (declared documentation merged : Declaration)
    : Prop where
  name : merged.name = declared.name
  signature : merged.signature = declared.signature
  indent : merged.indent = declared.indent
  isMacro : merged.isMacro = declared.isMacro
  count : merged.parameters.length = declared.parameters.length
  parameters : ∀ place before after,
    declared.parameters[place]? = some before → merged.parameters[place]? = some after
      → GapsFilled adoptDirection
          (donorsAt documentation.parameters
            (pairings declared.parameters documentation.parameters) place)
          before after
  unpaired : ∀ place,
    (∀ pairing ∈ pairings declared.parameters documentation.parameters,
      pairing.declared ≠ place)
      → merged.parameters[place]? = declared.parameters[place]?
  description : declared.description ≠ [] → merged.description = declared.description
  described : declared.description = [] → merged.description = documentation.description
  returns : merged.returns = (declared.returns || (declared.isMacro && documentation.returns))
  returnDescriptions : declared.returnDescriptions ≠ []
    → merged.returnDescriptions = declared.returnDescriptions
  returning : declared.returnDescriptions = [] → merged.returns = true
    → merged.returnDescriptions = documentation.returnDescriptions
  silent : declared.returnDescriptions = [] → merged.returns = false
    → merged.returnDescriptions = []
  documented : merged.documented = (declared.documented || documentation.documented)

/-- Merging only fills gaps. Witness: every parameter is filled from the donors paired with its
place, whatever names and indices are repeated.
-/
theorem merge_fillsGaps (adoptDirection : Bool) (declared documentation : Declaration)
    : FillsGaps adoptDirection declared documentation
        (merge adoptDirection declared documentation) where
  name := rfl
  signature := rfl
  indent := rfl
  isMacro := rfl
  count := length_fillAll _ _
  parameters := by
    intro place before after stands filled
    have found := @getElem?_fillAll adoptDirection documentation.parameters
      (pairings declared.parameters documentation.parameters) declared.parameters place
    rw [stands] at found
    obtain rfl := Option.some.inj (filled.symm.trans found)
    exact gapsFilled_fillFrom adoptDirection _ before
  unpaired := by
    intro place none
    have found := @getElem?_fillAll adoptDirection documentation.parameters
      (pairings declared.parameters documentation.parameters) declared.parameters place
    rw [donorsAt_eq_nil none] at found
    exact found.trans (by cases declared.parameters[place]? <;> rfl)
  description := by
    intro own
    simp [merge, orElse, own]
  described := by
    intro empty
    simp [merge, orElse, empty]
  returns := rfl
  returnDescriptions := by
    intro own
    simp [merge, own]
  returning := by
    intro empty returning
    have returns : (declared.returns || (declared.isMacro && documentation.returns)) = true :=
      returning
    simp [merge, empty, returns]
  silent := by
    intro empty silent
    have returns : (declared.returns || (declared.isMacro && documentation.returns)) = false :=
      silent
    simp [merge, empty, returns]
  documented := rfl

/-- Documentation that has nothing to add changes nothing. -/
theorem merge_eq_self {declared documentation : Declaration}
    (description : orElse declared.description documentation.description = declared.description)
    (parameters : fillAll adoptDirection documentation.parameters
        (pairings declared.parameters documentation.parameters) declared.parameters
      = declared.parameters)
    (returns : declared.isMacro = true → documentation.returns = true → declared.returns = true)
    (returnDescriptions : declared.returns = true → declared.returnDescriptions = []
      → documentation.returnDescriptions = [])
    (documented : documentation.documented = true → declared.documented = true)
    : merge adoptDirection declared documentation = declared := by
  have sameReturns : (declared.returns || (declared.isMacro && documentation.returns))
      = declared.returns := by
    rw [Bool.or_eq_left_iff_imp, Bool.and_eq_true]
    exact fun both => returns both.1 both.2
  have sameDescriptions : (if declared.returnDescriptions.isEmpty && declared.returns
        then documentation.returnDescriptions else declared.returnDescriptions)
      = declared.returnDescriptions := by
    split
    · next both =>
      rw [Bool.and_eq_true, List.isEmpty_iff] at both
      rw [returnDescriptions both.2 both.1, both.1]
    · rfl
  have sameDocumented : (declared.documented || documentation.documented) = declared.documented :=
    Bool.or_eq_left_iff_imp.mpr documented
  simp only [merge, description, parameters, sameReturns, sameDescriptions, sameDocumented]

/-- Merging again with the same documentation changes nothing. Witness: the names and indices stay,
so the second run has the same pairings, and what they left empty stays empty.
-/
theorem merge_idempotent (adoptDirection : Bool) (declared documentation : Declaration)
    : merge adoptDirection (merge adoptDirection declared documentation) documentation
      = merge adoptDirection declared documentation := by
  apply merge_eq_self
  case description => exact orElse_orElse declared.description documentation.description
  case parameters =>
    have same : (merge adoptDirection declared documentation).parameters.map key
        = declared.parameters.map key :=
      map_key_fillAll _ _
    rw [pairings_congr same]
    exact fillAll_fillAll _ _
  case returns =>
    intro isMacro returns
    have macroReturns : declared.isMacro = true := isMacro
    simp [merge, macroReturns, returns]
  case returnDescriptions =>
    -- what returns has taken the return descriptions over unless it had its own
    intro returns empty
    have returning : (declared.returns || (declared.isMacro && documentation.returns)) = true :=
      returns
    by_cases own : declared.returnDescriptions = []
    · simpa [merge, own, returning] using empty
    · simp [merge, own] at empty
  case documented =>
    intro documented
    simp [merge, documented]

end DocBlock.Declaration
