import DocBlock.Declaration.Basic

/-! Combining a freshly read declaration with what its old comment says. The declaration decides
the structure; the comment only fills what the declaration leaves empty. -/

namespace DocBlock.Declaration

/-- A parameter of the declaration and the documented parameter that describes it, each by its
place in its list. -/
structure Pairing where
  declared : Nat
  donor : Nat
  deriving Repr, DecidableEq

/-- Some parameter has that name. -/
def names (parameters : List Parameter) (name : Text) : Bool :=
  parameters.any (·.name = name)

/-- Every documented parameter goes to the first declared one of its name. -/
def pairByName (declared documented : List Parameter) : List Pairing :=
  documented.zipIdx.filterMap fun (donor, j) =>
    (declared.findIdx? (·.name = donor.name)).map (⟨·, j⟩)

/-- A declared parameter whose name is not documented takes the first documented parameter with its
index whose name is not declared. This carries a description across a rename. -/
def pairByIndex (declared documented : List Parameter) : List Pairing :=
  declared.zipIdx.filterMap fun (parameter, i) =>
    if names documented parameter.name then none
    else
      (documented.findIdx? fun donor =>
        !names declared donor.name && donor.index = parameter.index).map (⟨i, ·⟩)

/-- Pair parameters by name, and what is left over by index. -/
def pairings (declared documented : List Parameter) : List Pairing :=
  pairByName declared documented ++ pairByIndex declared documented

/-- The first text unless it is empty. -/
def orElse (mine others : Text) : Text :=
  if mine.isEmpty then others else mine

/-- The first type unless it is missing or empty and the other one is not. -/
def typeOrElse (mine others : Option Text) : Option Text :=
  if mine.all List.isEmpty && others.any (!·.isEmpty) then others else mine

/-- Fill the empty fields of a parameter. Its direction is replaced on demand, even by none. -/
def fill (adoptDirection : Bool) (donor parameter : Parameter) : Parameter :=
  {
    parameter with
    description := orElse parameter.description donor.description
    direction := if adoptDirection then donor.direction else parameter.direction
    type := typeOrElse parameter.type donor.type
  }

/-- Fill parameters one pairing after the other. -/
def fillAll (adoptDirection : Bool) (documented : List Parameter)
    (pairings : List Pairing) (parameters : List Parameter)
    : List Parameter :=
  pairings.foldl
    (fun parameters pairing =>
      match documented[pairing.donor]? with
      | some donor => parameters.modify pairing.declared (fill adoptDirection donor)
      | none => parameters)
    parameters

/-- Fill the gaps of a declaration from its documentation. Documented parameters that no longer
exist are dropped. A macro has no return type, so there the documentation decides whether it
returns. -/
def merge (adoptDirection : Bool) (declared documentation : Declaration) : Declaration :=
  let returns := declared.returns || (declared.isMacro && documentation.returns)
  {
    declared with
    description := orElse declared.description documentation.description
    parameters :=
      fillAll adoptDirection documentation.parameters
        (pairings declared.parameters documentation.parameters) declared.parameters
    returns
    returnDescriptions :=
      if declared.returnDescriptions.isEmpty && returns then documentation.returnDescriptions
      else declared.returnDescriptions
    documented := declared.documented || documentation.documented
  }

end DocBlock.Declaration
