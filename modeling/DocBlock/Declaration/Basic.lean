import DocBlock.Text.Scan

/-! The model of a documented declaration: a function, a function-pointer type or a macro, or what
an existing comment says about one. -/

namespace DocBlock

/-- A formal parameter or macro argument, as the source or its documentation shows it. -/
structure Parameter where
  name : Text
  /-- Absent for macro arguments and for documented parameters. -/
  type : Option Text := none
  /-- What stands in the square brackets of its tag. -/
  direction : Option Text := none
  /-- Position in the parameter list. -/
  index : Option Int := none
  description : Text := []
  deriving Repr, DecidableEq

/-- A declaration together with what is documented about it. -/
structure Declaration where
  /-- Empty when the model was read from a comment. -/
  name : Text := []
  returns : Bool := false
  parameters : List Parameter := []
  description : Text := []
  /-- Each starts with its tag keyword, such as `retval 0 on success`. -/
  returnDescriptions : List Text := []
  /-- The declaration as it stands in the source. -/
  signature : Text := []
  indent : Text := []
  /-- A documentation comment contributed to the model. -/
  documented : Bool := false
  isMacro : Bool := false
  deriving Repr, DecidableEq

namespace Parameter

/-- A pointer to something that is not constant may be written through. -/
def isWritable (type : Text) : Bool :=
  Text.contains ['*'] type && !Text.contains "const".toList type

/-- The direction a type suggests; without a type a parameter is an input. -/
def directionOf (type : Option Text) : Text :=
  if type.any isWritable then "in,out".toList else "in".toList

/-- A parameter as a declaration shows it, with its direction inferred on demand. -/
def declared (name : Text) (type : Option Text) (index : Option Int) (inferDirection : Bool)
    : Parameter :=
  { name, type, index, direction := if inferDirection then some (directionOf type) else none }

end Parameter

namespace Declaration

/-- The first parameter of that name. -/
def parameter? (declaration : Declaration) (name : Text) : Option Parameter :=
  declaration.parameters.find? (·.name = name)

end Declaration

end DocBlock
