import DocBlock.Declaration.Basic
import DocBlock.Signature.Brackets

/-! Reading the parameter list of a declaration: each segment between top-level commas is a type, a
gap of white space and stars, a name and array suffixes. Segments of another form are skipped but
keep their place in the numbering. -/

namespace DocBlock.Signature

/-- Where a run of array suffixes stands: after a name or `]`, in white space that a `[` must
follow, or between brackets. -/
inductive ArrayState where
  | complete
  | spaced
  | inside
  deriving Repr, DecidableEq

/-- The text continues and ends a run of array suffixes such as `[4] [n]`. -/
def continuesArrays : ArrayState → Text → Bool
  | state, [] => state = .complete
  | .inside, c :: rest => continuesArrays (if c = ']' then .complete else .inside) rest
  | _, c :: rest =>
    if c = '[' then continuesArrays .inside rest
    else Text.isSpace c && continuesArrays .spaced rest

/-- The text is a run of array suffixes, possibly empty. -/
def isArraySuffix (text : Text) : Bool :=
  continuesArrays .complete text

/-- A segment taken apart. -/
structure Declarator where
  type : Text := []
  gap : Text
  name : Text
  arrays : Text
  deriving Repr, DecidableEq

namespace Declarator

/-- What follows the type: a gap, a name and array suffixes up to the end. -/
def afterType? (text : Text) : Option Declarator :=
  let gap := text.takeWhile Text.isSpaceOrStar
  match Text.identifier? (text.dropWhile Text.isSpaceOrStar) with
  | some (name, arrays) =>
    if !gap.isEmpty && isArraySuffix arrays then some { gap, name, arrays } else none
  | none => none

/-- Take a segment apart behind the shortest type that ends in neither white space nor a star. -/
def read? : Text → Option Declarator
  | [] => none
  | c :: rest =>
    ((if Text.isSpaceOrStar c then none else afterType? rest).map ({ · with type := [c] }))
      <|> (read? rest).map fun declarator => { declarator with type := c :: declarator.type }

/-- The type in one spelling: single spaces, then the stars, then the array suffixes. -/
def fullType (declarator : Declarator) : Text :=
  let stars := Text.withoutSpace declarator.gap
  Text.unwords (Text.words declarator.type)
    ++ (if stars.isEmpty then [] else ' ' :: stars)
    ++ Text.withoutSpace declarator.arrays

end Declarator

/-- The parameter a segment declares. A default argument is not part of it. -/
def parameterOfSegment? (inferDirection : Bool) (segment : Text) (index : Nat) : Option Parameter :=
  (Declarator.read? (Text.trim (segment.takeWhile (· ≠ '=')))).map fun declarator =>
    Parameter.declared declarator.name (some declarator.fullType) (some index) inferDirection

/-- The named parameters of the text between the parentheses. -/
def readParameters (inferDirection : Bool) (text : Text) : List Parameter :=
  if Text.trim text = "void".toList then []
  else
    ((Brackets.splitAtCommas text).zipIdx).filterMap fun (segment, index) =>
      parameterOfSegment? inferDirection segment index

end DocBlock.Signature
