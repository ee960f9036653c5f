import DocBlock.Text.Scan

/-! Block comments as a reader of source text meets them, from left to right. This is the standard
against which the searches for comment openings and ends are measured. -/

namespace DocBlock.Comment

/-- Where a left-to-right reader stands: in code, in a documentation comment, or in another block
comment. -/
inductive Place where
  | code
  | documentation
  | plain
  deriving Repr, DecidableEq

/-- Read on from a place, with `skip` characters still belonging to the last opening or end. An end
starts at least two characters after its opening, so `/*/` is still open. -/
def placeFrom : (place : Place) → (skip : Nat) → Text → Place
  | place, _, [] => place
  | place, skip + 1, _ :: rest => placeFrom place skip rest
  | .code, 0, c :: rest =>
    if Text.startsWith "/**".toList (c :: rest) then placeFrom .documentation 1 rest
    else if Text.startsWith "/*".toList (c :: rest) then placeFrom .plain 1 rest
    else placeFrom .code 0 rest
  | place, 0, c :: rest =>
    if Text.startsWith "*/".toList (c :: rest) then placeFrom .code 1 rest
    else placeFrom place 0 rest

/-- Where a reader stands after a text. -/
def placeAfter (text : Text) : Place :=
  placeFrom .code 0 text

end DocBlock.Comment
