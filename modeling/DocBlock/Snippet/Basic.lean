import DocBlock.Text.Basic

/-! Editor snippets: literal text with numbered fields to fill in. An empty field is written `$1`
and one with a default text `${2:text}`; fields are numbered from one in order of appearance. -/

namespace DocBlock

/-- A stretch of literal text, or a field with its default text. -/
inductive Piece where
  | literal (text : Text)
  | field (value : Text)
  deriving Repr, DecidableEq

/-- A snippet before its fields are numbered. -/
abbrev Snippet := List Piece

namespace Snippet

/-- Characters with a meaning in snippet syntax. -/
def isSpecial (c : Char) : Bool :=
  c = '$' || c = '}' || c = '\\'

/-- Put a backslash before every special character. -/
def escape : Text → Text
  | [] => []
  | c :: rest => if isSpecial c then '\\' :: c :: escape rest else c :: escape rest

/-- The field with the given number and default text. -/
def fieldText (number : Nat) (value : Text) : Text :=
  let digits := Nat.toDigits 10 number
  if value.isEmpty then '$' :: digits
  else '$' :: '{' :: digits ++ ':' :: escape value ++ ['}']

/-- Write the pieces, numbering fields from `number` on. -/
def renderFrom (number : Nat) : Snippet → Text
  | [] => []
  | .literal text :: rest => escape text ++ renderFrom number rest
  | .field value :: rest => fieldText number value ++ renderFrom (number + 1) rest

/-- The text of a snippet. -/
def render (snippet : Snippet) : Text :=
  renderFrom 1 snippet

/-- The text that remains when every field keeps its default. -/
def expansion (snippet : Snippet) : Text :=
  snippet.flatMap fun
    | .literal text => text
    | .field value => value

end Snippet

end DocBlock
