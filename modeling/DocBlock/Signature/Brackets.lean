import DocBlock.Text.Lines

/-! Splitting a parameter list at the commas that no bracket encloses. -/

namespace DocBlock.Signature.Brackets

/-- The bracket that closes an opening bracket. -/
def closer? : Char → Option Char
  | '(' => some ')'
  | '[' => some ']'
  | '{' => some '}'
  | '<' => some '>'
  | _ => none

/-- The closers still awaited, innermost first, after one more character. A closer that is not the
innermost one awaited is ordinary text. -/
def step (stack : List Char) (c : Char) : List Char :=
  match closer? c with
  | some closer => closer :: stack
  | none => if stack.head? = some c then stack.tail else stack

/-- The closers awaited after a text. -/
def stackAfter (text : Text) : List Char :=
  text.foldl step []

/-- Split at the commas met while no closer is awaited. -/
def splitFrom (stack : List Char) : Text → List Text
  | [] => [[]]
  | c :: rest =>
    if c = ',' && stack.isEmpty then [] :: splitFrom stack rest
    else Text.consFirst c (splitFrom (step stack c) rest)

/-- Split at the commas outside all brackets; always at least one part. -/
def splitAtCommas (text : Text) : List Text :=
  splitFrom [] text

end DocBlock.Signature.Brackets
