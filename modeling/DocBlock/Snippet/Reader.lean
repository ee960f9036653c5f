import DocBlock.Snippet.Basic

/-! Reading snippet text the way an editor does. A backslash before a special character makes it
literal; `$` and digits is an empty field; `${`, digits and `:` open a field whose default text runs
to the first closing brace without a backslash; anything else is literal. -/

namespace DocBlock.Snippet

/-- What an editor sees: characters of literal text, and numbered fields. -/
inductive Token where
  | char (c : Char)
  | field (number : Nat) (value : Text)
  deriving Repr, DecidableEq

/-- The default text of a field up to its closing brace, unescaped, and the number of characters
read with the brace. -/
def fieldValue? : Text → Option (Text × Nat)
  | [] => none
  | [c] => if c = '}' then some ([], 1) else none
  | c :: d :: rest =>
    if c = '}' then some ([], 1)
    else if c = '\\' && isSpecial d then
      (fieldValue? rest).map fun (value, size) => (d :: value, size + 2)
    else (fieldValue? (d :: rest)).map fun (value, size) => (c :: value, size + 1)

/-- The number that a run of ASCII digits writes. -/
def number (digits : Text) : Nat :=
  digits.foldl (fun value digit => 10 * value + (digit.toNat - '0'.toNat)) 0

/-- The field after a `$`, and the number of characters it takes after the `$`. -/
def field? (text : Text) : Option (Token × Nat) :=
  match text with
  | '{' :: rest =>
    let digits := rest.takeWhile Char.isDigit
    match rest.drop digits.length with
    | ':' :: later =>
      if digits.isEmpty then none
      else (fieldValue? later).map fun (value, size) =>
        (.field (number digits) value, digits.length + size + 2)
    | _ => none
  | _ =>
    let digits := text.takeWhile Char.isDigit
    if digits.isEmpty then none else some (.field (number digits) [], digits.length)

/-- Read with `skip` characters still belonging to the last token. -/
def readFrom : (skip : Nat) → Text → List Token
  | _, [] => []
  | skip + 1, _ :: rest => readFrom skip rest
  | 0, c :: rest =>
    if c = '\\' then
      match rest with
      | d :: _ => if isSpecial d then .char d :: readFrom 1 rest else .char c :: readFrom 0 rest
      | [] => [.char c]
    else if c = '$' then
      match field? rest with
      | some (token, size) => token :: readFrom size rest
      | none => .char c :: readFrom 0 rest
    else .char c :: readFrom 0 rest

/-- The tokens an editor sees in a snippet's text. -/
def read (text : Text) : List Token :=
  readFrom 0 text

/-- A snippet's text with every field replaced by its default. -/
def expand (text : Text) : Text :=
  (read text).flatMap fun
    | .char c => [c]
    | .field _ value => value

end DocBlock.Snippet
