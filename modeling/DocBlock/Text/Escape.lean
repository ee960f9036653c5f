import DocBlock.Text.Scan

/-! Replacement texts, in which a backslash introduces a character by its letter or its number, or
stands for the text that is replaced. -/

namespace DocBlock.Text

/-- The character that a character behind a backslash stands for. -/
def namedEscape? : Char → Option Char
  | 'a' => some '\x07'
  | 'b' => some '\x08'
  | 't' => some '\t'
  | 'n' => some '\n'
  | 'v' => some '\x0b'
  | 'f' => some '\x0c'
  | 'r' => some '\r'
  | '\\' => some '\\'
  | _ => none

/-- An octal digit. -/
def isOctalDigit (c : Char) : Bool :=
  '0' ≤ c && c ≤ '7'

/-- A character by its octal number: three digits, or fewer that start with a zero. -/
def octalEscape? : Reader Char := fun text =>
  let digits := (text.takeWhile isOctalDigit).take 3
  let value := digits.foldl (fun n c => 8 * n + (c.toNat - '0'.toNat)) 0
  if (digits.length = 3 || digits.head? = some '0') && value < 0x100 then
    some (Char.ofNat value, text.drop digits.length)
  else none

/-- The number zero in angle brackets behind a `g`: the rest of the text after it. -/
def wholeEscape? (text : Text) : Option Text :=
  (after? ['g', '<', '0'] text).bind fun rest => after? ['>'] (rest.dropWhile (· = '0'))

/-- A backslash and what belongs to it. -/
def escape? (replaced : Text) : Reader Text
  | '\\' :: c :: rest =>
    match namedEscape? c, wholeEscape? (c :: rest) with
    | some named, _ => some ([named], rest)
    | none, some later => some (replaced, later)
    | none, none => (octalEscape? (c :: rest)).map fun (c, later) => ([c], later)
  | _ => none

/-- The text that stands in for `replaced`. A backslash that introduces nothing stands for
itself. -/
def replacement (template replaced : Text) : Text :=
  replaceAll (escape? replaced) template

end DocBlock.Text
