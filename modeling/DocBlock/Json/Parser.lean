import DocBlock.Json.Basic
import DocBlock.Number.Binary64
import DocBlock.Text.Scan

/-! Reading JSON text. Besides the standard, `NaN`, `Infinity` and `-Infinity` are numbers, and a
byte order mark may come first; a repeated field keeps its first position and its last value. -/

namespace DocBlock.Json

open Text (Reader)

--------------------------------------------------------------------------------
-- White space and numbers
--------------------------------------------------------------------------------

/-- The white space of the format. -/
def isPadding (c : Char) : Bool :=
  c = ' ' || c = '\t' || c = '\n' || c = '\r'

/-- Skip white space. -/
def skip (text : Text) : Text :=
  text.dropWhile isPadding

/-- Whole numbers of more digits than this are refused. -/
def maxIntDigits : Nat :=
  4300

/-- The digits of a whole number without sign: a zero, or a run that starts otherwise. -/
def wholeDigits? : Reader Text
  | [] => none
  | c :: rest =>
    if c = '0' then some ([c], rest)
    else if c.isDigit then some (c :: rest.takeWhile Char.isDigit, rest.dropWhile Char.isDigit)
    else none

/-- A point and digits. -/
def fraction? : Reader Text
  | '.' :: rest =>
    let digits := rest.takeWhile Char.isDigit
    if digits.isEmpty then none else some (digits, rest.dropWhile Char.isDigit)
  | _ => none

/-- An exponent mark, an optional sign and digits. -/
def exponent? : Reader Int
  | [] => none
  | c :: rest =>
    if c = 'e' || c = 'E' then
      let (negative, rest) :=
        match rest with
        | '-' :: rest => (true, rest)
        | '+' :: rest => (false, rest)
        | rest => (false, rest)
      let digits := rest.takeWhile Char.isDigit
      if digits.isEmpty then none
      else
        let value : Int := Decimal.ofDigits digits
        some (if negative then -value else value, rest.dropWhile Char.isDigit)
    else none

/-- The value a decimal denotes; beyond the range of binary floating point it is infinite. -/
def ofDecimal (decimal : Decimal) : Json :=
  match Binary64.ofDecimal decimal with
  | .finite _ _ => .decimal decimal
  | .infinite => .infinity decimal.negative

/-- A number after its sign. -/
def unsigned? (negative : Bool) : Reader Json := fun text => do
  let (whole, rest) ← wholeDigits? text
  let fraction := fraction? rest
  let rest := (fraction.map (·.2)).getD rest
  let exponent := exponent? rest
  let rest := (exponent.map (·.2)).getD rest
  if fraction.isNone && exponent.isNone then
    if whole.length > maxIntDigits then none
    else
      let value : Int := Decimal.ofDigits whole
      some (.int (if negative then -value else value), rest)
  else
    let decimals := (fraction.map (·.1)).getD []
    some (
      ofDecimal {
        negative
        digits := Decimal.ofDigits (whole ++ decimals)
        exponent := (exponent.map (·.1)).getD 0 - decimals.length
      },
      rest)

/-- A number. -/
def number? : Reader Json
  | '-' :: rest => unsigned? true rest
  | text => unsigned? false text

--------------------------------------------------------------------------------
-- Strings
--------------------------------------------------------------------------------

/-- The value of a hexadecimal digit. -/
def hexValue? (c : Char) : Option Nat :=
  if c.isDigit then some (c.toNat - '0'.toNat)
  else if 'a' ≤ c && c ≤ 'f' then some (c.toNat - 'a'.toNat + 10)
  else if 'A' ≤ c && c ≤ 'F' then some (c.toNat - 'A'.toNat + 10)
  else none

/-- Four hexadecimal digits. -/
def hexUnit? : Reader Nat
  | a :: b :: c :: d :: rest => do
    let value ← [a, b, c, d].foldlM (fun value digit => (hexValue? digit).map (16 * value + ·)) 0
    some (value, rest)
  | _ => none

/-- The character of a `\u` escape, whose unit is read, with the second half of a surrogate pair.
A lone surrogate becomes the replacement character. -/
def unitCharacter (unit : Nat) (rest : Text) : Char × Text :=
  let lone := (if unit < 0xD800 || 0xE000 ≤ unit then Char.ofNat unit else '\ufffd', rest)
  if 0xD800 ≤ unit && unit < 0xDC00 then
    match (Text.after? ['\\', 'u'] rest).bind hexUnit? with
    | some (low, later) =>
      if 0xDC00 ≤ low && low < 0xE000 then
        (Char.ofNat (0x10000 + (unit - 0xD800) * 0x400 + (low - 0xDC00)), later)
      else lone
    | none => lone
  else lone

/-- The character an escape stands for, after its backslash. -/
def escape? : Reader Char
  | [] => none
  | c :: rest =>
    match c with
    | '"' | '\\' | '/' => some (c, rest)
    | 'b' => some ('\x08', rest)
    | 'f' => some ('\x0c', rest)
    | 'n' => some ('\n', rest)
    | 'r' => some ('\r', rest)
    | 't' => some ('\t', rest)
    | 'u' => (hexUnit? rest).map fun (unit, rest) => unitCharacter unit rest
    | _ => none

/-- The characters of a string up to its closing quote. Control characters are refused. -/
def stringRest? : (fuel : Nat) → Reader Text
  | 0, _ => none
  | _, [] => none
  | fuel + 1, c :: rest =>
    if c = '"' then some ([], rest)
    else if c = '\\' then do
      let (char, rest) ← escape? rest
      let (chars, rest) ← stringRest? fuel rest
      some (char :: chars, rest)
    else if c.toNat < 0x20 then none
    else do
      let (chars, rest) ← stringRest? fuel rest
      some (c :: chars, rest)

/-- A string in quotes. -/
def string? : Reader Text
  | '"' :: rest => stringRest? (rest.length + 1) rest
  | _ => none

--------------------------------------------------------------------------------
-- Values
--------------------------------------------------------------------------------

/-- The named values. -/
def keywords : List (Text × Json) :=
  [("null", Json.null), ("true", .bool true), ("false", .bool false), ("NaN", .nan),
    ("Infinity", .infinity false), ("-Infinity", .infinity true)].map
      fun (name, value) => (name.toList, value)

/-- A named value, a number or a string. -/
def scalar? : Reader Json := fun text =>
  match keywords.findSome? fun (name, value) => (Text.after? name text).map (value, ·) with
  | some found => some found
  | none =>
    match string? text with
    | some (value, rest) => some (.string value, rest)
    | none => number? text

mutual

/-- A value. Every nested call takes at least one character, so a fuel of twice the length never
runs out. -/
def value? : (fuel : Nat) → Reader Json
  | 0, _ => none
  | fuel + 1, text =>
    match text with
    | '[' :: rest =>
      match skip rest with
      | ']' :: rest => some (.array [], rest)
      | rest => (items? fuel rest).map fun (items, rest) => (.array items, rest)
    | '{' :: rest =>
      match skip rest with
      | '}' :: rest => some (.object [], rest)
      | rest => (entries? fuel rest).map fun (entries, rest) =>
          (.object (Fields.ofEntries entries), rest)
    | text => scalar? text

/-- The items of an array up to its closing bracket, at least one. -/
def items? : (fuel : Nat) → Reader (List Json)
  | 0, _ => none
  | fuel + 1, text => do
    let (item, rest) ← value? fuel text
    match skip rest with
    | ']' :: rest => some ([item], rest)
    | ',' :: rest =>
      let (items, rest) ← items? fuel (skip rest)
      some (item :: items, rest)
    | _ => none

/-- The fields of an object up to its closing brace, at least one. -/
def entries? : (fuel : Nat) → Reader (List (Text × Json))
  | 0, _ => none
  | fuel + 1, text => do
    let (name, rest) ← string? text
    match skip rest with
    | ':' :: rest =>
      let (value, rest) ← value? fuel (skip rest)
      match skip rest with
      | '}' :: rest => some ([(name, value)], rest)
      | ',' :: rest =>
        let (entries, rest) ← entries? fuel (skip rest)
        some ((name, value) :: entries, rest)
      | _ => none
    | _ => none

end

/-- The value a text holds, if it is one value with white space around it. -/
def parse? (text : Text) : Option Json :=
  let text := (Text.after? ['\ufeff'] text).getD text
  match value? (2 * text.length + 2) (skip text) with
  | some (value, rest) => if (skip rest).isEmpty then some value else none
  | none => none

end DocBlock.Json
