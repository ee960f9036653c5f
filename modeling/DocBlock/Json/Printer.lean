import DocBlock.Json.Basic

/-! Writing JSON text in ASCII, on one line or indented. -/

namespace DocBlock.Json

/-- A `\u` escape of one unit. -/
def unitEscape (unit : Nat) : Text :=
  let digits := Nat.toDigits 16 unit
  '\\' :: 'u' :: List.replicate (4 - digits.length) '0' ++ digits

/-- How one character is written in a string: printable ASCII as itself, the usual controls by a
letter, all else by its UTF-16 units. -/
def charText (c : Char) : Text :=
  match c with
  | '"' => "\\\"".toList
  | '\\' => "\\\\".toList
  | '\n' => "\\n".toList
  | '\r' => "\\r".toList
  | '\t' => "\\t".toList
  | '\x08' => "\\b".toList
  | '\x0c' => "\\f".toList
  | c =>
    let n := c.toNat
    if 0x20 ≤ n && n < 0x7F then [c]
    else if n < 0x10000 then unitEscape n
    else
      unitEscape (0xD800 + (n - 0x10000) / 0x400) ++ unitEscape (0xDC00 + (n - 0x10000) % 0x400)

/-- A string in quotes. -/
def quoted (text : Text) : Text :=
  '"' :: text.flatMap charText ++ ['"']

/-- How the parts of arrays and objects are laid out. -/
structure Layout where
  /-- What stands before an element at a depth. -/
  before : Nat → Text
  /-- What stands between a field's name and its value. -/
  colon : Text
  /-- What stands between two elements. -/
  comma : Text

/-- Everything on one line. -/
def Layout.compact : Layout :=
  { before := fun _ => [], colon := [':'], comma := [','] }

/-- One element a line, two spaces deeper at each level. -/
def Layout.indented : Layout :=
  {
    before := fun depth => '\n' :: List.replicate (2 * depth) ' '
    colon := [':', ' ']
    comma := [',']
  }

/-- Elements between brackets. -/
def Layout.enclose (layout : Layout) (depth : Nat) (opening closing : Char) (elements : List Text)
    : Text :=
  if elements.isEmpty then [opening, closing]
  else
    let placed := elements.map fun element => layout.before (depth + 1) ++ element
    opening :: Text.join layout.comma placed ++ layout.before depth ++ [closing]

mutual

/-- The text of a value at a depth. -/
def textAt (layout : Layout) (depth : Nat) : Json → Text
  | .null => "null".toList
  | .bool value => (if value then "true" else "false").toList
  | .int value => Decimal.digitsOfInt value
  | .decimal value => value.text
  | .infinity negative => (if negative then "-Infinity" else "Infinity").toList
  | .nan => "NaN".toList
  | .string value => quoted value
  | .array items => layout.enclose depth '[' ']' (itemTexts layout (depth + 1) items)
  | .object fields => layout.enclose depth '{' '}' (fieldTexts layout (depth + 1) fields)

/-- The texts of the items of an array. -/
def itemTexts (layout : Layout) (depth : Nat) : List Json → List Text
  | [] => []
  | item :: rest => textAt layout depth item :: itemTexts layout depth rest

/-- The texts of the fields of an object. -/
def fieldTexts (layout : Layout) (depth : Nat) : List (Text × Json) → List Text
  | [] => []
  | (name, value) :: rest =>
    (quoted name ++ layout.colon ++ textAt layout depth value) :: fieldTexts layout depth rest

end

/-- The text of a value on one line. -/
def compact (json : Json) : Text :=
  textAt .compact 0 json

/-- The text of a value with one element a line. -/
def indented (json : Json) : Text :=
  textAt .indented 0 json

end DocBlock.Json
