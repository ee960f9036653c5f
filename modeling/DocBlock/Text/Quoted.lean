import DocBlock.Text.Scan
import DocBlock.Unicode.Unprintable

/-! Quoting a text for a message, so that its extent and its invisible characters show. -/

namespace DocBlock.Text

/-- Hexadecimal digits, padded with zeros to a width. -/
def hexPadded (width n : Nat) : Text :=
  let digits := Nat.toDigits 16 n
  List.replicate (width - digits.length) '0' ++ digits

/-- A character by its number: two, four or eight digits. -/
def numericEscape (c : Char) : Text :=
  let n := c.toNat
  if n < 0x100 then '\\' :: 'x' :: hexPadded 2 n
  else if n < 0x10000 then '\\' :: 'u' :: hexPadded 4 n
  else '\\' :: 'U' :: hexPadded 8 n

/-- A character inside quotes. -/
def quotedChar (quote c : Char) : Text :=
  if c = quote || c = '\\' then ['\\', c]
  else if c = '\n' then ['\\', 'n']
  else if c = '\r' then ['\\', 'r']
  else if c = '\t' then ['\\', 't']
  else if Unicode.isUnprintable c then numericEscape c
  else [c]

/-- Single quotes, unless the text has some and no double quote. -/
def quoteFor (text : Text) : Char :=
  if contains ['\''] text && !contains ['"'] text then '"' else '\''

/-- The text in quotes. -/
def quoted (text : Text) : Text :=
  let quote := quoteFor text
  quote :: text.flatMap (quotedChar quote) ++ [quote]

end DocBlock.Text
