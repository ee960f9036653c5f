import DocBlock.Text.Scan

/-! Comments in source text: hiding them without moving anything else, and deleting them. -/

namespace DocBlock.Comment

open Text (Reader)

/-- A closed block comment. The `*/` starts at least two characters after the `/*`, so `/*/` is
still open. -/
def block? : Reader Text := fun text => do
  let rest ← Text.after? "/*".toList text
  let (body, later) ← Text.cut? "*/".toList rest
  some ("/*".toList ++ body ++ "*/".toList, later)

/-- A line comment, up to and without the line feed. -/
def line? : Reader Text := fun text => do
  let rest ← Text.after? "//".toList text
  some ("//".toList ++ rest.takeWhile (· ≠ '\n'), rest.dropWhile (· ≠ '\n'))

/-- A comment of either kind. -/
def comment? : Reader Text := fun text =>
  block? text <|> line? text

/-- Overwrite everything but line feeds with spaces. -/
def blankOut (text : Text) : Text :=
  text.map fun c => if c = '\n' then '\n' else ' '

/-- Overwrite comments with spaces, keeping all offsets and line feeds. An unclosed block comment
stays. -/
def mask (text : Text) : Text :=
  Text.replaceAll (fun text => (comment? text).map fun (found, later) => (blankOut found, later))
    text

/-- Characters that end a statement or a block, or start a directive. -/
def isDelimiter (c : Char) : Bool :=
  c = '{' || c = '}' || c = ';' || c = '#'

/-- The part of `text` from the last character at which `masked` has a delimiter. -/
def fromLastDelimiter? : (text masked : Text) → Option Text
  | [], _ => none
  | _, [] => none
  | c :: text, m :: masked =>
    match fromLastDelimiter? text masked with
    | some found => some found
    | none => if isDelimiter m then some (c :: text) else none

/-- The text from its last delimiter outside comments on; all of it if there is none. -/
def sinceLastDelimiter (text : Text) : Text :=
  (fromLastDelimiter? text (mask text)).getD text

/-- Delete everything a reader finds. -/
def delete (read : Reader Text) (text : Text) : Text :=
  Text.replaceAll (fun text => (read text).map fun (_, later) => ([], later)) text

/-- The text after the first line feed that no backslash precedes. -/
def afterDirective? : Text → Option Text
  | [] => none
  | '\\' :: '\n' :: rest => afterDirective? rest
  | c :: rest => if c = '\n' then some rest else afterDirective? rest

/-- Delete a directive, with its continuation lines, at the start of the text. -/
def withoutDirective : Text → Text
  | '#' :: rest => (afterDirective? rest).getD ('#' :: rest)
  | text => text

/-- Delete block comments, then line comments, and then a directive at the start. -/
def strip (text : Text) : Text :=
  withoutDirective (delete line? (delete block? text))

end DocBlock.Comment
