import DocBlock.Text.Scan

/-! Splitting text into lines, in the three senses the library needs: at line feeds, at the line
breaks of source files, and at every Unicode line boundary. -/

namespace DocBlock.Text

/-- Put a character in front of the first part. -/
def consFirst (c : Char) : List Text → List Text
  | [] => [[c]]
  | part :: rest => (c :: part) :: rest

/-- Split at every `separator`; always at least one part. -/
def splitOn (separator : Char) : Text → List Text
  | [] => [[]]
  | c :: rest =>
    if c = separator then [] :: splitOn separator rest
    else consFirst c (splitOn separator rest)

/-- The lines between line feeds; a final line feed leaves an empty last line. -/
def lines (text : Text) : List Text :=
  splitOn '\n' text

/-- The lines between `\r\n`, `\r` and `\n`; a final break leaves an empty last line. -/
def sourceLines : Text → List Text
  | [] => [[]]
  | '\r' :: '\n' :: rest => [] :: sourceLines rest
  | c :: rest =>
    if c = '\r' || c = '\n' then [] :: sourceLines rest
    else consFirst c (sourceLines rest)

/-- A character that ends a line in the Unicode sense. -/
def isLineBoundary (c : Char) : Bool :=
  let n := c.toNat
  (0x0A ≤ n && n ≤ 0x0D) || (0x1C ≤ n && n ≤ 0x1E) || n = 0x85 || n = 0x2028 || n = 0x2029

/-- The lines between Unicode line boundaries; a final boundary leaves no empty line. -/
def unicodeLines : Text → List Text
  | [] => []
  | '\r' :: '\n' :: rest => [] :: unicodeLines rest
  | c :: rest =>
    if isLineBoundary c then [] :: unicodeLines rest
    else consFirst c (unicodeLines rest)

/-- Put line feeds between the lines. -/
def unlines (parts : List Text) : Text :=
  join ['\n'] parts

/-- What follows the last line break. -/
def afterLastBreak (text : Text) : Text :=
  ((sourceLines text).getLast?).getD []

/-- Turn every `\r\n` into a line feed. -/
def normaliseBreaks : Text → Text
  | [] => []
  | '\r' :: '\n' :: rest => '\n' :: normaliseBreaks rest
  | c :: rest => c :: normaliseBreaks rest

/-- Turn every `\r\n` and every remaining `\r` into a line feed, as reading a text file does. -/
def universalBreaks : Text → Text
  | [] => []
  | '\r' :: '\n' :: rest => '\n' :: universalBreaks rest
  | c :: rest => (if c = '\r' then '\n' else c) :: universalBreaks rest

/-- Remove blank lines, as `blank` understands them, from both ends. -/
def trimLines (blank : Text → Bool) (parts : List Text) : List Text :=
  ((parts.dropWhile blank).reverse.dropWhile blank).reverse

/-- The remaining text after each line feed. -/
def afterBreaks : Text → List Text
  | [] => []
  | c :: rest => if c = '\n' then rest :: afterBreaks rest else afterBreaks rest

/-- The remaining text at the start of each line. -/
def lineStarts (text : Text) : List Text :=
  text :: afterBreaks text

end DocBlock.Text
