import DocBlock.Unicode.Alphanumeric

/-! Text as a list of characters, and the character classes and trimming that the rest of the
library shares. Every offset and width counts characters. -/

namespace DocBlock

/-- Source text, comments and snippets are lists of code points. -/
abbrev Text := List Char

namespace Text

/-- White space: the Unicode spaces and line breaks, and the four information separators. -/
def isSpace (c : Char) : Bool :=
  let n := c.toNat
  (0x09 ≤ n && n ≤ 0x0D) || (0x1C ≤ n && n ≤ 0x20) || n = 0x85 || n = 0xA0 || n = 0x1680
    || (0x2000 ≤ n && n ≤ 0x200A) || n = 0x2028 || n = 0x2029 || n = 0x202F || n = 0x205F
    || n = 0x3000

/-- White space that may surround a number: the information separators do not count. -/
def isNumberPadding (c : Char) : Bool :=
  isSpace c && !(0x1C ≤ c.toNat && c.toNat ≤ 0x1F)

/-- Blanks are the spaces and tabs that indent a line. -/
def isBlank (c : Char) : Bool :=
  c = ' ' || c = '\t'

/-- White space and stars separate a type from the name it declares. -/
def isSpaceOrStar (c : Char) : Bool :=
  isSpace c || c = '*'

/-- Word characters make up names: letters and numeric characters of any script, and `_`. -/
def isWord (c : Char) : Bool :=
  Unicode.isAlphanumeric c || c = '_'

/-- An identifier starts with an ASCII letter or `_`; word characters follow. -/
def isIdentifierStart (c : Char) : Bool :=
  c.isAlpha || c = '_'

/-- Drop the longest end of the text whose characters all satisfy `p`. -/
def dropEndWhile (p : Char → Bool) (text : Text) : Text :=
  (text.reverse.dropWhile p).reverse

/-- Drop characters that satisfy `p` from both ends. -/
def trimBy (p : Char → Bool) (text : Text) : Text :=
  dropEndWhile p (text.dropWhile p)

/-- Remove white space from the end. -/
def trimEnd (text : Text) : Text :=
  dropEndWhile isSpace text

/-- Remove white space from both ends. -/
def trim (text : Text) : Text :=
  trimBy isSpace text

/-- Delete every white-space character. -/
def withoutSpace (text : Text) : Text :=
  text.filter (!isSpace ·)

/-- The blanks a line starts with. -/
def indentation (text : Text) : Text :=
  text.takeWhile isBlank

/-- The maximal runs of characters outside `p`, given the characters of the run being read. -/
def runsFrom (p : Char → Bool) (current : Text) : Text → List Text
  | [] => if current.isEmpty then [] else [current.reverse]
  | c :: rest =>
    if p c then
      if current.isEmpty then runsFrom p [] rest
      else current.reverse :: runsFrom p [] rest
    else runsFrom p (c :: current) rest

/-- The words of a text: its maximal runs without white space. -/
def words (text : Text) : List Text :=
  runsFrom isSpace [] text

/-- The maximal runs of word characters. -/
def wordRuns (text : Text) : List Text :=
  runsFrom (!isWord ·) [] text

/-- Put `separator` between the parts. -/
def join (separator : Text) : List Text → Text
  | [] => []
  | [part] => part
  | part :: rest => part ++ separator ++ join separator rest

/-- Put one space between the parts. -/
def unwords (parts : List Text) : Text :=
  join [' '] parts

end Text

end DocBlock
