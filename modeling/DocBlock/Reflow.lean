import DocBlock.Number.Decimal
import DocBlock.Text.Lines

/-! Wrapping the body of a documentation comment to a width. The opening and closing lines stay as
they are; paragraphs and tag lines of the body are filled greedily. -/

namespace DocBlock.Reflow

open Text (isSpace isBlank isWord)

/-- The words of a paragraph, and whether a blank line separates it from the one before. -/
structure Paragraph where
  afterBlank : Bool
  words : List Text
  deriving Repr, DecidableEq

/-- The text of a body line behind its blanks and one star. -/
def content (line : Text) : Text :=
  let rest := line.dropWhile isBlank
  Text.trim ((Text.after? ['*'] rest).getD rest)

/-- A line that starts with a tag, written with `@` or a backslash, starts a paragraph. -/
def startsWithTag : Text → Bool
  | c :: d :: _ => (c = '@' || c = '\\') && isWord d
  | _ => false

/-- The words that continue the paragraph before these lines, and the paragraphs after it. -/
def paragraphsFrom (afterBlank : Bool) : List Text → List Text × List Paragraph
  | [] => ([], [])
  | line :: rest =>
    let text := content line
    if text.isEmpty then paragraphsFrom true rest
    else
      let (more, later) := paragraphsFrom false rest
      let words := Text.words text ++ more
      if afterBlank || startsWithTag text then ([], { afterBlank, words } :: later)
      else (words, later)

/-- The paragraphs of the body lines. -/
def paragraphs (lines : List Text) : List Paragraph :=
  match lines.dropWhile fun line => (content line).isEmpty with
  | [] => []
  | first :: rest =>
    let (more, later) := paragraphsFrom false rest
    { afterBlank := false, words := Text.words (content first) ++ more } :: later

/-- Continue a line with words as long as they fit, and start a new line with the first that does
not. -/
def fillFrom (width : Nat) (line : Text) : List Text → List Text
  | [] => [line]
  | word :: rest =>
    if line.length + 1 + word.length ≤ width then fillFrom width (line ++ ' ' :: word) rest
    else line :: fillFrom width word rest

/-- Fill lines greedily. A word that is too long has a line of its own. -/
def fill (width : Nat) : List Text → List Text
  | [] => []
  | word :: rest => fillFrom width word rest

/-- The lines of a paragraph behind the decoration, after a bare star if a blank line comes
first. -/
def paragraphLines (indent : Text) (width : Nat) (paragraph : Paragraph) : List Text :=
  (if paragraph.afterBlank then [indent ++ ['*']] else [])
    ++ (fill width paragraph.words).map fun line => indent ++ "* ".toList ++ line

/-- The lines of a comment: the opening one, the body and the closing one. -/
structure Parts where
  opening : List Text
  body : List Text
  closing : List Text
  deriving Repr, DecidableEq

/-- Set apart an opening line and, from what remains, a closing line. -/
def parts (lines : List Text) : Parts :=
  let isOpening (line : Text) := Text.startsWith "/**".toList (line.dropWhile isSpace)
  let isClosing (line : Text) := Text.endsWith "*/".toList (Text.trim line)
  let opening := (lines.head?.toList).filter isOpening
  let lines := lines.drop opening.length
  let closing := (lines.getLast?.toList).filter isClosing
  { opening, body := lines.take (lines.length - closing.length), closing }

/-- Some line holds more than blanks and stars. -/
def hasContent (lines : List Text) : Bool :=
  lines.any fun line => line.any fun c => !isBlank c && c ≠ '*'

/-- Wrapping failed because the width is not positive. -/
structure WidthError where
  width : Int
  deriving Repr, DecidableEq

/-- What to tell the user. -/
def WidthError.message (error : WidthError) : String :=
  "invalid width " ++ String.ofList (Decimal.digitsOfInt error.width) ++ " (must be > 0)"

/-- Wrap the body of a comment. A text without content stays as it is. The width is only looked at
when there are words to wrap. -/
def reflow (width : Int) (text : Text) : Except WidthError Text :=
  let final := if Text.endsWith ['\n'] text then ['\n'] else []
  let parts := parts (Text.lines (text.take (text.length - final.length)))
  if !hasContent parts.body then .ok text
  else
    let paragraphs := paragraphs parts.body
    if width ≤ 0 && !paragraphs.isEmpty then .error { width }
    else
      let indent := Text.indentation (parts.body.head?.getD [])
      let body := paragraphs.flatMap (paragraphLines indent width.toNat)
      .ok (Text.unlines (parts.opening ++ body ++ parts.closing) ++ final)

end DocBlock.Reflow
