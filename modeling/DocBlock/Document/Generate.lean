import DocBlock.Block.Render
import DocBlock.Block.CommentField
import DocBlock.Comment.Documentation
import DocBlock.Comment.Source
import DocBlock.Declaration.Merge
import DocBlock.Document.Anchor
import DocBlock.Document.Head
import DocBlock.Signature.FunctionPointer
import DocBlock.Signature.MacroDefinition

/-! Generating the comment for the declaration at a cursor line. An existing comment directly above
the declaration is merged and replaced; otherwise a new block goes above it. Without a declaration
the result is the existing comment as one field, or a bare block. -/

namespace DocBlock.Document

open Text (Reader isSpace isBlank isWord)

--------------------------------------------------------------------------------
-- The window around the cursor
--------------------------------------------------------------------------------

/-- The part of a document that is looked at: the text before the cursor line and from it on, and
where they start. -/
structure Window where
  start : Nat
  cursor : Nat
  before : Text
  after : Text
  deriving Repr, DecidableEq

/-- The window around a line. A negative line is the first one. -/
def window (style : Style) (document : Text) (line : Int) : Window :=
  let start := startOfLine (line - style.lookbehindLines).toNat document
  let cursor := startOfLine line.toNat document
  let stop := startOfLine (line + style.lookaheadLines).toNat document
  {
    start, cursor
    before := Text.slice start cursor document
    after := Text.slice cursor stop document
  }

/-- The cursor line, without its line feed. -/
def Window.line (window : Window) : Text :=
  window.after.takeWhile (· ≠ '\n')

/-- How much of a statement ends here: it stops before a `;` or `#`, and behind a `)` that such a
separator or a `{` follows. -/
def statementEnd? : Text → Option Nat
  | [] => none
  | c :: rest =>
    if c = ';' || c = '#' then some 0
    else if c = ')' then
      match rest.dropWhile isSpace with
      | d :: _ => if d = '{' || d = ';' then some 1 else none
      | [] => none
    else none

/-- The text up to the end of its first statement, as far as it is shown outside comments. -/
def firstStatement (text : Text) : Text :=
  match Text.findFirst? statementEnd? (Comment.mask text) with
  | some (before, kept) => text.take (before.length + kept)
  | none => text

--------------------------------------------------------------------------------
-- The declaration at the cursor
--------------------------------------------------------------------------------

/-- The line starts with a `#define` directive. -/
def isDefineLine (line : Text) : Bool :=
  match Signature.define? (line.dropWhile isBlank) with
  | some (_, rest) => !(rest.head?.any isWord)
  | none => false

/-- The text before the last occurrence of a pattern; without one, all but the last character. -/
def beforeLast (pattern text : Text) : Text :=
  match Text.lastIndexOf? pattern text with
  | some i => text.take i
  | none => text.dropLast

/-- What was found at the cursor: a declaration, if there is one, and the text in front of it. -/
structure Target where
  declaration : Option Declaration
  preceding : Text
  deriving Repr, DecidableEq

/-- Find the declaration of a window. The text after the cursor is cut at the end of the statement,
the text before it at the last delimiter. -/
def Window.target (window : Window) (inferDirection : Bool) : Target :=
  let before := Comment.sinceLastDelimiter window.before
  let preceding := before ++ Text.indentation window.line
  if isDefineLine window.line then
    { declaration := Signature.lastMacro? inferDirection window.line, preceding }
  else
    let text := before ++ firstStatement window.after
    match head? (Text.trimEnd (Comment.strip text)) with
    | some head =>
      {
        declaration :=
          Signature.lastFunction? inferDirection head
            <|> Signature.functionPointerType? inferDirection head
        preceding := beforeLast head text
      }
    | none => { declaration := none, preceding }

/-- A documentation comment with nothing but blanks and at most one line feed after it: the blanks
before it, and its text. -/
def trailingComment? (text : Text) : Option (Text × Text) := do
  let rest ← Text.after? "/**".toList (text.dropWhile isBlank)
  let (body, rest) ← Text.cut? "*/".toList rest
  let rest := rest.dropWhile isBlank
  let rest := (Text.after? ['\n'] rest).getD rest
  if rest.all isBlank then
    some (text.takeWhile isBlank, "/**".toList ++ body ++ "*/".toList)
  else none

--------------------------------------------------------------------------------
-- The result
--------------------------------------------------------------------------------

/-- A generated comment, where it goes, and the declaration it describes. -/
structure Generation where
  snippet : Snippet
  anchor : Anchor
  declaration : Option Declaration
  deriving Repr, DecidableEq

/-- Replace a comment found before the target. -/
def replaceComment (style : Style) (document : Text) (start : Nat) (indent comment : Text)
    (declaration : Option Declaration)
    : Generation :=
  let anchor := anchor document .replace start (start + comment.length)
  match declaration with
  | some declaration =>
    let merged :=
      Declaration.merge true declaration (Documentation.read style.inferDirection comment)
    { snippet := Block.snippet style indent [] merged, anchor, declaration := some merged }
  | none => { snippet := Block.commentField indent [] comment, anchor, declaration := none }

/-- Insert a block above the line on which a declaration starts. -/
def insertAbove (style : Style) (document : Text) (offset : Nat) (declaration : Declaration)
    : Generation :=
  let start := offset - column document offset
  let indent := Text.indentation (document.drop start)
  {
    snippet := Block.snippet style indent indent declaration ++ [.literal ['\n']]
    anchor := anchor document .insert start start
    declaration := some declaration
  }

/-- Insert a bare block at the cursor line. -/
def insertBare (document : Text) (cursor : Nat) (line : Text) : Generation :=
  let indent := Text.indentation line
  {
    snippet := Block.commentField indent indent [] ++ [.literal ['\n']]
    anchor := anchor document .insert cursor cursor
    declaration := none
  }

/-- Generate the comment at a line of a document whose line breaks are line feeds. -/
def generateAt (style : Style) (document : Text) (line : Int) : Generation :=
  let window := window style document line
  let target := window.target style.inferDirection
  let shown := window.before ++ firstStatement window.after
  match Text.findFirst? trailingComment? target.preceding with
  | some (_, indent, comment) =>
    let start := window.start + (Text.lastIndexOf? comment shown).getD 0
    replaceComment style document start indent comment target.declaration
  | none =>
    match target.declaration with
    | some declaration =>
      let offset :=
        match Text.lastIndexOf? declaration.signature shown with
        | some i => window.start + i
        | none => window.cursor
      insertAbove style document offset declaration
    | none => insertBare document window.cursor window.line

/-- Generate the comment for the declaration at a line. Offsets refer to the document with `\r\n`
turned into line feeds. -/
def generate (style : Style) (document : Text) (line : Int) : Generation :=
  generateAt style (Text.normaliseBreaks document) line

end DocBlock.Document
