import DocBlock.Text.Slice

/-! Positions in a document, by offset and by line and column, both counted from zero. -/

namespace DocBlock

/-- Whether a snippet is inserted or replaces an existing comment. -/
inductive Edit where
  | insert
  | replace
  deriving Repr, DecidableEq

/-- Where a snippet goes: the span from `start` to `stop`, with the line and column of its
start. -/
structure Anchor where
  edit : Edit
  start : Nat
  stop : Nat
  line : Nat
  character : Nat
  deriving Repr, DecidableEq

namespace Document

/-- Offset of the start of a line; past the last line it is the end of the document. -/
def startOfLine : (line : Nat) → Text → Nat
  | 0, _ => 0
  | _, [] => 0
  | line + 1, c :: rest => 1 + startOfLine (if c = '\n' then line else line + 1) rest

/-- Number of characters between the start of its line and an offset. -/
def column (document : Text) (offset : Nat) : Nat :=
  ((document.take offset).reverse.takeWhile (· ≠ '\n')).length

/-- Number of lines before the one an offset lies on. -/
def lineNumber (document : Text) (offset : Nat) : Nat :=
  (document.take offset).count '\n'

/-- The anchor of a span. -/
def anchor (document : Text) (edit : Edit) (start stop : Nat) : Anchor :=
  {
    edit, start, stop
    line := lineNumber document start
    character := column document start
  }

end Document

end DocBlock
