import DocBlock.Text.Basic

/-! Cutting text by offset. Offsets past the end stop at the end, and a negative offset counts
from the end. -/

namespace DocBlock.Text

/-- The characters from offset `start` up to offset `stop`. -/
def slice (start stop : Nat) (text : Text) : Text :=
  (text.take stop).drop start

/-- The position an offset means in a sequence of `length` elements. -/
def position (length : Nat) (offset : Int) : Nat :=
  if offset < 0 then (length + offset).toNat else min offset.toNat length

/-- The text before an offset. -/
def before (offset : Int) (text : Text) : Text :=
  text.take (position text.length offset)

/-- The text from an offset on. -/
def after (offset : Int) (text : Text) : Text :=
  text.drop (position text.length offset)

/-- The text between two offsets, empty if they are out of order. -/
def between (start stop : Int) (text : Text) : Text :=
  slice (position text.length start) (position text.length stop) text

/-- Replace the text between two offsets. -/
def splice (start stop : Int) (replacement text : Text) : Text :=
  before start text ++ replacement ++ after stop text

end DocBlock.Text
