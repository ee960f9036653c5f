/-! Ranges of code points, the form in which character classes are tabulated. -/

namespace DocBlock.Unicode

/-- A range of code points, both ends included. -/
abbrev Range := Nat × Nat

/-- The character lies in the range. -/
def Range.contains (range : Range) (c : Char) : Bool :=
  range.1 ≤ c.toNat && c.toNat ≤ range.2

end DocBlock.Unicode
