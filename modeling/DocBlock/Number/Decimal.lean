import DocBlock.Text.Basic

/-! Numbers in decimal notation, and the digits of whole numbers. -/

namespace DocBlock

/-- A number in decimal notation: `digits · 10 ^ exponent`, with its sign kept for zero too. -/
structure Decimal where
  negative : Bool
  digits : Nat
  exponent : Int
  deriving Repr, DecidableEq

namespace Decimal

/-- The value of a run of ASCII digits. -/
def ofDigits (digits : Text) : Nat :=
  digits.foldl (fun value digit => 10 * value + (digit.toNat - '0'.toNat)) 0

/-- The digits of a natural number. -/
def digitsOf (n : Nat) : Text :=
  Nat.toDigits 10 n

/-- The digits of an integer after its sign. -/
def digitsOfInt (n : Int) : Text :=
  if n < 0 then '-' :: digitsOf n.natAbs else digitsOf n.natAbs

/-- A notation that reads back as the same number: the digits, `e` and the exponent. -/
def text (decimal : Decimal) : Text :=
  (if decimal.negative then ['-'] else [])
    ++ digitsOf decimal.digits ++ 'e' :: digitsOfInt decimal.exponent

end Decimal

end DocBlock
