import DocBlock.Number.Decimal

/-! Rounding decimal numbers to binary floating point with a 53-bit significand. The arithmetic is
exact: a quotient of natural numbers is rounded once, to the nearest, and a half to the even one. -/

namespace DocBlock

/-- A magnitude in binary floating point. -/
inductive Binary64 where
  /-- The value `significand · 2 ^ exponent`. -/
  | finite (significand : Nat) (exponent : Int)
  | infinite
  deriving Repr, DecidableEq

namespace Binary64

/-- The whole number nearest to `num / den`; a half goes to the even neighbour. -/
def roundDiv (num den : Nat) : Nat :=
  let quotient := num / den
  let twice := 2 * (num % den)
  if twice < den || (twice = den && quotient % 2 = 0) then quotient else quotient + 1

/-- The least exponent of a finite number. -/
def minExponent : Int :=
  -1074

/-- The significand has at most this many bits. -/
def precision : Nat :=
  53

/-- Round a positive quotient, both parts positive. -/
def ofQuotient (num den : Nat) : Binary64 :=
  let magnitude : Int := (num.log2 : Int) - den.log2
  let below := num * Nat.pow 2 (-magnitude).toNat < den * Nat.pow 2 magnitude.toNat
  let least := if below then magnitude - precision else magnitude - precision + 1
  let exponent := max minExponent least
  let significand :=
    roundDiv (num * Nat.pow 2 (-exponent).toNat) (den * Nat.pow 2 exponent.toNat)
  if significand * Nat.pow 2 exponent.toNat ≥ Nat.pow 2 1024 then .infinite
  else .finite significand exponent

/-- Round the magnitude of a decimal number. Numbers whose leading digit is beyond the range in
either direction are settled without computing the power of ten. -/
def ofDecimal (decimal : Decimal) : Binary64 :=
  let leading : Int := (Decimal.digitsOf decimal.digits).length + decimal.exponent
  if decimal.digits = 0 || leading < -400 then .finite 0 0
  else if leading > 400 then .infinite
  else
    ofQuotient (decimal.digits * Nat.pow 10 decimal.exponent.toNat)
      (Nat.pow 10 (-decimal.exponent).toNat)

/-- The whole number that a finite value is, if it is one. -/
def toNat? : Binary64 → Option Nat
  | .finite significand exponent =>
    let unit := Nat.pow 2 (-exponent).toNat
    if significand % unit = 0 then some (significand / unit * Nat.pow 2 exponent.toNat) else none
  | .infinite => none

end Binary64

/-- The number as binary floating point holds it, if that is a whole number. -/
def Decimal.toInt? (decimal : Decimal) : Option Int :=
  (Binary64.ofDecimal decimal).toNat?.map fun n => if decimal.negative then -n else n

/-- The number is zero as binary floating point holds it. -/
def Decimal.isZero (decimal : Decimal) : Bool :=
  decimal.toInt? = some 0

end DocBlock
