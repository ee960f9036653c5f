import DocBlock.Number.Decimal
import DocBlock.Text.Lines
import DocBlock.Unicode.Decimal

/-! Whole numbers as users write them: white space around, a sign, digits of any script, and
underscores between digits. -/

namespace DocBlock.Integer

/-- Numbers of more digits are refused. -/
def maxDigits : Nat :=
  4300

/-- Groups of digits with single underscores between them: the values of all digits. -/
def digitValues? (text : Text) : Option (List Nat) :=
  let groups := Text.splitOn '_' text
  if groups.any List.isEmpty then none else groups.flatten.mapM Unicode.digitValue?

/-- A number without sign. -/
def natural? (text : Text) : Option Nat := do
  let digits ← digitValues? text
  if digits.length ≤ maxDigits then
    some (digits.foldl (fun value digit => 10 * value + digit) 0)
  else none

/-- A number with an optional sign. -/
def parse? (text : Text) : Option Int :=
  match Text.trimBy Text.isNumberPadding text with
  | '+' :: rest => (natural? rest).map Int.ofNat
  | '-' :: rest => (natural? rest).map fun n => -Int.ofNat n
  | rest => (natural? rest).map Int.ofNat

end DocBlock.Integer
