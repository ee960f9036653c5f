import DocBlock.Json.Basic
import DocBlock.Number.Binary64
import DocBlock.Text.Lines
import DocBlock.Value.Fault

/-! Reading booleans, whole numbers and strings leniently: numbers and the usual words count as
booleans, and whole numbers may be written as strings. -/

namespace DocBlock.Value

/-- The words for false. -/
def falseWords : List Text :=
  ["0", "off", "f", "false", "n", "no"].map String.toList

/-- The words for true. -/
def trueWords : List Text :=
  ["1", "on", "t", "true", "y", "yes"].map String.toList

/-- The number that 64-bit integers stay below, signs aside. -/
def wordBound : Nat :=
  Nat.pow 2 63

/-- The truth value of a number. -/
def boolOfInt (n : Int) : Except Fault Bool :=
  if n = 0 then .ok false
  else if n = 1 then .ok true
  else if -wordBound ≤ n && n < wordBound then .error .unreadableBool
  else .error .notBool

/-- The truth value of a number with a fraction or exponent. -/
def boolOfDecimal (value : Decimal) : Except Fault Bool :=
  match value.toInt? with
  | some n => if n.natAbs < wordBound then boolOfInt n else .error .notBool
  | none => .error .notBool

/-- The truth value of a word, in any case of its ASCII letters. -/
def boolOfText (text : Text) : Except Fault Bool :=
  let word := text.map Char.toLower
  if falseWords.contains word then .ok false
  else if trueWords.contains word then .ok true
  else .error .unreadableBool

/-- Read a boolean. -/
def bool : Json → Except Fault Bool
  | .bool value => .ok value
  | .int n => boolOfInt n
  | .decimal value => boolOfDecimal value
  | .string text => boolOfText text
  | _ => .error .notBool

/-- What follows the zeros a number starts with, and the underscores among them. A minus sign may
follow them. If nothing does, or a decimal point does, the character before it, `last`, stays. -/
def afterZeros? (last : Char) : Text → Option Text
  | [] => some [last]
  | c :: rest =>
    if c = '0' || c = '_' then afterZeros? c rest
    else if c = '.' then some (last :: c :: rest)
    else if c = '-' || c.isDigit then some (c :: rest)
    else none

/-- The text of a number without leading zeros. -/
def withoutLeadingZeros? : Text → Option Text
  | [] => none
  | '-' :: rest => (withoutLeadingZeros? rest).map ('-' :: ·)
  | '0' :: rest => afterZeros? '0' rest
  | c :: rest => if c.isDigit then some (c :: rest) else none

/-- The text without a decimal point followed by zeros only. -/
def withoutZeroFraction (text : Text) : Text :=
  let whole := text.takeWhile (· ≠ '.')
  match text.drop whole.length with
  | _ :: zeros => if !zeros.isEmpty && zeros.all (· = '0') then whole else text
  | [] => text

/-- The text without its underscores, if each of them stands alone inside the text. -/
def withoutUnderscores (text : Text) : Text :=
  let parts := Text.splitOn '_' text
  if parts.all (!·.isEmpty) then parts.flatten else text

/-- The text of a number in its plain form: no padding, plus sign, leading zeros, underscores or
zero fraction. -/
def plainNumber? (text : Text) : Option Text :=
  let unsigned? :=
    match Text.trimBy Text.isNumberPadding text with
    | '+' :: '-' :: _ => none
    | '+' :: rest => some rest
    | rest => some rest
  (unsigned?.bind withoutLeadingZeros?).map fun number =>
    withoutUnderscores (withoutZeroFraction number)

/-- Numbers with more digits are not read. -/
def maxDigits : Nat :=
  4300

/-- The whole number that digits without a leading zero write. They are counted before what follows
them is looked at. -/
def natOfPlain (text : Text) : Except Fault Nat :=
  match text.takeWhile Char.isDigit with
  | [] | '0' :: _ :: _ => .error .unreadableInt
  | digits =>
    if digits.length > maxDigits then .error .oversizedInt
    else if digits.length < text.length then .error .unreadableInt
    else .ok (Decimal.ofDigits digits)

/-- The whole number a text writes, with an optional sign. -/
def intOfText (text : Text) : Except Fault Int :=
  match plainNumber? text with
  | some ('-' :: rest) => (natOfPlain rest).map fun n => -Int.ofNat n
  | some number => (natOfPlain number).map Int.ofNat
  | none => .error .unreadableInt

/-- The whole number that a number with a fraction or exponent is. It has to fit 64 bits. -/
def intOfDecimal (value : Decimal) : Except Fault Int :=
  match value.toInt? with
  | some n => if n.natAbs < wordBound then .ok n else .error .oversizedInt
  | none => .error .fractionalInt

/-- Read a whole number. -/
def int : Json → Except Fault Int
  | .int n => .ok n
  | .bool value => .ok (if value then 1 else 0)
  | .decimal value => intOfDecimal value
  | .infinity _ | .nan => .error .notFinite
  | .string text => intOfText text
  | _ => .error .notInt

/-- Read a whole number with a lower bound. -/
def atLeast (minimum : Nat) (json : Json) : Except Fault { n : Nat // minimum ≤ n } := do
  let n ← int json
  if bound : (minimum : Int) ≤ n then return ⟨n.toNat, by omega⟩
  else throw (.belowMinimum minimum)

/-- Read a string. -/
def text : Json → Except Fault Text
  | .string value => .ok value
  | _ => .error .notString

end DocBlock.Value
