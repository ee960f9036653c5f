import DocBlock.Number.Decimal

/-! Why a value given from outside is refused, with the code and the wording of each cause. -/

namespace DocBlock

/-- A reason to refuse a value. -/
inductive Fault where
  | missing
  | unknownKey
  | notRecord (name : String)
  | notDictionary
  | notBool
  | unreadableBool
  | notInt
  | unreadableInt
  | fractionalInt
  | oversizedInt
  | notFinite
  | belowMinimum (minimum : Nat)
  | notString
  | notKeyword
  deriving Repr, DecidableEq

namespace Fault

/-- A short name for the kind of fault. -/
def code : Fault → String
  | missing => "missing"
  | unknownKey => "extra_forbidden"
  | notRecord _ => "model_type"
  | notDictionary => "dict_type"
  | notBool => "bool_type"
  | unreadableBool => "bool_parsing"
  | notInt => "int_type"
  | unreadableInt => "int_parsing"
  | fractionalInt => "int_from_float"
  | oversizedInt => "int_parsing_size"
  | notFinite => "finite_number"
  | belowMinimum _ => "greater_than_equal"
  | notString => "string_type"
  | notKeyword => "string_pattern_mismatch"

/-- What to tell the user. -/
def message : Fault → String
  | missing => "Field required"
  | unknownKey => "Extra inputs are not permitted"
  | notRecord name => "Input should be a valid dictionary or instance of " ++ name
  | notDictionary => "Input should be a valid dictionary"
  | notBool => "Input should be a valid boolean"
  | unreadableBool => "Input should be a valid boolean, unable to interpret input"
  | notInt => "Input should be a valid integer"
  | unreadableInt => "Input should be a valid integer, unable to parse string as an integer"
  | fractionalInt => "Input should be a valid integer, got a number with a fractional part"
  | oversizedInt => "Unable to parse input string as an integer, exceeded maximum size"
  | notFinite => "Input should be a finite number"
  | belowMinimum minimum =>
    "Input should be greater than or equal to " ++ String.ofList (Decimal.digitsOf minimum)
  | notString => "Input should be a valid string"
  | notKeyword => "String should match pattern '^\\w+$'"

end Fault

end DocBlock
