import DocBlock.Json.Parser
import DocBlock.Value.Coerce

/-! Requests to the service and the validation of their bodies. Every faulty field of a body is
reported, in the order in which the fields are declared. -/

namespace DocBlock.Service

--------------------------------------------------------------------------------
-- Bodies
--------------------------------------------------------------------------------

/-- What a request carries: nothing, a JSON value, or text of some media type. -/
inductive Body where
  | none
  | json (value : Json)
  | raw (text : Text) (contentType : Text)

/-- A request to the service. The target is a path or a whole address. -/
structure Request where
  method : Text
  target : Text
  body : Body

/-- The media type of a content type, without its parameters. -/
def mediaType (contentType : Text) : Text :=
  (Text.trim (contentType.takeWhile (· ≠ ';'))).map Char.toLower

/-- The media type is JSON, or an application format built on it. -/
def isJsonType (contentType : Text) : Bool :=
  let media := mediaType contentType
  media = "application/json".toList
    || (Text.startsWith "application/".toList media && Text.endsWith "+json".toList media)

/-- The value says nothing: null, false, zero, or an empty string, array or object. -/
def isVoid : Json → Bool
  | .null => true
  | .bool value => !value
  | .int n => n = 0
  | .decimal value => value.isZero
  | .infinity _ | .nan => false
  | .string text => text.isEmpty
  | .array items => items.isEmpty
  | .object fields => fields.isEmpty

/-- The value a body holds. A body that is not JSON, is malformed or says nothing counts as an
empty object. -/
def Body.value (body : Body) : Json :=
  let value? :=
    match body with
    | .none => Option.none
    | .json value => some value
    | .raw text contentType => if isJsonType contentType then Json.parse? text else Option.none
  match value? with
  | some value => if isVoid value then .object [] else value
  | Option.none => .object []

--------------------------------------------------------------------------------
-- Validation
--------------------------------------------------------------------------------

/-- A fault, the field it was found in, and the value that has it. -/
structure Detail where
  field : Option Text
  fault : Fault
  input : Json

/-- A detail as an object. -/
def Detail.toJson (detail : Detail) : Json :=
  .record [
    ("type", .ofString detail.fault.code),
    ("loc", .array (detail.field.toList.map .string)),
    ("msg", .ofString detail.fault.message),
    ("input", detail.input)
  ]

/-- A field that has to be there. Where it is missing, the whole body is shown. -/
def required {α : Type} (fields : Fields Json) (name : String) (read : Json → Except Fault α)
    : Except Detail α :=
  let field := some name.toList
  match fields.get? name.toList with
  | some value => (read value).mapError fun fault => { field, fault, input := value }
  | none => .error { field, fault := .missing, input := .object fields }

/-- A field that may be missing. -/
def optional {α : Type} (fields : Fields Json) (name : String) (fallback : α)
    (read : Json → Except Fault α)
    : Except Detail α :=
  match fields.get? name.toList with
  | some value =>
    (read value).mapError fun fault => { field := some name.toList, fault, input := value }
  | none => .ok fallback

/-- The details of what failed. -/
def faults {α : Type} : Except Detail α → List Detail
  | .ok _ => []
  | .error detail => [detail]

/-- The fields of a body, which has to be an object; `name` says of what. -/
def fieldsOf (name : String) : Json → Except (List Detail) (Fields Json)
  | .object fields => .ok fields
  | input => .error [{ field := none, fault := .notRecord name, input }]

/-- Read a dictionary. -/
def dictionary : Json → Except Fault (Fields Json)
  | .object fields => .ok fields
  | _ => .error .notDictionary

/-- Read a natural number. -/
def natural (json : Json) : Except Fault Nat :=
  (Value.atLeast 0 json).map (·.val)

--------------------------------------------------------------------------------
-- The three requests
--------------------------------------------------------------------------------

/-- Generate the comment at a line of a text, with some style options changed. -/
structure GenerateRequest where
  text : Text
  line : Nat
  options : Fields Json

/-- Validate a generate request. -/
def GenerateRequest.read (body : Json) : Except (List Detail) GenerateRequest := do
  let fields ← fieldsOf "GenerateRequest" body
  match
    required fields "text" Value.text,
    required fields "line" natural,
    optional fields "options" [] dictionary with
  | .ok text, .ok line, .ok options => return { text, line, options }
  | text, line, options => throw (faults text ++ faults line ++ faults options)

/-- Complete tags at an offset of a text. -/
structure CompleteRequest where
  text : Text
  offset : Nat

/-- Validate a complete request. -/
def CompleteRequest.read (body : Json) : Except (List Detail) CompleteRequest := do
  let fields ← fieldsOf "CompleteRequest" body
  match required fields "text" Value.text, required fields "offset" natural with
  | .ok text, .ok offset => return { text, offset }
  | text, offset => throw (faults text ++ faults offset)

/-- The least width a request may ask for. -/
def minWidth : Nat :=
  10

/-- Reflow a text, to the style's width if none is given. -/
structure ReflowRequest where
  text : Text
  width : Option { n : Nat // minWidth ≤ n }

/-- Read a width; null stands for none. -/
def optionalWidth : Json → Except Fault (Option { n : Nat // minWidth ≤ n })
  | .null => .ok none
  | json => (Value.atLeast minWidth json).map some

/-- Validate a reflow request. -/
def ReflowRequest.read (body : Json) : Except (List Detail) ReflowRequest := do
  let fields ← fieldsOf "ReflowRequest" body
  match required fields "text" Value.text, optional fields "width" none optionalWidth with
  | .ok text, .ok width => return { text, width }
  | text, width => throw (faults text ++ faults width)

end DocBlock.Service
