import DocBlock.Number.Decimal

/-! Values of the data format in which requests, options and answers are written. -/

namespace DocBlock

/-- A JSON value. Whole numbers are unbounded; a number with a fraction or an exponent is a
decimal. Objects keep their fields in order. -/
inductive Json where
  | null
  | bool (value : Bool)
  | int (value : Int)
  | decimal (value : Decimal)
  | infinity (negative : Bool)
  | nan
  | string (value : Text)
  | array (items : List Json)
  | object (fields : List (Text × Json))
  deriving Repr

/-- Fields in order, at most one of each name. -/
abbrev Fields (α : Type) := List (Text × α)

namespace Fields

/-- Set a field: one of that name is changed in place, a new one goes to the end. -/
def insert {α : Type} (fields : Fields α) (name : Text) (value : α) : Fields α :=
  match fields with
  | [] => [(name, value)]
  | field :: rest =>
    if field.1 = name then (name, value) :: rest else field :: insert rest name value

/-- Set several fields one after the other. -/
def insertAll {α : Type} (fields : Fields α) (entries : List (Text × α)) : Fields α :=
  entries.foldl (fun fields entry => fields.insert entry.1 entry.2) fields

/-- The fields that a list of entries leaves: first position, last value. -/
def ofEntries {α : Type} (entries : List (Text × α)) : Fields α :=
  insertAll [] entries

/-- The value of a field. -/
def get? {α : Type} (fields : Fields α) (name : Text) : Option α :=
  (fields.find? (·.1 = name)).map (·.2)

end Fields

namespace Json

/-- A string literal as a value. -/
def ofString (value : String) : Json :=
  .string value.toList

/-- An object with the named fields. -/
def record (fields : List (String × Json)) : Json :=
  .object (fields.map fun (name, value) => (name.toList, value))

/-- The value, or null for nothing. -/
def ofOption {α : Type} (toJson : α → Json) : Option α → Json
  | some value => toJson value
  | none => .null

/-- A field of an object. -/
def field? (json : Json) (name : String) : Option Json :=
  match json with
  | .object fields => Fields.get? fields name.toList
  | _ => none

end Json

end DocBlock
