import DocBlock.Completion
import DocBlock.Document.Generate
import DocBlock.Json.Basic

/-! Declarations, anchors and generated comments as JSON values. -/

namespace DocBlock

/-- A parameter as an object. -/
def Parameter.toJson (parameter : Parameter) : Json :=
  .record [
    ("name", .string parameter.name),
    ("type", .ofOption .string parameter.type),
    ("direction", .ofOption .string parameter.direction),
    ("index", .ofOption .int parameter.index),
    ("description", .string parameter.description)
  ]

/-- A declaration as an object. -/
def Declaration.toJson (declaration : Declaration) : Json :=
  .record [
    ("name", .string declaration.name),
    ("returns", .bool declaration.returns),
    ("parameters", .array (declaration.parameters.map Parameter.toJson)),
    ("description", .string declaration.description),
    ("return_descriptions", .array (declaration.returnDescriptions.map .string)),
    ("full_signature", .string declaration.signature),
    ("indent", .string declaration.indent),
    ("has_doxyblock", .bool declaration.documented),
    ("is_macro", .bool declaration.isMacro)
  ]

/-- The word for a kind of edit. -/
def Edit.toJson : Edit → Json
  | .insert => .ofString "insert"
  | .replace => .ofString "replace"

/-- An anchor as an object. -/
def Anchor.toJson (anchor : Anchor) : Json :=
  .record [
    ("kind", anchor.edit.toJson),
    ("start", .int anchor.start),
    ("end", .int anchor.stop),
    ("line", .int anchor.line),
    ("character", .int anchor.character)
  ]

/-- A generated comment as an object, with the declaration as `declarationJson` shows it. -/
def Document.Generation.toJson (generation : Document.Generation)
    (declarationJson : Declaration → Json)
    : Json :=
  .record [
    ("snippet", .string generation.snippet.render),
    ("anchor", generation.anchor.toJson),
    ("declaration", .ofOption declarationJson generation.declaration)
  ]

/-- A tag to offer as an object. -/
def Completion.Tag.toJson (tag : Completion.Tag) : Json :=
  .record [("label", .ofString tag.label), ("insert_text", .string tag.insertText)]

end DocBlock
