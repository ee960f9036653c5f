import DocBlock.Json.Basic
import DocBlock.Style.Basic

/-! The nine options of a style by name. Each has the name of its field, and most also a short key;
both spellings are accepted, and messages use the short one. -/

namespace DocBlock

/-- An option of a style. -/
inductive Setting where
  | includeBrief
  | firstLineInline
  | alignParameterNames
  | inferDirection
  | emitMacroDef
  | returnKeyword
  | lookbehindLines
  | lookaheadLines
  | wrapWidth
  deriving Repr, DecidableEq

namespace Setting

/-- All options, in the order in which they are checked. -/
def all : List Setting :=
  [includeBrief, firstLineInline, alignParameterNames, inferDirection, emitMacroDef, returnKeyword,
    lookbehindLines, lookaheadLines, wrapWidth]

/-- The name of the option's field. -/
def name : Setting → Text
  | includeBrief => "include_brief".toList
  | firstLineInline => "first_line_inline".toList
  | alignParameterNames => "align_parameter_names".toList
  | inferDirection => "infer_parameter_direction".toList
  | emitMacroDef => "emit_macro_def_tag".toList
  | returnKeyword => "default_return_tag_keyword".toList
  | lookbehindLines => "lookbehind_lines".toList
  | lookaheadLines => "lookahead_lines".toList
  | wrapWidth => "wrap_width".toList

/-- The short key, or the name where there is none. -/
def key : Setting → Text
  | includeBrief => "brief".toList
  | firstLineInline => "first_line".toList
  | alignParameterNames => "align_params".toList
  | inferDirection => "param_dir".toList
  | emitMacroDef => "macro_def".toList
  | returnKeyword => "default_return".toList
  | setting => setting.name

/-- Either spelling of the option. -/
def isSpelling (setting : Setting) (spelling : Text) : Bool :=
  spelling = setting.key || spelling = setting.name

/-- The option a spelling means. -/
def ofSpelling? (spelling : Text) : Option Setting :=
  all.find? (·.isSpelling spelling)

/-- What every environment variable of an option starts with. -/
def variableStart : Text :=
  "DOXYGEN_GENERATOR_".toList

/-- The environment variable for a spelling. -/
def variableOf (spelling : Text) : Text :=
  variableStart ++ spelling.map Char.toUpper

end Setting

namespace Style

/-- The value of an option. -/
def value (style : Style) : Setting → Json
  | .includeBrief => .bool style.includeBrief
  | .firstLineInline => .bool style.firstLineInline
  | .alignParameterNames => .bool style.alignParameterNames
  | .inferDirection => .bool style.inferDirection
  | .emitMacroDef => .bool style.emitMacroDef
  | .returnKeyword => .string style.returnKeyword
  | .lookbehindLines => .int style.lookbehindLines
  | .lookaheadLines => .int style.lookaheadLines
  | .wrapWidth => .int style.wrapWidth

/-- The options by field name. -/
def toFields (style : Style) : Fields Json :=
  Setting.all.map fun setting => (setting.name, style.value setting)

end Style

end DocBlock
