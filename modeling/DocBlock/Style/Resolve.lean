import DocBlock.Style.Setting
import DocBlock.Value.Coerce

/-! Building a style from given options, environment variables and a base style, in this order of
precedence. -/

namespace DocBlock

/-- Why options are refused: the option by the key that messages use, and the cause. -/
structure StyleError where
  key : Text
  fault : Fault
  deriving Repr, DecidableEq

/-- What to tell the user. -/
def StyleError.message (error : StyleError) : String :=
  "Invalid style option " ++ String.ofList error.key ++ ": " ++ error.fault.message

namespace Setting

/-- The value given for an option: the last one under either spelling. -/
def given? (options : Fields Json) (setting : Setting) : Option Json :=
  ((options.filter (setting.isSpelling ·.1)).getLast?).map (·.2)

/-- The value the environment gives an option; the short key goes before the name. -/
def fromEnvironment? (environment : Fields Text) (setting : Setting) : Option Json :=
  (environment.get? (variableOf setting.key)
    <|> environment.get? (variableOf setting.name)).map .string

/-- The value of an option before it is checked: given, from the environment, or from the base. -/
def effective (base : Style) (options : Fields Json) (environment : Fields Text)
    (setting : Setting)
    : Json :=
  ((setting.given? options <|> setting.fromEnvironment? environment)).getD (base.value setting)

end Setting

namespace Style

/-- Read a return keyword. -/
def keyword (json : Json) : Except Fault { text : Text // isKeyword text = true } := do
  let text ← Value.text json
  if valid : isKeyword text = true then return ⟨text, valid⟩ else throw .notKeyword

/-- Name the option a fault belongs to. -/
def check {α : Type} (setting : Setting) (result : Except Fault α) : Except StyleError α :=
  result.mapError fun fault => { key := setting.key, fault }

/-- Build a style from a value for each option. The first option with a fault is reported. -/
def ofValues (value : Setting → Json) : Except StyleError Style := do
  let bool (setting : Setting) := check setting (Value.bool (value setting))
  let number (setting : Setting) (minimum : Nat) :=
    check setting (Value.atLeast minimum (value setting))
  let includeBrief ← bool .includeBrief
  let firstLineInline ← bool .firstLineInline
  let alignParameterNames ← bool .alignParameterNames
  let inferDirection ← bool .inferDirection
  let emitMacroDef ← bool .emitMacroDef
  let returnKeyword ← check .returnKeyword (keyword (value .returnKeyword))
  let lookbehindLines ← number .lookbehindLines 0
  let lookaheadLines ← number .lookaheadLines 1
  let wrapWidth ← number .wrapWidth 10
  return {
    includeBrief, firstLineInline, alignParameterNames, inferDirection, emitMacroDef
    returnKeyword := returnKeyword.val
    lookbehindLines := lookbehindLines.val
    lookaheadLines := lookaheadLines.val
    wrapWidth := wrapWidth.val
    keyword_valid := returnKeyword.property
    lookahead_pos := lookaheadLines.property
    wrap_min := wrapWidth.property
  }

/-- Some given key is no option: the first of them is reported. -/
def rejectUnknown (options : Fields Json) : Except StyleError Unit :=
  match options.find? fun option => (Setting.ofSpelling? option.1).isNone with
  | some option => .error { key := option.1, fault := .unknownKey }
  | none => .ok ()

/-- A style whose missing options come from the environment and then from a base style. Faulty
options are reported before unknown ones. -/
def resolveOver (base : Style) (options : Fields Json) (environment : Fields Text)
    : Except StyleError Style := do
  let style ← ofValues (Setting.effective base options environment)
  rejectUnknown options
  return style

/-- A style from given options and the environment. -/
def resolve (options : Fields Json) (environment : Fields Text) : Except StyleError Style :=
  resolveOver .default options environment

/-- A style with some options changed by name. Where both spellings of an option are given, the
short key decides, because the names of a style's own fields come first. -/
def withOptions (base : Style) (options : Fields Json) : Except StyleError Style :=
  if options.isEmpty then .ok base else resolve (Fields.insertAll base.toFields options) []

end Style

end DocBlock
