import DocBlock.Signature.Function

/-! Function-like macro definitions. Their arguments become parameters without a type. -/

namespace DocBlock.Signature

open Text (Reader isBlank)

/-- A function-like macro taken apart: its indentation, source text, name and arguments. -/
structure MacroHead where
  indent : Text
  head : Text
  name : Text
  arguments : Text
  deriving Repr, DecidableEq

/-- The directive `#define` with blanks around the `#`: its source text without the indentation,
and the rest. -/
def define? : Reader Text := fun text => do
  let rest ← Text.after? ['#'] text
  let blanks := rest.takeWhile isBlank
  let rest ← Text.after? "define".toList (rest.dropWhile isBlank)
  some ('#' :: blanks ++ "define".toList, rest)

/-- A function-like macro at the start of a line. The parenthesis follows the name directly. -/
def functionMacro? (text : Text) : Option MacroHead := do
  let indent := text.takeWhile isBlank
  let (directive, rest) ← define? (text.dropWhile isBlank)
  let blanks := rest.takeWhile isBlank
  if blanks.isEmpty then none
  else
    let (name, rest) ← Text.wordRun? (rest.dropWhile isBlank)
    let (arguments, _) ← parenthesised? rest
    some {
      indent
      head := directive ++ blanks ++ name ++ '(' :: arguments ++ [')']
      name
      arguments
    }

/-- The argument names of a macro, without line continuations; a variadic `...` is dropped. -/
def macroArguments (arguments : Text) : List Text :=
  ((Text.splitOn ',' arguments).map fun part => Text.trim (part.filter (· ≠ '\\'))).filter
    (· ≠ "...".toList)

/-- The declaration a macro head describes. An empty argument keeps its place in the numbering. -/
def MacroHead.declaration (inferDirection : Bool) (head : MacroHead) : Declaration :=
  {
    name := head.name
    parameters := (macroArguments head.arguments).zipIdx.filterMap fun (name, index) =>
      if name.isEmpty then none
      else some (Parameter.declared name none (some index) inferDirection)
    signature := head.head
    indent := head.indent
    isMacro := true
  }

/-- The last function-like macro defined in the text. -/
def lastMacro? (inferDirection : Bool) (text : Text) : Option Declaration :=
  (((Text.lineStarts text).filterMap functionMacro?).getLast?).map (·.declaration inferDirection)

end DocBlock.Signature
