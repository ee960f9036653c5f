import DocBlock.CommandLine.Command
import DocBlock.CommandLine.Files
import DocBlock.Completion
import DocBlock.Json.Encode
import DocBlock.Json.Printer
import DocBlock.Reflow
import DocBlock.Style.Resolve

/-! Carrying out a command line. The result is a plan: either what to print, or what has to be read
first and how to go on from there. -/

namespace DocBlock.CommandLine

/-- What a finished run leaves behind. -/
structure Output where
  exit : Nat := 0
  out : Text := []
  err : Text := []
  deriving Repr, DecidableEq

/-- How a run ends: with its output, or with a width that cannot be wrapped to. -/
abbrev Outcome := Except Reflow.WidthError Output

/-- A run up to the text it needs from outside. -/
inductive Plan where
  | done (outcome : Outcome)
  | readFile (path : Text) (next : Except FileError Text → Outcome)
  | readInput (next : Text → Outcome)
  | serve (style : Style) (host : Text) (socket : Int)

/-- A run that ends with a problem. -/
def problem (message : Text) : Output :=
  { exit := 2, err := "  ✗ ".toList ++ message ++ ['\n'] }

/-- A run that ends with refused style options. -/
def styleProblem (error : StyleError) : Output :=
  problem error.message.toList

/-- A run that ends while its arguments are read. The message is a line, in which arguments may
bring line boundaries of every kind; only what follows the last of them is shown. -/
def stopped : Stop → Output
  | .help program => { out := "usage: ".toList ++ program ++ ['\n'] }
  | .usage program error =>
    let message := program ++ ": error: ".toList ++ error.message ++ ['\n']
    { exit := 2, err := ((Text.unicodeLines message).getLast?).getD [] }

/-- Print the comment for the declaration at a line, which is counted from one. -/
def generateOutput (style : Style) (line : Int) (asJson : Bool) (document : Text) : Output :=
  let generation := Document.generate style document (max 0 (line - 1))
  if asJson then
    let json := generation.toJson fun declaration => .string declaration.name
    { out := json.indented ++ ['\n'] }
  else { out := generation.snippet.render ++ ['\n'] }

/-- Print a text reflowed to the given width; zero or none means the width of the style. -/
def reflowOutcome (environment : Fields Text) (width : Option Int) (text : Text) : Outcome :=
  match width.filter (· ≠ 0) with
  | some width => (Reflow.reflow width text).map fun out => { out }
  | none =>
    match Style.resolve [] environment with
    | .ok style => (Reflow.reflow style.wrapWidth text).map fun out => { out }
    | .error error => .ok (styleProblem error)

/-- The listing of all tags. -/
def tagsOutput : Output :=
  { out := Completion.tags.flatMap fun tag => tag.listing ++ ['\n'] }

/-- Go on with the contents of a file, its line breaks turned into line feeds. -/
def withFile (next : Text → Outcome) : Except FileError Text → Outcome
  | .ok contents => next (Text.universalBreaks contents)
  | .error error => .ok (problem error.message)

/-- How to carry out a command. -/
def Command.plan (environment : Fields Text) : Command → Plan
  | .generate file line asJson options =>
    let given := Fields.ofEntries (options.map fun (key, value) => (key, Json.string value))
    match Style.resolve given environment with
    | .error error => .done (.ok (styleProblem error))
    | .ok style =>
      .readFile (normalPath file) (withFile fun text => .ok (generateOutput style line asJson text))
  | .reflow (some file) width =>
    .readFile (normalPath file) (withFile (reflowOutcome environment width))
  | .reflow none width =>
    .readInput fun text => reflowOutcome environment width (Text.universalBreaks text)
  | .tags => .done (.ok tagsOutput)
  | .serve host socket =>
    match Style.resolve [] environment with
    | .error error => .done (.ok (styleProblem error))
    | .ok style => .serve style host socket

/-- How to carry out a command line. -/
def plan (environment : Fields Text) (arguments : List Text) : Plan :=
  match parse arguments with
  | .ok command => command.plan environment
  | .error stop => .done (.ok (stopped stop))

/-- The program cannot listen on a network address. -/
def cannotServe (host : Text) (socket : Int) : Output :=
  problem ("cannot listen on ".toList ++ host ++ ':' :: Decimal.digitsOfInt socket)

/-- Carry out a command line in a directory with a text as standard input. -/
def run (directory : Directory) (input : Text) (environment : Fields Text)
    (arguments : List Text)
    : Outcome :=
  match plan environment arguments with
  | .done outcome => outcome
  | .readFile path next => next (directory.read path)
  | .readInput next => next input
  | .serve _ host socket => .ok (cannotServe host socket)

end DocBlock.CommandLine
