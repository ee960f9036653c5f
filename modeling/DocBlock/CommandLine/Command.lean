import DocBlock.CommandLine.Grammar
import DocBlock.Number.Integer

/-! The commands of the program and the grammar of their arguments. -/

namespace DocBlock.CommandLine

/-- What the program is asked to do. -/
inductive Command where
  | generate (file : Text) (line : Int) (asJson : Bool) (options : List (Text × Text))
  | reflow (file : Option Text) (width : Option Int)
  | tags
  | serve (host : Text) (socket : Int)
  deriving Repr, DecidableEq

/-- The name of the program in messages. -/
def programName : Text :=
  "doxygen-generator".toList

--------------------------------------------------------------------------------
-- Values
--------------------------------------------------------------------------------

/-- Read a whole number. -/
def intValue (text : Text) : Except BadValue Int :=
  match Integer.parse? text with
  | some value => .ok value
  | none => .error (.notInt text)

/-- Read a key and a value around the first equals sign, each trimmed. -/
def pairValue (text : Text) : Except BadValue (Text × Text) :=
  match Text.cut? ['='] text with
  | some (key, value) =>
    if key.isEmpty then .error (.notPair text) else .ok (Text.trim key, Text.trim value)
  | none => .error (.notPair text)

/-- Spellings as texts. -/
def spelled (spellings : List String) : List Text :=
  spellings.map String.toList

/-- The option that asks for help. -/
def helpSwitch (σ : Type) : Switch σ :=
  { spellings := spelled ["-h", "--help"], action := .help }

/-- A command in messages: the program and the name of the command. -/
def commandProgram (name : String) : Text :=
  programName ++ ' ' :: name.toList

--------------------------------------------------------------------------------
-- The commands
--------------------------------------------------------------------------------

/-- Arguments of the generate command read so far. -/
structure GenerateArguments where
  file : Option Text := none
  line : Option Int := none
  asJson : Bool := false
  options : List (Text × Text) := []

/-- A file, the line of the declaration, and style options. -/
def generateGrammar : Grammar GenerateArguments :=
  {
    program := commandProgram "generate"
    switches := [
      helpSwitch _,
      {
        spellings := spelled ["--line"]
        action := .value fun text state => do
          return { state with line := some (← intValue text) }
      },
      {
        spellings := spelled ["--json"]
        action := .flag fun state => { state with asJson := true }
      },
      {
        spellings := spelled ["-o", "--option"]
        action := .value fun text state => do
          return { state with options := state.options ++ [← pairValue text] }
      }
    ]
    positional := some (.one fun text state => { state with file := some text })
    missing := fun state =>
      (if state.file.isNone then ["file".toList] else [])
        ++ (if state.line.isNone then ["--line".toList] else [])
  }

/-- Arguments of the reflow command read so far. -/
structure ReflowArguments where
  file : Option Text := none
  width : Option Int := none

/-- A file, or else standard input, and a width. -/
def reflowGrammar : Grammar ReflowArguments :=
  {
    program := commandProgram "reflow"
    switches := [
      helpSwitch _,
      {
        spellings := spelled ["--width"]
        action := .value fun text state => do
          return { state with width := some (← intValue text) }
      }
    ]
    positional := some (.atMostOne fun text state => { state with file := some text })
    missing := fun _ => []
  }

/-- The tags command has no arguments. -/
def tagsGrammar : Grammar Unit :=
  {
    program := commandProgram "tags"
    switches := [helpSwitch _]
    positional := none
    missing := fun _ => []
  }

/-- Arguments of the serve command read so far. -/
structure ServeArguments where
  host : Text := "127.0.0.1".toList
  socket : Int := 5000

/-- An address to listen on. -/
def serveGrammar : Grammar ServeArguments :=
  {
    program := commandProgram "serve"
    switches := [
      helpSwitch _,
      {
        spellings := spelled ["--host"]
        action := .value fun text state => .ok { state with host := text }
      },
      {
        spellings := spelled ["--port"]
        action := .value fun text state => do return { state with socket := ← intValue text }
      }
    ]
    positional := none
    missing := fun _ => []
  }

--------------------------------------------------------------------------------
-- The program
--------------------------------------------------------------------------------

/-- What was read of a whole command line. -/
structure Invocation where
  verbose : Bool := false
  command : Option Command := none
  /-- Arguments of the command that were not understood. -/
  extra : List Text := []

/-- The names of the commands. -/
def commandNames : List Text :=
  ["generate", "reflow", "tags", "serve"].map String.toList

/-- Read the arguments of a command. -/
def readCommand (name : Text) (arguments : List Text) (state : Invocation)
    : Except Stop Invocation :=
  match String.ofList name with
  | "generate" => do
    let (read, extra) ← generateGrammar.read {} arguments
    let command :=
      .generate (read.file.getD []) (read.line.getD 0) read.asJson read.options
    return { state with command := some command, extra }
  | "reflow" => do
    let (read, extra) ← reflowGrammar.read {} arguments
    return { state with command := some (.reflow read.file read.width), extra }
  | "tags" => do
    let (_, extra) ← tagsGrammar.read () arguments
    return { state with command := some .tags, extra }
  | "serve" => do
    let (read, extra) ← serveGrammar.read {} arguments
    return { state with command := some (.serve read.host read.socket), extra }
  | _ =>
    .error (.usage programName (.badValue "command".toList (.notChoice name commandNames)))

/-- Options of the program, and a command. -/
def programGrammar : Grammar Invocation :=
  {
    program := programName
    switches := [
      helpSwitch _,
      {
        spellings := spelled ["-v", "--verbose"]
        action := .flag fun state => { state with verbose := true }
      }
    ]
    positional := some (.command readCommand)
    missing := fun state => if state.command.isNone then ["command".toList] else []
  }

/-- The command a command line asks for. Arguments that were not understood are refused last, those
of the program before those of the command. -/
def parse (arguments : List Text) : Except Stop Command := do
  let (state, extra) ← programGrammar.read {} arguments
  match extra ++ state.extra, state.command with
  | [], some command => return command
  | [], none => throw (.usage programName (.missing ["command".toList]))
  | unread, _ => throw (.usage programName (.unrecognized unread))

end DocBlock.CommandLine
