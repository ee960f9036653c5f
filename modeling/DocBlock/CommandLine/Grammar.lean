import DocBlock.Text.Quoted
import DocBlock.Unicode.Decimal

/-! Command-line grammars: options with short and long spellings, at most one positional argument,
and commands with grammars of their own. An argument list is first sorted into options and plain
arguments, and then read from left to right. -/

namespace DocBlock.CommandLine

--------------------------------------------------------------------------------
-- Errors
--------------------------------------------------------------------------------

/-- Why a value is refused. -/
inductive BadValue where
  | notInt (text : Text)
  | notPair (text : Text)
  | notChoice (text : Text) (choices : List Text)
  deriving Repr, DecidableEq

/-- Why an argument list is refused. -/
inductive UsageError where
  | ambiguous (argument : Text) (candidates : List Text)
  | expectedArgument (name : Text)
  | ignoredArgument (name : Text) (argument : Text)
  | badValue (name : Text) (error : BadValue)
  | missing (names : List Text)
  | unrecognized (arguments : List Text)
  deriving Repr, DecidableEq

/-- The parts with a comma and a space between them. -/
def commaList (parts : List Text) : Text :=
  Text.join ", ".toList parts

/-- What to tell the user about a value. -/
def BadValue.message : BadValue → Text
  | .notInt text => "invalid int value: ".toList ++ Text.quoted text
  | .notPair text => "expected KEY=VALUE, got ".toList ++ Text.quoted text
  | .notChoice text choices =>
    "invalid choice: ".toList ++ Text.quoted text
      ++ " (choose from ".toList ++ commaList (choices.map Text.quoted) ++ [')']

/-- A message about one argument. -/
def aboutArgument (name message : Text) : Text :=
  "argument ".toList ++ name ++ ": ".toList ++ message

/-- What to tell the user. -/
def UsageError.message : UsageError → Text
  | .ambiguous argument candidates =>
    "ambiguous option: ".toList ++ argument ++ " could match ".toList ++ commaList candidates
  | .expectedArgument name => aboutArgument name "expected one argument".toList
  | .ignoredArgument name argument =>
    aboutArgument name ("ignored explicit argument ".toList ++ Text.quoted argument)
  | .badValue name error => aboutArgument name error.message
  | .missing names => "the following arguments are required: ".toList ++ commaList names
  | .unrecognized arguments => "unrecognized arguments: ".toList ++ Text.unwords arguments

/-- Why reading stops before its end: help was asked for, or the arguments are refused. The program
is named with its command. -/
inductive Stop where
  | help (program : Text)
  | usage (program : Text) (error : UsageError)
  deriving Repr, DecidableEq

--------------------------------------------------------------------------------
-- Grammars
--------------------------------------------------------------------------------

/-- What an option does to what was read so far. -/
inductive Action (σ : Type) where
  | help
  | flag (set : σ → σ)
  | value (set : Text → σ → Except BadValue σ)

/-- An option with all its spellings. -/
structure Switch (σ : Type) where
  spellings : List Text
  action : Action σ

/-- The positional argument of a grammar: one that is needed, one that may be missing, or a command
that takes all arguments after it. -/
inductive Positional (σ : Type) where
  | one (set : Text → σ → σ)
  | atMostOne (set : Text → σ → σ)
  | command (set : Text → List Text → σ → Except Stop σ)

/-- How the arguments of a program, or of one of its commands, are read. -/
structure Grammar (σ : Type) where
  program : Text
  switches : List (Switch σ)
  positional : Option (Positional σ)
  /-- The needed arguments that were not given. -/
  missing : σ → List Text

namespace Switch

/-- The option in messages: all its spellings. -/
def name {σ : Type} (switch : Switch σ) : Text :=
  Text.join ['/'] switch.spellings

/-- The option takes an argument. -/
def takesValue {σ : Type} (switch : Switch σ) : Bool :=
  match switch.action with
  | .value _ => true
  | _ => false

end Switch

/-- An option met in the arguments: the spelling meant, and an argument attached to it, after an
equals sign or directly. -/
structure Found (σ : Type) where
  switch : Switch σ
  spelling : Text
  attached : Option Text

/-- An argument sorted: plain, the `--` after which everything is plain, or an option, which may be
unknown. -/
inductive Token (σ : Type) where
  | plain (text : Text)
  | dashes
  | option (text : Text) (found : Option (Found σ))

/-- The argument itself. -/
def Token.text {σ : Type} : Token σ → Text
  | .plain text => text
  | .dashes => "--".toList
  | .option text _ => text

namespace Grammar

variable {σ : Type} (grammar : Grammar σ)

--------------------------------------------------------------------------------
-- Sorting
--------------------------------------------------------------------------------

/-- Every spelling with its option. -/
def spellings : List (Text × Switch σ) :=
  grammar.switches.flatMap fun switch => switch.spellings.map (·, switch)

/-- The option of a spelling. -/
def switch? (spelling : Text) : Option (Switch σ) :=
  (grammar.spellings.find? (·.1 = spelling)).map (·.2)

/-- The two sides of the first equals sign. -/
def splitAtEquals? (text : Text) : Option (Text × Text) :=
  Text.cut? ['='] text

/-- The options a long argument may abbreviate. -/
def longCandidates (argument : Text) : List (Found σ) :=
  let (name, attached) :=
    match splitAtEquals? argument with
    | some (name, value) => (name, some value)
    | none => (argument, none)
  (grammar.spellings.filter fun (spelling, _) => Text.startsWith name spelling).map
    fun (spelling, switch) => { switch, spelling, attached }

/-- The options a short argument may mean: one letter with an argument directly behind it, or the
start of a spelling. -/
def shortCandidates (argument : Text) : List (Found σ) :=
  grammar.spellings.filterMap fun (spelling, switch) =>
    if spelling = argument.take 2 then
      some { switch, spelling, attached := some (argument.drop 2) }
    else if Text.startsWith argument spelling then some { switch, spelling, attached := none }
    else none

/-- The argument is a negative number, perhaps with a line feed behind it. -/
def isNegativeNumber (argument : Text) : Bool :=
  let isDigit (c : Char) := (Unicode.digitValue? c).isSome
  match argument with
  | '-' :: rest =>
    let rest := if Text.endsWith ['\n'] rest then rest.dropLast else rest
    match rest.dropWhile isDigit with
    | [] => !rest.isEmpty
    | '.' :: decimals => !decimals.isEmpty && decimals.all isDigit
    | _ => false
  | _ => false

/-- Sort an argument that starts with a dash and is no spelling as it stands. -/
def sortDashed (argument : Text) : Except UsageError (Token σ) :=
  let candidates :=
    if Text.startsWith "--".toList argument then grammar.longCandidates argument
    else grammar.shortCandidates argument
  match candidates with
  | [] =>
    if isNegativeNumber argument || Text.contains [' '] argument then .ok (.plain argument)
    else .ok (.option argument none)
  | [found] => .ok (.option argument (some found))
  | several => .error (.ambiguous argument (several.map (·.spelling)))

/-- Sort one argument. -/
def sort (argument : Text) : Except UsageError (Token σ) :=
  if !Text.startsWith ['-'] argument then .ok (.plain argument)
  else
    match grammar.switch? argument with
    | some switch =>
      .ok (.option argument (some { switch, spelling := argument, attached := none }))
    | none =>
      if argument.length = 1 then .ok (.plain argument)
      else
        match (splitAtEquals? argument).bind fun (name, value) =>
          (grammar.switch? name).map ((name, value), ·) with
        | some ((name, value), switch) =>
          .ok (.option argument (some { switch, spelling := name, attached := some value }))
        | none => grammar.sortDashed argument

/-- Sort all arguments. -/
def tokens : List Text → Except UsageError (List (Token σ))
  | [] => .ok []
  | argument :: rest =>
    if argument = "--".toList then .ok (.dashes :: rest.map .plain)
    else do
      let first ← grammar.sort argument
      let more ← tokens rest
      return first :: more

--------------------------------------------------------------------------------
-- Options
--------------------------------------------------------------------------------

/-- The uses of options that one argument stands for, and how many of the next arguments it
takes. -/
structure Uses (σ : Type) where
  uses : List (Switch σ × Text)
  taken : Nat := 0

/-- Use one option without an attached argument. -/
def useDetached (switch : Switch σ) (next : List (Token σ)) : Except UsageError (Uses σ) :=
  if switch.takesValue then
    match next with
    | .plain text :: _ => .ok { uses := [(switch, text)], taken := 1 }
    | _ => .error (.expectedArgument switch.name)
  else .ok { uses := [(switch, [])] }

/-- Use an option with an argument attached to it. Behind the letter of a flag more letters may
follow, each an option of its own. -/
def useAttached (switch : Switch σ) (isLong : Bool) (argument : Text) (next : List (Token σ))
    : Except UsageError (Uses σ) :=
  if switch.takesValue then .ok { uses := [(switch, argument)] }
  else
    match argument with
    | [] => .error (.ignoredArgument switch.name [])
    | letter :: rest =>
      match if isLong then none else grammar.switch? ['-', letter] with
      | none => .error (.ignoredArgument switch.name (letter :: rest))
      | some further => do
        let uses ←
          if rest.isEmpty then useDetached further next else useAttached further false rest next
        return { uses with uses := (switch, []) :: uses.uses }

/-- The uses of options that a found option stands for. -/
def usesOf (found : Found σ) (next : List (Token σ)) : Except UsageError (Uses σ) :=
  match found.attached with
  | some argument =>
    grammar.useAttached found.switch (Text.startsWith "--".toList found.spelling) argument next
  | none => useDetached found.switch next

/-- Refuse the arguments. -/
def refuse {α : Type} (error : UsageError) : Except Stop α :=
  .error (.usage grammar.program error)

/-- Do what an option does. -/
def apply (state : σ) (use : Switch σ × Text) : Except Stop σ :=
  match use.1.action with
  | .help => .error (.help grammar.program)
  | .flag set => .ok (set state)
  | .value set =>
    match set use.2 state with
    | .ok state => .ok state
    | .error error => grammar.refuse (.badValue use.1.name error)

--------------------------------------------------------------------------------
-- Reading
--------------------------------------------------------------------------------

/-- A positional argument taken: what was read, and how many arguments it took. -/
abbrev Taken (σ : Type) := Option (σ × Nat)

/-- The plain argument at the front, a `--` on either side of it left out, and how many arguments
that takes. -/
def plainAtFront (next : List (Token σ)) : Option Text × Nat :=
  let isDashes (token : Token σ) := token matches .dashes
  let before := (next.takeWhile isDashes).length
  match next.drop before with
  | .plain text :: rest => (some text, before + 1 + (rest.takeWhile isDashes).length)
  | _ => (none, before)

/-- Take the positional argument from the front, if it fits. A command takes everything after
it, and a `--` in front counts as its name. -/
def takePositional (positional : Positional σ) (state : σ) (next : List (Token σ))
    : Except Stop (Taken σ) :=
  match positional, plainAtFront next with
  | .one set, (some text, count) => .ok (some (set text state, count))
  | .one _, (none, _) => .ok none
  | .atMostOne set, (some text, count) => .ok (some (set text state, count))
  | .atMostOne _, (none, count) => .ok (some (state, count))
  | .command set, (some _, _) =>
    match next.map Token.text with
    | name :: arguments => do
      let state ← set name arguments state
      return some (state, next.length)
    | [] => .ok none
  | .command _, (none, _) => .ok none

/-- Read sorted arguments from left to right. Gives what was read and the arguments that were not
understood. -/
def readTokens (positional : Option (Positional σ)) (state : σ) (next : List (Token σ))
    : Except Stop (σ × List Text) :=
  match next with
  | [] => .ok (state, [])
  | .option text none :: rest => do
    let (state, extra) ← readTokens positional state rest
    return (state, text :: extra)
  | .option _ (some found) :: rest =>
    match grammar.usesOf found rest with
    | .error error => grammar.refuse error
    | .ok uses => do
      let state ← uses.uses.foldlM grammar.apply state
      readTokens positional state (rest.drop uses.taken)
  | token :: rest => do
    let taken ←
      match positional with
      | some positional => takePositional positional state (token :: rest)
      | none => pure none
    match taken with
    | some (state, count) => readTokens none state (rest.drop (count - 1))
    | none =>
      let (state, extra) ← readTokens positional state rest
      return (state, token.text :: extra)
termination_by next.length

/-- Read an argument list. Gives what was read and the arguments that were not understood; needed
arguments have to be there. -/
def read (initial : σ) (arguments : List Text) : Except Stop (σ × List Text) :=
  match grammar.tokens arguments with
  | .error error => grammar.refuse error
  | .ok tokens => do
    let (state, extra) ← grammar.readTokens grammar.positional initial tokens
    match grammar.missing state with
    | [] => return (state, extra)
    | names => grammar.refuse (.missing names)

end Grammar

end DocBlock.CommandLine
