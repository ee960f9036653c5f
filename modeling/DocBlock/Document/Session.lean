import DocBlock.Completion
import DocBlock.Document.Generate
import DocBlock.Reflow
import DocBlock.Style.Resolve

/-! Editing one document step by step: generating comments, reflowing, plain edits, and asking
whether an offset lies inside a documentation comment. -/

namespace DocBlock.Session

/-- One step of a session. Options that are not given mean the default style. -/
inductive Step where
  | generate (line : Int) (options : Option (Fields Json))
  | reflow (start stop width : Int)
  | edit (start stop : Int) (text : Text)
  | inside (offset : Int)

/-- What a step answers; the document is the one after the step. -/
inductive Entry where
  | generated (anchor : Anchor) (name : Option Text) (document : Text)
  | reflowed (text document : Text)
  | edited (document : Text)
  | inside (value : Bool)
  deriving Repr, DecidableEq

/-- Why a step fails. -/
inductive Failure where
  | style (error : StyleError)
  | width (error : Reflow.WidthError)
  deriving Repr, DecidableEq

/-- The style of optional options, without an environment. -/
def styleOf (options : Option (Fields Json)) : Except StyleError Style :=
  match options with
  | some options => Style.resolve options []
  | none => .ok .default

/-- Put a generated snippet into the document as it is written, fields included. -/
def apply (document : Text) (generation : Document.Generation) : Text :=
  Text.splice generation.anchor.start generation.anchor.stop generation.snippet.render
    (Text.normaliseBreaks document)

/-- Take one step: what it answers and the document after it. -/
def step (document : Text) : Step → Except Failure (Entry × Text)
  | .generate line options => do
    let style ← (styleOf options).mapError .style
    let generation := Document.generate style document line
    let edited := apply document generation
    return (.generated generation.anchor (generation.declaration.map (·.name)) edited, edited)
  | .reflow start stop width => do
    let text ← (Reflow.reflow width (Text.between start stop document)).mapError .width
    let edited := Text.splice start stop text document
    return (.reflowed text edited, edited)
  | .edit start stop text =>
    let edited := Text.splice start stop text document
    return (.edited edited, edited)
  | .inside offset =>
    return (.inside (Completion.inside document offset Completion.defaultLines), document)

/-- The answers of a sequence of steps. -/
def run (document : Text) : List Step → Except Failure (List Entry)
  | [] => .ok []
  | first :: rest => do
    let (entry, document) ← step document first
    let entries ← run document rest
    return entry :: entries

end DocBlock.Session
