import DocBlock.Declaration.Basic
import DocBlock.Text.Lines

/-! Reading a documentation comment into the declaration model. The description keeps its lines;
each parameter and return description is joined into one line. -/

namespace DocBlock.Documentation

open Text (Reader isSpace isBlank isWord)

/-- Remove the blanks and stars that decorate the start of a comment line, with one blank after
them. Stars before a `/` keep their last one, so a comment end stays whole. -/
def undecorated (line : Text) : Text :=
  let line := line.dropWhile isBlank
  let stars := line.takeWhile (· = '*')
  let rest := line.drop stars.length
  match stars, rest with
  | [], _ => rest
  | _, [] => []
  | _, c :: later =>
    if c = '/' then '*' :: rest
    else if isBlank c then later
    else rest

/-- The lines of a comment without decoration and trailing white space. -/
def undecoratedLines (text : Text) : List Text :=
  (Text.sourceLines text).map fun line => Text.trimEnd (undecorated line)

/-- Remove white space at both ends, and stars at the end as well. -/
def tidied (text : Text) : Text :=
  Text.trim (Text.dropEndWhile Text.isSpaceOrStar text)

/-- The body of a tag, from all its lines. -/
def tagBody (text : Text) : Text :=
  tidied
    (Text.unwords (((undecoratedLines text).map Text.trim).filter fun line => !line.isEmpty))

/-- The description before the first tag, without a leading `@brief`. -/
def descriptionOf (text : Text) : Text :=
  let lines := (undecoratedLines text).dropWhile List.isEmpty
  let lines :=
    match lines with
    | [] => []
    | first :: rest =>
      ((Text.after? "@brief".toList first).map (·.dropWhile isSpace)).getD first :: rest
  tidied (Text.trimBy (· = '\n') (Text.unlines lines))

/-- Only the end of the comment follows: nothing, or a `*/` and white space. -/
def atCommentEnd (text : Text) : Bool :=
  match text with
  | [] => true
  | _ => ((Text.after? "*/".toList text).map (·.all isSpace)).getD false

/-- The text starts with one of the tags. -/
def startsWithTag (tags : List String) (text : Text) : Bool :=
  tags.any fun tag => Text.startsWith tag.toList text

/-- The main description ends at a parameter or return tag. -/
def endsDescription (text : Text) : Bool :=
  startsWithTag ["@param", "@ret"] text || atCommentEnd text

/-- A parameter or return segment ends at the next tag of these. -/
def endsSegment (text : Text) : Bool :=
  startsWithTag ["@param", "@ret", "@note", "@warning", "@info"] text || atCommentEnd text

/-- The main description, if the text opens a documentation comment. -/
def mainDescription? (text : Text) : Option Text :=
  (Text.after? "/**".toList (text.dropWhile isSpace)).map fun rest =>
    descriptionOf (Text.breakAt endsDescription rest).1

/-- What follows `@param` up to the end of its segment, at least one character. -/
def parameterSegment? : Reader Text := fun text =>
  match Text.after? "@param".toList text with
  | some (c :: rest) =>
    let (body, later) := Text.breakAt endsSegment rest
    some (c :: body, later)
  | _ => none

/-- The bracketed direction at the front of a parameter segment. -/
def direction? : Reader Text
  | '[' :: rest =>
    match rest.dropWhile (· ≠ ']') with
    | ']' :: later => some (rest.takeWhile (· ≠ ']'), later)
    | _ => none
  | _ => none

/-- The parameter a segment documents: an optional direction, a name and a description. -/
def parameterOf? (keepDirection : Bool) (segment : Text) (index : Nat) : Option Parameter :=
  let (direction, rest) :=
    match direction? segment with
    | some (direction, rest) => (some direction, rest)
    | none => (none, segment)
  (Text.wordRun? (rest.dropWhile isSpace)).map fun (name, body) =>
    {
      name
      direction := if keepDirection then direction else none
      index := some index
      description := tagBody body
    }

/-- The keywords of a return tag. -/
def returnKeywords : List Text :=
  ["returns", "return", "retval"].map String.toList

/-- A return segment: its keyword, and its description after one space if it has one. -/
def returnSegment? : Reader Text := fun text => do
  let rest ← Text.after? ['@'] text
  let (keyword, rest) ← Text.wordRun? rest
  if returnKeywords.contains keyword then
    let (body, later) := Text.breakAt endsSegment rest
    let body := tagBody body
    some (if body.isEmpty then keyword else keyword ++ ' ' :: body, later)
  else none

/-- What a documentation comment says. A segment that names no parameter is skipped but keeps its
place in the numbering. -/
def read (keepDirection : Bool) (text : Text) : Declaration :=
  let returnDescriptions := Text.findAll returnSegment? text
  {
    documented := true
    description := (mainDescription? text).getD []
    parameters := (Text.findAll parameterSegment? text).zipIdx.filterMap fun (segment, index) =>
      parameterOf? keepDirection segment index
    returnDescriptions
    returns := !returnDescriptions.isEmpty
  }

end DocBlock.Documentation
