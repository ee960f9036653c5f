import DocBlock.Text.Lines

/-! Preparing a description for a comment block: stale markers and surrounding blank lines go, and
the remaining lines are laid out behind the decoration. -/

namespace DocBlock.Block

open Text (Reader isSpace)

/-- The text after a leading `@def` tag and the name it defines. -/
def afterDefTag? (text : Text) : Option Text := do
  let rest ← Text.after? "@def".toList (text.dropWhile isSpace)
  let rest := rest.dropWhile isSpace
  if rest.isEmpty then none
  else some ((rest.dropWhile (!isSpace ·)).dropWhile isSpace)

/-- A `@brief` marker with the white space after it, to be removed. -/
def briefMarker? : Reader Text := fun text =>
  (Text.after? "@brief".toList text).map fun rest => ([], rest.dropWhile isSpace)

/-- The lines of a description without stale markers, trailing white space, and blank lines around
them. -/
def descriptionLines (description : Text) : List Text :=
  let description := (afterDefTag? description).getD description
  let description := Text.replaceAll briefMarker? description
  Text.trimLines List.isEmpty ((Text.unicodeLines description).map Text.trimEnd)

/-- How the lines of a block start: the decoration, and the space between it and the text. -/
structure Margin where
  decoration : Text
  space : Text
  deriving Repr, DecidableEq

/-- A further line behind the decoration; an empty one has no trailing space. -/
def Margin.continuation (margin : Margin) (line : Text) : Text :=
  if line.isEmpty then '\n' :: margin.decoration
  else '\n' :: margin.decoration ++ margin.space ++ line

/-- Lines joined into one text, each but the first behind the decoration. -/
def Margin.continueLines (margin : Margin) : List Text → Text
  | [] => []
  | first :: rest => first ++ rest.flatMap margin.continuation

/-- The first paragraph and the rest, at the first empty line. -/
def splitParagraph? (lines : List Text) : Option (List Text × List Text) :=
  if lines.contains [] then
    some (lines.takeWhile (!·.isEmpty), (lines.dropWhile (!·.isEmpty)).dropWhile List.isEmpty)
  else none

end DocBlock.Block
