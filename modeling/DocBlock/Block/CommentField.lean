import DocBlock.Snippet.Basic
import DocBlock.Text.Escape

/-! Offering the body of a comment as a single field, for places without a declaration. -/

namespace DocBlock.Block

open Text (Reader isSpace)

/-- The body of the first documentation comment in the text, trimmed. -/
def commentBody (text : Text) : Text :=
  match Text.cut? "/**".toList text with
  | some (_, rest) =>
    match Text.cut? "*/".toList rest with
    | some (body, _) => Text.trim body
    | none => []
  | none => []

/-- A line break and the star that decorates a later line, to be set behind `indent`. -/
def decoratedBreak? (indent : Text) : Reader Text
  | '\n' :: rest =>
    let space := rest.takeWhile isSpace
    (Text.after? ['*'] (rest.drop space.length)).map fun rest =>
      let template := '\n' :: indent ++ " *".toList
      (Text.replacement template ('\n' :: space ++ ['*']), rest)
  | _ => none

/-- A star at the start of a body, to be set on a line of its own behind `indent`. -/
def leadingStar? (indent : Text) : Reader Text := fun body =>
  let before := body.takeWhile isSpace
  (Text.after? ['*'] (body.drop before.length)).map fun rest =>
    let behind := rest.takeWhile isSpace
    let template := '\n' :: indent ++ " * ".toList
    (Text.replacement template (before ++ '*' :: behind), rest.drop behind.length)

/-- Move the decoration of every line behind `indent`, and a star at the start onto a line of its
own. Escapes in the indentation are read there. -/
def redecorated (indent body : Text) : Text :=
  let body := Text.replaceAll (decoratedBreak? indent) body
  match leadingStar? indent body with
  | some (star, rest) => star ++ rest
  | none => body

/-- The body of a comment as one field; a bare block if there is none. -/
def commentField (indent lead comment : Text) : Snippet :=
  let contents := redecorated indent (commentBody comment)
  [
    .literal (lead ++ "/** ".toList),
    .field contents,
    .literal ((if Text.contains ['\n'] contents then '\n' :: indent else []) ++ " */".toList)
  ]

end DocBlock.Block
