import DocBlock.Block.Description
import DocBlock.Declaration.Basic
import DocBlock.Snippet.Basic
import DocBlock.Style.Basic

/-! Writing the comment block of a declaration as a snippet: the description, one line for each
parameter and the return tags, with a field for every text the user is to fill in. -/

namespace DocBlock.Block

open Text (isSpace)

/-- The margin of a block at an indentation. The text stands one space further in where the
description shares the opening line. -/
def Margin.ofStyle (style : Style) (indent : Text) : Margin :=
  {
    decoration := indent ++ " *".toList
    space := if style.firstLineInline then "  ".toList else " ".toList
  }

/-- What a text line starts with. -/
def Margin.lead (margin : Margin) : Text :=
  margin.decoration ++ margin.space

/-- A line with nothing but the decoration. -/
def Margin.separator (margin : Margin) : Piece :=
  .literal (margin.decoration ++ ['\n'])

/-- The description: one field, or for documented text of several paragraphs one for the first and
one for the rest. -/
def descriptionPieces (margin : Margin) (declaration : Declaration) : Snippet :=
  let lines := descriptionLines declaration.description
  match if declaration.documented then splitParagraph? lines else none with
  | some (first, rest) =>
    [
      .field (Text.unwords (first.map Text.trim)),
      .literal ('\n' :: margin.decoration ++ '\n' :: margin.lead),
      .field (margin.continueLines rest)
    ]
  | none => [.field (margin.continueLines lines)]

/-- The width to which parameter names are padded. -/
def nameWidth (style : Style) (parameters : List Parameter) : Nat :=
  if style.alignParameterNames then
    parameters.foldl (fun width parameter => max width parameter.name.length) 0
  else 0

/-- The direction of a parameter in its brackets. -/
def directionText (parameter : Parameter) : Text :=
  match parameter.direction with
  | some direction => if direction.isEmpty then [] else '[' :: direction ++ [']']
  | none => []

/-- The line of a parameter, its name padded to a width. -/
def parameterPieces (margin : Margin) (width : Nat) (parameter : Parameter) : Snippet :=
  [
    .literal (margin.lead ++ "@param".toList ++ directionText parameter),
    .literal (' ' :: parameter.name ++ [' ']),
    .literal (List.replicate (width - parameter.name.length) ' '),
    .field (Text.trim parameter.description),
    .literal ['\n']
  ]

/-- The line of a return description: its keyword, the white space after it and the text. One that
does not start with a keyword has no line. -/
def returnPieces (margin : Margin) (description : Text) : Snippet :=
  let keyword := description.takeWhile (!isSpace ·)
  let rest := description.dropWhile (!isSpace ·)
  let body := rest.dropWhile isSpace
  if keyword.isEmpty then []
  else
    [
      .literal (margin.lead ++ '@' :: keyword),
      .literal (if body.isEmpty then [' '] else rest.takeWhile isSpace),
      .field body,
      .literal ['\n']
    ]

/-- The return lines: the documented ones, or an empty one under the style's keyword. -/
def returnsPieces (style : Style) (margin : Margin) (descriptions : List Text) : Snippet :=
  if descriptions.isEmpty then
    [
      .literal (margin.lead ++ '@' :: style.returnKeyword ++ [' ']),
      .field [],
      .literal ['\n']
    ]
  else descriptions.flatMap (returnPieces margin)

/-- The opening line up to the description. `lead` stands before the block. -/
def openingPieces (style : Style) (margin : Margin) (lead : Text) (declaration : Declaration)
    : Snippet :=
  let macroTag :=
    "@def ".toList ++ declaration.name ++ '\n' :: margin.decoration ++ '\n' :: margin.lead
  [
    .literal (lead ++ "/**".toList),
    .literal (if style.firstLineInline then [' '] else '\n' :: margin.lead),
    .literal (if declaration.isMacro && style.emitMacroDef then macroTag else []),
    .literal (if style.includeBrief then "@brief ".toList else [])
  ]

/-- The comment block of a declaration. Every line after the first starts with `indent`; `lead`
stands before the block. -/
def snippet (style : Style) (indent lead : Text) (declaration : Declaration) : Snippet :=
  let margin := Margin.ofStyle style indent
  let parameters := declaration.parameters
  openingPieces style margin lead declaration
    ++ descriptionPieces margin declaration
    ++ [.literal ['\n']]
    ++ (if parameters.isEmpty then []
        else
          margin.separator
            :: parameters.flatMap (parameterPieces margin (nameWidth style parameters)))
    ++ (if declaration.returns then
          margin.separator :: returnsPieces style margin declaration.returnDescriptions
        else [])
    ++ [.literal (indent ++ " */".toList)]

end DocBlock.Block
