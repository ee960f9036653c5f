import DocBlock.Signature.Function

/-! Function-pointer types such as `typedef int (*handler)(void *context);`. -/

namespace DocBlock.Signature

open Text (isSpace)

/-- Drop a leading `typedef` from a return type that does not end with it. -/
def withoutTypedef : List Lexeme → List Lexeme
  | ⟨.word name, gap⟩ :: lexeme :: more =>
    if name = "typedef".toList && !gap.isEmpty then lexeme :: more
    else ⟨.word name, gap⟩ :: lexeme :: more
  | lexemes => lexemes

/-- What stands inside `(*name)` after the first star: words and stars, every word but the last
followed by white space, and then the closing parenthesis. Gives its source text and the name. -/
def pointerName? (text : Text) : Option ((Text × Text) × Text) :=
  let (read, rest) := Text.many (lexeme? Text.wordRun?) text
  match read.getLast?, rest with
  | some ⟨.word name, _⟩, ')' :: later =>
    if read.dropLast.all fun lexeme => lexeme.token = .star || !lexeme.gap.isEmpty then
      some ((lexemesText read ++ [')'], name), later)
    else none
  | _, _ => none

/-- The part of a function-pointer type after its return type: `(*name)(parameters)`, then only
white space and semicolons. Gives its source text, the name and the parameters. -/
def pointerDeclarator? (text : Text) : Option (Text × Text × Text) := do
  let rest ← Text.after? ['('] text
  let gap := rest.takeWhile isSpace
  let rest ← Text.after? ['*'] (rest.dropWhile isSpace)
  let starGap := rest.takeWhile isSpace
  let ((inside, name), rest) ← pointerName? (rest.dropWhile isSpace)
  let between := rest.takeWhile isSpace
  let (parameters, rest) ← parenthesised? (rest.dropWhile isSpace)
  if rest.all fun c => isSpace c || c = ';' then
    some ('(' :: gap ++ '*' :: starGap ++ inside ++ between ++ '(' :: parameters ++ [')'],
      name, parameters)
  else none

/-- A function-pointer type that ends the text, with the white space before it. -/
def functionPointer? (text : Text) : Option Prototype := do
  let indent := text.takeWhile isSpace
  let (read, rest) := lexemes (text.dropWhile isSpace)
  if read.isEmpty then none
  else
    let (declarator, name, parameters) ← pointerDeclarator? rest
    some {
      indent
      head := lexemesText read ++ declarator
      returnType := lexemesText (withoutTypedef read)
      name
      parameters
    }

/-- The function-pointer type that ends the text. -/
def functionPointerType? (inferDirection : Bool) (text : Text) : Option Declaration :=
  (Text.findFirst? functionPointer? text).map fun (_, prototype) =>
    prototype.declaration inferDirection

end DocBlock.Signature
