import DocBlock.Signature.Parameters
import DocBlock.Signature.ReturnType

/-! Function prototypes and definition heads. This is a structural match over a small window of
text, not a full grammar of the language. -/

namespace DocBlock.Signature

open Text (Reader isSpace isWord)

/-- A declaration head taken apart. `head` is its source text. -/
structure Prototype where
  indent : Text
  head : Text
  returnType : Text
  name : Text
  parameters : Text
  deriving Repr, DecidableEq

/-- A parenthesised text without nested parentheses: what stands between them. -/
def parenthesised? : Reader Text
  | '(' :: rest =>
    let inner := rest.takeWhile fun c => c ≠ '(' && c ≠ ')'
    match rest.drop inner.length with
    | ')' :: later => some (inner, later)
    | _ => none
  | _ => none

/-- The declaration a prototype describes. -/
def Prototype.declaration (inferDirection : Bool) (prototype : Prototype) : Declaration :=
  {
    name := prototype.name
    returns := yieldsValue prototype.returnType
    parameters := readParameters inferDirection prototype.parameters
    signature := prototype.head
    indent := Text.afterLastBreak prototype.indent
  }

/-- The declared name after a return type: the word that follows the lexemes, or else the last
lexeme, if it is a word and a return type remains before it. Gives the return type, the name with
the white space after it, and the rest. -/
def splitName? (read : List Lexeme) (rest : Text) : Option (List Lexeme × Lexeme × Text) :=
  let name := rest.takeWhile isWord
  if name.isEmpty then
    match read.getLast? with
    | some ⟨.word name, gap⟩ =>
      if read.dropLast.isEmpty then none else some (read.dropLast, ⟨.word name, gap⟩, rest)
    | _ => none
  else if read.isEmpty then none
  else
    let later := rest.drop name.length
    some (read, ⟨.word name, later.takeWhile isSpace⟩, later.dropWhile isSpace)

/-- A function head ends at a separator or at the end of the text. -/
def afterHead? (text : Text) : Option Text :=
  match text.dropWhile isSpace with
  | [] => some []
  | c :: later => if c = ';' || c = '{' then some later else none

/-- A function prototype or definition head, with the white space before it and the separator
after it. -/
def function? : Reader Prototype := fun text => do
  let indent := text.takeWhile isSpace
  let (read, rest) := lexemes (text.dropWhile isSpace)
  let (returnType, name, rest) ← splitName? read rest
  let (parameters, rest) ← parenthesised? rest
  let later ← afterHead? rest
  let returnText := lexemesText returnType
  some (
    {
      indent
      head := returnText ++ name.text ++ '(' :: parameters ++ [')']
      returnType := returnText
      name := name.token.text
      parameters
    },
    later)

/-- Words that look like a function name before a parenthesis but never name a declaration. -/
def controlWords : List Text :=
  ["if", "for", "while", "switch", "return", "sizeof"].map String.toList

/-- Words that can stand before a call but never start a return type. -/
def statementWords : List Text :=
  ["return", "else", "case", "goto", "throw", "new", "delete"].map String.toList

/-- The first word of a return type, without stars around it. -/
def firstWord (returnType : Text) : Text :=
  Text.trimBy (· = '*') ((Text.words returnType).head?.getD [])

/-- The prototype reads as a statement rather than as a declaration. -/
def Prototype.isStatement (prototype : Prototype) : Bool :=
  controlWords.contains prototype.name || statementWords.contains (firstWord prototype.returnType)

/-- The text after the last comment end. -/
def afterLastComment (text : Text) : Text :=
  match Text.lastIndexOf? "*/".toList text with
  | some i => text.drop (i + 2)
  | none => text

/-- The last function declared after the last comment end. -/
def lastFunction? (inferDirection : Bool) (text : Text) : Option Declaration :=
  let prototypes := Text.findAll function? (afterLastComment text)
  ((prototypes.filter (!·.isStatement)).getLast?).map (·.declaration inferDirection)

end DocBlock.Signature
