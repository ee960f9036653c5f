import DocBlock.Text.Scan

/-! Return types are read as sequences of words and stars, each with the white space after it. -/

namespace DocBlock.Signature

open Text (Reader isSpace)

/-- A return type is made of identifiers and stars. -/
inductive Token where
  | word (name : Text)
  | star
  deriving Repr, DecidableEq

/-- A token with the white space after it. -/
structure Lexeme where
  token : Token
  gap : Text
  deriving Repr, DecidableEq

/-- The characters of a token. -/
def Token.text : Token → Text
  | .word name => name
  | .star => ['*']

/-- The characters of a lexeme. -/
def Lexeme.text (lexeme : Lexeme) : Text :=
  lexeme.token.text ++ lexeme.gap

/-- The characters of a sequence of lexemes. -/
def lexemesText (lexemes : List Lexeme) : Text :=
  lexemes.flatMap Lexeme.text

/-- One lexeme at the front of the text, with `word?` deciding what counts as a word. -/
def lexeme? (word? : Reader Text) : Reader Lexeme
  | [] => none
  | c :: rest =>
    if c = '*' then some (⟨.star, rest.takeWhile isSpace⟩, rest.dropWhile isSpace)
    else
      match word? (c :: rest) with
      | some (name, rest) =>
        some (⟨.word name, rest.takeWhile isSpace⟩, rest.dropWhile isSpace)
      | none => none

/-- The longest sequence of return-type lexemes at the front of the text, and the rest. -/
def lexemes (text : Text) : List Lexeme × Text :=
  Text.many (lexeme? Text.identifier?) text

/-- A return type yields a value unless it is plain `void`. -/
def yieldsValue (returnType : Text) : Bool :=
  !(Text.wordRuns returnType).contains "void".toList || Text.contains ['*'] returnType

end DocBlock.Signature
