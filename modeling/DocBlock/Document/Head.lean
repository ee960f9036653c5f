import DocBlock.Text.Scan

/-! Recognising that a text ends in the head of a declaration: `type name(...)` or
`type (*name)(...)`. -/

namespace DocBlock.Document

open Text (Reader isSpace)

/-- A word and the run of white space and stars after it. -/
structure Link where
  word : Text
  gap : Text
  deriving Repr, DecidableEq

/-- One link at the front of the text. -/
def link? : Reader Link := fun text =>
  (Text.wordRun? text).map fun (word, rest) =>
    (⟨word, rest.takeWhile Text.isSpaceOrStar⟩, rest.dropWhile Text.isSpaceOrStar)

/-- The longest chain of links at the front of the text, and the rest. -/
def chain (text : Text) : List Link × Text :=
  Text.many link? text

/-- The text closes a parameter list at its very end, with no semicolon before. -/
def closesList (text : Text) : Bool :=
  text.getLast? = some ')' && text.all (· ≠ ';')

/-- The last link ends in white space only. -/
def endsPlain (links : List Link) : Bool :=
  (links.getLast?).any (·.gap.all isSpace)

/-- The text after the parenthesis of `(*name)`: stars, words directly behind them, the closing
parenthesis, and a parameter list to the end. -/
def isPointerHead (text : Text) : Bool :=
  match text.dropWhile isSpace with
  | '*' :: rest =>
    match chain (rest.dropWhile (· = '*')) with
    | (links, ')' :: rest) =>
      match rest.dropWhile isSpace with
      | '(' :: list => endsPlain links && closesList list
      | _ => false
    | _ => false
  | _ => false

/-- The text is a declaration head from its first word to its end. -/
def isHead (text : Text) : Bool :=
  match chain text with
  | (links, '(' :: rest) =>
    (2 ≤ links.length && endsPlain links && closesList rest)
      || ((links.getLast?).any (!·.gap.isEmpty) && isPointerHead rest)
  | _ => false

/-- The longest declaration head that ends the text. -/
def head? (text : Text) : Option Text :=
  (Text.findFirst? (fun rest => if isHead rest then some rest else none) text).map (·.2)

end DocBlock.Document
