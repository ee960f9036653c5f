import DocBlock.Text.Basic

/-! Reading and searching text. A reader looks at the front of a text; scanning tries it at every
position from left to right and continues after each success. -/

namespace DocBlock.Text

/-- Reads the front of a text: what was understood, and the rest. -/
abbrev Reader (α : Type) := Text → Option (α × Text)

/-- The rest of the text after `pattern`, if the text starts with it. -/
def after? : (pattern : Text) → Text → Option Text
  | [], text => some text
  | _ :: _, [] => none
  | p :: pattern, c :: rest => if p = c then after? pattern rest else none

/-- The text starts with `pattern`. -/
def startsWith (pattern text : Text) : Bool :=
  (after? pattern text).isSome

/-- The text ends with `pattern`. -/
def endsWith (pattern text : Text) : Bool :=
  startsWith pattern.reverse text.reverse

/-- Split before the first position whose remaining text satisfies `stop`, or at the end. -/
def breakAt (stop : Text → Bool) : Text → Text × Text
  | [] => ([], [])
  | c :: rest =>
    if stop (c :: rest) then ([], c :: rest)
    else
      let (before, later) := breakAt stop rest
      (c :: before, later)

/-- Split around the first occurrence of `pattern`. -/
def cut? (pattern : Text) : Text → Option (Text × Text)
  | [] => (after? pattern []).map ([], ·)
  | c :: rest =>
    match after? pattern (c :: rest) with
    | some later => some ([], later)
    | none => (cut? pattern rest).map fun (before, later) => (c :: before, later)

/-- The pattern occurs in the text. -/
def contains (pattern text : Text) : Bool :=
  (cut? pattern text).isSome

/-- Offset of the last occurrence of `pattern`. -/
def lastIndexOf? (pattern : Text) : Text → Option Nat
  | [] => if pattern.isEmpty then some 0 else none
  | c :: rest =>
    match lastIndexOf? pattern rest with
    | some i => some (i + 1)
    | none => if startsWith pattern (c :: rest) then some 0 else none

/-- The leftmost position at which `recognise` succeeds: the text before it, and what it found. -/
def findFirst? {α : Type} (recognise : Text → Option α) : Text → Option (Text × α)
  | [] => (recognise []).map ([], ·)
  | c :: rest =>
    match recognise (c :: rest) with
    | some found => some ([], found)
    | none => (findFirst? recognise rest).map fun (before, found) => (c :: before, found)

/-- Read as often as possible, at most `limit` times. -/
def manyUpTo {α : Type} (read : Reader α) : (limit : Nat) → Text → List α × Text
  | 0, text => ([], text)
  | limit + 1, text =>
    match read text with
    | some (value, later) =>
      let (more, rest) := manyUpTo read limit later
      (value :: more, rest)
    | none => ([], text)

/-- Read as often as possible. A reader that takes at least one character each time succeeds at
most once for every character, so the limit is never met. -/
def many {α : Type} (read : Reader α) (text : Text) : List α × Text :=
  manyUpTo read text.length text

/-- A run of word characters at the front of the text, as long as possible. -/
def wordRun? : Reader Text := fun text =>
  match text.takeWhile isWord with
  | [] => none
  | word => some (word, text.dropWhile isWord)

/-- An identifier at the front of the text, as long as possible. -/
def identifier? : Reader Text
  | [] => none
  | c :: rest =>
    if isIdentifierStart c then some (c :: rest.takeWhile isWord, rest.dropWhile isWord)
    else none

/-- A scanned text is a sequence of characters passed over and of things read. -/
inductive Item (α : Type) where
  | passed (c : Char)
  | found (value : α)
  deriving Repr, DecidableEq

/-- Scan with `skip` characters still belonging to the last success. A success that takes no
character counts as taking one, so every step moves on. -/
def scanFrom {α : Type} (read : Reader α) : (skip : Nat) → Text → List (Item α)
  | _, [] => []
  | skip + 1, _ :: rest => scanFrom read skip rest
  | 0, c :: rest =>
    match read (c :: rest) with
    | some (value, later) => .found value :: scanFrom read (rest.length - later.length) rest
    | none => .passed c :: scanFrom read 0 rest

/-- Try `read` at every position from left to right, continuing after each success. -/
def scan {α : Type} (read : Reader α) (text : Text) : List (Item α) :=
  scanFrom read 0 text

/-- Everything `read` finds in the text, from left to right without overlap. -/
def findAll {α : Type} (read : Reader α) (text : Text) : List α :=
  (scan read text).filterMap fun
    | .passed _ => none
    | .found value => some value

/-- Replace everything `read` finds by the text it gives. -/
def replaceAll (read : Reader Text) (text : Text) : Text :=
  (scan read text).flatMap fun
    | .passed c => [c]
    | .found replacement => replacement

end DocBlock.Text
