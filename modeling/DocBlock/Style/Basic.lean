import DocBlock.Text.Basic
import DocBlock.Unicode.Word

/-! The style of generated comment blocks. -/

namespace DocBlock

/-- A tag keyword is a non-empty run of word characters. -/
def isKeyword (text : Text) : Bool :=
  !text.isEmpty && text.all Unicode.isWordCharacter

/-- Options consulted when finding a declaration and writing its comment. -/
structure Style where
  /-- Start the description with `@brief`. -/
  includeBrief : Bool := false
  /-- Put the description on the opening line. -/
  firstLineInline : Bool := false
  /-- Pad parameter names to one width. -/
  alignParameterNames : Bool := true
  /-- Add a direction to each parameter. -/
  inferDirection : Bool := true
  /-- Name a macro in a `@def` tag. -/
  emitMacroDef : Bool := true
  /-- Tag of an undocumented return value. -/
  returnKeyword : Text := "returns".toList
  /-- Lines before the cursor that are looked at. -/
  lookbehindLines : Nat := 100
  /-- Lines from the cursor on that are looked at. -/
  lookaheadLines : Nat := 20
  /-- Width to which comments are reflowed. -/
  wrapWidth : Nat := 80
  keyword_valid : isKeyword returnKeyword = true := by decide
  lookahead_pos : 1 ≤ lookaheadLines := by decide
  wrap_min : 10 ≤ wrapWidth := by decide
  deriving Repr, DecidableEq

/-- The style when no option is given. -/
def Style.default : Style := {}

end DocBlock
