import DocBlock.Proofs.Document.ReplacedSpan

/-! Where generated comments go. Every anchor is a span of the document whose line and column belong
to its start, whichever line the cursor is on. A block for a declaration goes to the start of a
line, and a bare block to the start of the cursor line.
-/

namespace DocBlock.Document

--------------------------------------------------------------------------------
-- Positions
--------------------------------------------------------------------------------

/-- The start of a line, by the number of the line: the start of the document for a negative number,
and its end for a number past the last line. -/
structure LineStart (document : Text) (line : Int) (offset : Nat) : Prop where
  negative : line < 0 → offset = 0
  present : ∀ number : Nat, line = number → number ≤ document.count '\n'
    → EndsLine (document.take offset) ∧ (document.take offset).count '\n' = number
  beyond : document.count '\n' < line → offset = document.length

/-- The cursor line starts where its number says. -/
theorem lineStart_startOfLine (document : Text) (line : Int)
    : LineStart document line (startOfLine line.toNat document) where
  negative := by
    intro below
    have first : line.toNat = 0 := by omega
    rw [first, startOfLine]
  present := by
    intro number same among
    obtain ⟨front, rest, rfl, lines, ends⟩ := exists_lineStart among
    have start : line.toNat = front.count '\n' := by omega
    rw [start, startOfLine_count ends rest, List.take_left]
    exact ⟨ends, lines⟩
  beyond := by
    intro past
    obtain ⟨more, positive, same⟩ : ∃ more, 0 < more ∧ line.toNat = document.count '\n' + more :=
      ⟨line.toNat - document.count '\n', by omega, by omega⟩
    have stop := startOfLine_append (.inl positive : 0 < more ∨ EndsLine document) []
    have behind : startOfLine more [] = 0 := by
      cases more <;> rfl
    rw [List.append_nil, behind] at stop
    rw [same, stop, Nat.add_zero]

/-- The column of an offset is counted from the start of its line. -/
theorem startOfLine_add_column {document : Text} {offset : Nat} (bound : offset ≤ document.length)
    : startOfLine (lineNumber document offset) document + column document offset = offset := by
  obtain ⟨front, text, rest, rfl, rfl, ends, flat⟩ := exists_lineOf bound
  have lines : lineNumber (front ++ text ++ rest) (front ++ text).length = front.count '\n' := by
    rw [lineNumber, List.take_left, List.count_append, List.count_eq_zero.mpr flat, Nat.add_zero]
  have start := startOfLine_count ends (text ++ rest)
  rw [← List.append_assoc] at start
  rw [lines, start, column_append ends flat, List.length_append]

/-- The line of an offset starts in column zero. -/
theorem column_lineStart {document : Text} {offset : Nat} (bound : offset ≤ document.length)
    : column document (offset - column document offset) = 0 := by
  obtain ⟨front, text, rest, rfl, rfl, ends, flat⟩ := exists_lineOf bound
  have start : (front ++ text).length - text.length = front.length := by
    rw [List.length_append, Nat.add_sub_cancel]
  have zero := column_append ends (List.not_mem_nil : '\n' ∉ []) (text ++ rest)
  rw [List.append_nil, ← List.append_assoc] at zero
  rw [column_append ends flat, start, zero]
  rfl

--------------------------------------------------------------------------------
-- Generated anchors
--------------------------------------------------------------------------------

/-- The anchor of a generation lies in the document. Its line and column are those of its start. An
insertion covers nothing and a replacement covers a documentation comment. A block is inserted at
the start of a line if it describes a declaration, and else at the start of the cursor line. The
declaration counts as documented exactly if its comment is replaced. -/
structure Placed (document : Text) (line : Int) (generation : Generation) : Prop where
  order : generation.anchor.start ≤ generation.anchor.stop
  bound : generation.anchor.stop ≤ document.length
  lines : generation.anchor.line = (document.take generation.anchor.start).count '\n'
  character : startOfLine generation.anchor.line document + generation.anchor.character
    = generation.anchor.start
  empty : generation.anchor.edit = .insert → generation.anchor.start = generation.anchor.stop
  comment : generation.anchor.edit = .replace
    → Text.startsWith "/**".toList (covered document generation.anchor) = true
      ∧ Text.endsWith "*/".toList (covered document generation.anchor) = true
  above : generation.anchor.edit = .insert → generation.declaration.isSome = true
    → generation.anchor.character = 0
  bare : generation.anchor.edit = .insert → generation.declaration = none
    → LineStart document line generation.anchor.start
  documented : ∀ declaration ∈ generation.declaration,
    declaration.documented = true ↔ generation.anchor.edit = .replace

variable {style : Style} {document : Text} {line : Int}

/-- A comment is replaced where it stands. Witness: the span has the length of the comment, so it
ends inside the document.
-/
theorem placed_replaceComment {start : Nat} {indent comment body : Text}
    (shape : comment = "/**".toList ++ body ++ "*/".toList)
    (stands : Text.slice start (start + comment.length) document = comment)
    (declaration : Option Declaration)
    : Placed document line (replaceComment style document start indent comment declaration) := by
  have place : (replaceComment style document start indent comment declaration).anchor
      = anchor document .replace start (start + comment.length) := by
    cases declaration <;> rfl
  have bound : start + comment.length ≤ document.length := by
    have size := congrArg List.length stands
    have positive : 0 < comment.length := by simp [shape]
    rw [Text.slice, List.length_drop, List.length_take] at size
    omega
  constructor
  case order =>
    rw [place]
    exact Nat.le_add_right start comment.length
  case bound => rwa [place]
  case lines => rw [place]; rfl
  case character =>
    rw [place]
    exact startOfLine_add_column (by omega)
  case empty =>
    intro inserts
    rw [place] at inserts
    cases inserts
  case comment =>
    intro _
    have span : covered document (anchor document .replace start (start + comment.length))
        = comment := stands
    rw [place, span, shape, Text.startsWith_iff, Text.endsWith_iff, List.append_assoc]
    exact ⟨List.prefix_append _ _, ⟨"/**".toList ++ body, by simp⟩⟩
  case above =>
    intro inserts
    rw [place] at inserts
    cases inserts
  case bare =>
    intro inserts
    rw [place] at inserts
    cases inserts
  case documented =>
    intro merged found
    cases declaration with
    | none => cases found
    | some declaration =>
        cases found
        simp [replaceComment, anchor, Declaration.merge, Documentation.read]

/-- A block goes to the start of the line of an offset in the document. -/
theorem placed_insertAbove {offset : Nat} {declaration : Declaration}
    (bound : offset ≤ document.length) (undocumented : declaration.documented = false)
    : Placed document line (insertAbove style document offset declaration) := by
  have inside : offset - column document offset ≤ document.length := by omega
  constructor
  case order => exact Nat.le_refl _
  case bound => exact inside
  case lines => rfl
  case character => exact startOfLine_add_column inside
  case empty => exact fun _ => rfl
  case comment =>
    intro replaces
    cases replaces
  case above => exact fun _ _ => column_lineStart bound
  case bare =>
    intro _ missing
    cases missing
  case documented =>
    intro found same
    cases same
    simp [insertAbove, anchor, undocumented]

/-- A bare block goes to the start of the cursor line. -/
theorem placed_insertBare (text : Text)
    : Placed document line (insertBare document (startOfLine line.toNat document) text) := by
  have inside := startOfLine_le_length line.toNat document
  constructor
  case order => exact Nat.le_refl _
  case bound => exact inside
  case lines => rfl
  case character => exact startOfLine_add_column inside
  case empty => exact fun _ => rfl
  case comment =>
    intro replaces
    cases replaces
  case above =>
    intro _ some
    cases some
  case bare => exact fun _ _ => lineStart_startOfLine document line
  case documented =>
    intro declaration found
    cases found

/-- What is read from source is not documented yet. -/
theorem Window.undocumented_of_target {window : Window} {inferDirection : Bool}
    {declaration : Declaration}
    (found : (window.target inferDirection).declaration = some declaration)
    : declaration.documented = false := by
  rcases Window.declaration_source found with definition | ⟨head, function | pointer⟩
  · obtain ⟨head, -, rfl⟩ := Option.map_eq_some_iff.mp definition
    rfl
  · obtain ⟨prototype, -, rfl⟩ := Option.map_eq_some_iff.mp function
    rfl
  · obtain ⟨⟨-, prototype⟩, -, rfl⟩ := Option.map_eq_some_iff.mp pointer
    rfl

/-- Where a declaration of the window is taken to stand: where its signature is last shown, or else
at the cursor. -/
def Window.offsetOf (window : Window) (declaration : Declaration) : Nat :=
  match Text.lastIndexOf? declaration.signature window.shown with
  | some i => window.start + i
  | none => window.cursor

theorem offsetOf_le_length (style : Style) (document : Text) (line : Int)
    (declaration : Declaration)
    : (window style document line).offsetOf declaration ≤ document.length := by
  unfold Window.offsetOf
  split
  · next i found =>
    obtain ⟨passed, later, stands, rfl⟩ := Text.lastIndexOf?_sound found
    obtain ⟨front, rest, whole, size⟩ := window_shown_shape style document line
    have total := congrArg List.length whole
    rw [stands] at total
    simp only [List.length_append] at total
    omega
  · exact startOfLine_le_length _ document

/-- Every generated anchor is a position of the document. Witness: the comment found before a target
stands in the document, and the line of a shown signature starts in it.
-/
theorem generation_placed (style : Style) (document : Text) (line : Int)
    : Placed (Text.normaliseBreaks document) line (generate style document line) := by
  rw [generate]
  generalize Text.normaliseBreaks document = document
  cases found : Text.findFirst? trailingComment?
      ((window style document line).target style.inferDirection).preceding with
  | some result =>
      obtain ⟨passed, indent, comment⟩ := result
      obtain ⟨rest, -, here⟩ := Text.findFirst?_sound found
      obtain ⟨body, -, -, shape, -, -⟩ := trailingComment?_sound here
      rw [generateAt_of_comment found]
      exact placed_replaceComment shape (slice_lastShown (Window.comment_isInfix found)) _
  | none =>
      cases declared : ((window style document line).target style.inferDirection).declaration with
      | some declaration =>
          rw [generateAt_of_declaration found declared]
          exact placed_insertAbove (offsetOf_le_length style document line declaration)
            (Window.undocumented_of_target declared)
      | none =>
          rw [generateAt_bare found declared]
          exact placed_insertBare _

end DocBlock.Document
