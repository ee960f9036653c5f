import DocBlock.Proofs.Document.Placement
import DocBlock.Proofs.Signature.Lexemes
import DocBlock.Proofs.Text.LineBreaks

/-! Only the window around the cursor matters. In a document that goes on above and below the
window, what is generated is what the window alone gives, moved behind the text above it. Every use
of the document outside the window stays inside it: a line that starts in the window also ends in
it, and so its indentation is read there.
-/

namespace DocBlock

/-- The same span in a document with more text in front. -/
def Anchor.behind (front : Text) (anchor : Anchor) : Anchor :=
  {
    anchor with
    start := front.length + anchor.start
    stop := front.length + anchor.stop
    line := front.count '\n' + anchor.line
  }

namespace Document

/-- The same comment in a document with more text in front. -/
def Generation.behind (front : Text) (generation : Generation) : Generation :=
  { generation with anchor := generation.anchor.behind front }

--------------------------------------------------------------------------------
-- Positions behind more text
--------------------------------------------------------------------------------

section Behind

variable {front text : Text}

theorem take_behind (front text rest : Text) {offset : Nat} (bound : offset ≤ text.length)
    : (front ++ text ++ rest).take (front.length + offset) = front ++ text.take offset := by
  rw [List.append_assoc, List.take_length_add_append, List.take_append_of_le_length bound]

/-- A column is counted from the start of its line, and lines end in front of the text. -/
theorem column_behind (ends : EndsLine front) {offset : Nat} (bound : offset ≤ text.length)
    (rest : Text)
    : column (front ++ text ++ rest) (front.length + offset) = column text offset := by
  obtain ⟨lines, line, more, rfl, rfl, linesEnd, flat⟩ := exists_lineOf bound
  have outer := column_append (ends.append linesEnd) flat (more ++ rest)
  have inner := column_append linesEnd flat more
  rw [inner, ← outer]
  simp

theorem anchor_behind (ends : EndsLine front) {start : Nat} (bound : start ≤ text.length)
    (edit : Edit) (stop : Nat) (rest : Text)
    : anchor (front ++ text ++ rest) edit (front.length + start) (front.length + stop)
      = (anchor text edit start stop).behind front := by
  simp only [anchor, Anchor.behind, column_behind ends bound, lineNumber,
    take_behind front text rest bound, List.count_append]

theorem replaceComment_behind (style : Style) (ends : EndsLine front) {start : Nat}
    (bound : start ≤ text.length) (rest indent comment : Text) (declaration : Option Declaration)
    : replaceComment style (front ++ text ++ rest) (front.length + start) indent comment declaration
      = (replaceComment style text start indent comment declaration).behind front := by
  have place := anchor_behind ends bound .replace (start + comment.length) rest
  rw [← Nat.add_assoc] at place
  cases declaration <;> simp only [replaceComment, place, Generation.behind]

/-- The indentation of a line is read before the line ends. -/
theorem indentation_append {line : Text} (ends : line.getLast? = some '\n') (rest : Text)
    : Text.indentation (line ++ rest) = Text.indentation line := by
  obtain ⟨inner, rfl⟩ := List.getLast?_eq_some_iff.mp ends
  have feed : Text.isBlank '\n' = false := by decide
  rw [Text.indentation, Text.indentation, List.append_assoc, List.singleton_append,
    Text.takeWhile_append_stop feed, Text.takeWhile_append_stop feed]

/-- A block goes above a line of the text, which also ends in the text. -/
theorem insertAbove_behind (style : Style) (ends : EndsLine front)
    (last : text.getLast? = some '\n') {offset : Nat} (inside : offset < text.length) (rest : Text)
    (declaration : Declaration)
    : insertAbove style (front ++ text ++ rest) (front.length + offset) declaration
      = (insertAbove style text offset declaration).behind front := by
  have width := column_behind ends (Nat.le_of_lt inside) rest
  have fits : column text offset ≤ offset := by
    have start := startOfLine_add_column (Nat.le_of_lt inside)
    omega
  have start : front.length + offset - column text offset
      = front.length + (offset - column text offset) := Nat.add_sub_assoc fits front.length
  have indent : Text.indentation
        ((front ++ text ++ rest).drop (front.length + (offset - column text offset)))
      = Text.indentation (text.drop (offset - column text offset)) := by
    have line : (text.drop (offset - column text offset)).getLast? = some '\n' := by
      rw [List.getLast?_drop, if_neg (by omega), last]
    rw [List.append_assoc, List.drop_length_add_append,
      List.drop_append_of_le_length (by omega), indentation_append line]
  have place := anchor_behind ends (by omega : offset - column text offset ≤ text.length) .insert
    (offset - column text offset) rest
  simp only [insertAbove, width, start, indent, place, Generation.behind]

theorem insertBare_behind (ends : EndsLine front) {cursor : Nat} (bound : cursor ≤ text.length)
    (rest line : Text)
    : insertBare (front ++ text ++ rest) (front.length + cursor) line
      = (insertBare text cursor line).behind front := by
  simp only [insertBare, anchor_behind ends bound, Generation.behind]

end Behind

--------------------------------------------------------------------------------
-- Lines that fill the window
--------------------------------------------------------------------------------

/-- The text is made of as many lines as the window shows, each ended by a line feed. -/
structure FillsWindow (style : Style) (text : Text) : Prop where
  ends : EndsLine text
  lines : text.count '\n' = style.lookbehindLines + style.lookaheadLines

section Window

variable {style : Style} {text : Text}

theorem FillsWindow.last (fills : FillsWindow style text) : text.getLast? = some '\n' := by
  refine fills.ends.resolve_left ?_
  rintro rfl
  have lines := fills.lines
  have positive := style.lookahead_pos
  simp only [List.count_nil] at lines
  omega

/-- The cursor line splits the lines of the window, and it ends in the window. -/
theorem FillsWindow.exists_cursor (fills : FillsWindow style text)
    : ∃ early late,
        text = early ++ late
        ∧ EndsLine early
        ∧ early.count '\n' = style.lookbehindLines
        ∧ late ≠ [] := by
  have present : style.lookbehindLines ≤ text.count '\n' := by
    rw [fills.lines]
    exact Nat.le_add_right _ _
  obtain ⟨early, late, rfl, lines, ends⟩ := exists_lineStart present
  refine ⟨early, late, rfl, ends, lines, ?_⟩
  rintro rfl
  have all := fills.lines
  have positive := style.lookahead_pos
  rw [List.append_nil] at all
  omega

/-- Whatever stands above and below, the window shows exactly the lines that fill it. -/
theorem window_filled {front early late : Text} (above : EndsLine front)
    (fills : FillsWindow style (early ++ late)) (ends : EndsLine early)
    (lines : early.count '\n' = style.lookbehindLines) (rest : Text)
    : window style (front ++ (early ++ late) ++ rest)
        ((front.count '\n' : Int) + style.lookbehindLines)
      = {
        start := front.length
        cursor := (front ++ early).length
        before := early
        after := late
      } := by
  have startLine : ((front.count '\n' : Int) + style.lookbehindLines
      - style.lookbehindLines).toNat = front.count '\n' := by
    omega
  have cursorLine : ((front.count '\n' : Int) + style.lookbehindLines).toNat
      = (front ++ early).count '\n' := by
    rw [List.count_append, lines]
    omega
  have stopLine : ((front.count '\n' : Int) + style.lookbehindLines
      + style.lookaheadLines).toNat = (front ++ (early ++ late)).count '\n' := by
    rw [List.count_append, fills.lines]
    omega
  have start := startOfLine_count above (early ++ late ++ rest)
  have cursor := startOfLine_count (above.append ends) (late ++ rest)
  have stop := startOfLine_count (above.append fills.ends) rest
  have before := slice_append front early (late ++ rest)
  have after := slice_append (front ++ early) late rest
  simp only [← List.append_assoc, ← List.length_append] at start cursor stop before after ⊢
  simp only [window, startLine, cursorLine, stopLine, ← List.append_assoc, start, cursor, stop,
    before, after]

/-- The same window in a document with more text in front. -/
def Window.behind (front : Text) (window : Window) : Window :=
  { window with start := front.length + window.start, cursor := front.length + window.cursor }

theorem Window.target_behind (front : Text) (window : Window) (inferDirection : Bool)
    : (window.behind front).target inferDirection = window.target inferDirection :=
  rfl

theorem Window.offsetOf_behind (front : Text) (window : Window) (declaration : Declaration)
    : (window.behind front).offsetOf declaration
      = front.length + window.offsetOf declaration := by
  unfold Window.offsetOf
  have same : (window.behind front).shown = window.shown := rfl
  rw [same]
  split
  · exact Nat.add_assoc _ _ _
  · rfl

theorem window_behind {front : Text} (above : EndsLine front) (fills : FillsWindow style text)
    (rest : Text)
    : window style (front ++ text ++ rest) ((front.count '\n' : Int) + style.lookbehindLines)
      = (window style text style.lookbehindLines).behind front := by
  obtain ⟨early, late, rfl, ends, lines, -⟩ := fills.exists_cursor
  have outer := window_filled above fills ends lines rest
  have inner := window_filled (.inl rfl) fills ends lines []
  simp only [List.nil_append, List.append_nil, List.count_nil, Int.natCast_zero, Int.zero_add]
    at inner
  rw [outer, inner, Window.behind, List.length_append]
  rfl

end Window

--------------------------------------------------------------------------------
-- What is generated in the window
--------------------------------------------------------------------------------

/-- What is read from source has a text, with its parameter list in it. -/
theorem Window.signature_ne_nil {window : Window} {inferDirection : Bool}
    {declaration : Declaration}
    (found : (window.target inferDirection).declaration = some declaration)
    : declaration.signature ≠ [] := by
  rcases Window.declaration_source found with definition | ⟨head, function | pointer⟩
  · obtain ⟨head, last, rfl⟩ := Option.map_eq_some_iff.mp definition
    obtain ⟨line, -, read⟩ := List.mem_filterMap.mp (List.mem_of_getLast? last)
    simp only [Signature.functionMacro?, Option.bind_eq_bind, Option.bind_eq_some_iff,
      Option.ite_none_left_eq_some, Option.some.injEq, Prod.exists] at read
    obtain ⟨-, -, -, -, -, -, -, -, -, -, rfl⟩ := read
    simp [Signature.MacroHead.declaration]
  · obtain ⟨prototype, last, rfl⟩ := Option.map_eq_some_iff.mp function
    have member := List.mem_of_mem_filter (List.mem_of_getLast? last)
    obtain ⟨rest, later, -, read⟩ := Text.mem_findAll member
    obtain ⟨returnType, name, gap, parameters, behind, shape, -⟩ := Signature.function?_sound read
    have text : prototype.head ≠ [] := by simp [shape.text]
    exact text
  · obtain ⟨⟨passed, prototype⟩, here, rfl⟩ := Option.map_eq_some_iff.mp pointer
    obtain ⟨rest, -, read⟩ := Text.findFirst?_sound here
    obtain ⟨-, behind⟩ := Option.ite_none_left_eq_some.mp read
    simp only [Option.bind_eq_bind, Option.bind_eq_some_iff, Option.some.injEq, Prod.exists]
      at behind
    obtain ⟨declarator, name, parameters, written, rfl⟩ := behind
    simp only [Signature.pointerDeclarator?, Option.bind_eq_bind, Option.bind_eq_some_iff,
      Option.ite_none_right_eq_some, Option.some.injEq, Prod.exists, Prod.mk.injEq] at written
    obtain ⟨-, -, -, -, -, -, -, -, -, -, -, -, rfl, -⟩ := written
    simp [Signature.Prototype.declaration]

/-- A declaration of the window is taken to stand on a line of it. -/
theorem offsetOf_lt_length {style : Style} {text : Text} (fills : FillsWindow style text)
    {declaration : Declaration}
    (found : ((window style text style.lookbehindLines).target style.inferDirection).declaration
      = some declaration)
    : (window style text style.lookbehindLines).offsetOf declaration < text.length := by
  unfold Window.offsetOf
  split
  · next i shown =>
    obtain ⟨passed, later, stands, rfl⟩ := Text.lastIndexOf?_sound shown
    obtain ⟨front, rest, whole, size⟩ :=
      window_shown_shape style text (style.lookbehindLines : Int)
    have positive := List.length_pos_iff.mpr (Window.signature_ne_nil found)
    have total := congrArg List.length whole
    rw [stands] at total
    simp only [List.length_append] at total
    omega
  · obtain ⟨early, late, rfl, ends, lines, nonempty⟩ := fills.exists_cursor
    have cursor : (window style (early ++ late) style.lookbehindLines).cursor = early.length := by
      rw [← lines]
      exact startOfLine_count ends late
    have positive := List.length_pos_iff.mpr nonempty
    rw [cursor, List.length_append]
    omega

theorem generateAt_at_offset {style : Style} {document : Text} {line : Int}
    {declaration : Declaration}
    (missing : Text.findFirst? trailingComment?
        ((window style document line).target style.inferDirection).preceding
      = none)
    (declared : ((window style document line).target style.inferDirection).declaration
      = some declaration)
    : generateAt style document line
      = insertAbove style document ((window style document line).offsetOf declaration)
          declaration :=
  generateAt_of_declaration missing declared

/-- A comment that the window shows starts in the document. -/
theorem lastShown_le_length {style : Style} {document comment : Text} {line : Int}
    (shown : comment <:+: (window style document line).shown)
    : (window style document line).start
        + (Text.lastIndexOf? comment (window style document line).shown).getD 0
      ≤ document.length := by
  obtain ⟨i, last⟩ := Text.lastIndexOf?_isSome shown
  obtain ⟨before, later, stands, rfl⟩ := Text.lastIndexOf?_sound last
  obtain ⟨front, rest, whole, size⟩ := window_shown_shape style document line
  have total := congrArg List.length whole
  rw [stands] at total
  simp only [List.length_append] at total
  rw [last, Option.getD_some]
  omega

/-- In a longer document what is generated in the window is what the window alone gives. Witness:
both windows show the same text, so that they have the same target, and its positions lie inside.
-/
theorem generateAt_behind {style : Style} {front text : Text} (ends : EndsLine front)
    (fills : FillsWindow style text) (rest : Text)
    : generateAt style (front ++ text ++ rest) ((front.count '\n' : Int) + style.lookbehindLines)
      = (generateAt style text style.lookbehindLines).behind front := by
  have moved := window_behind ends fills rest
  have target : (window style (front ++ text ++ rest)
        ((front.count '\n' : Int) + style.lookbehindLines)).target style.inferDirection
      = (window style text style.lookbehindLines).target style.inferDirection := by
    rw [moved, Window.target_behind]
  cases found : Text.findFirst? trailingComment?
      ((window style text style.lookbehindLines).target style.inferDirection).preceding with
  | some result =>
      obtain ⟨passed, indent, comment⟩ := result
      have inside := replaceComment_behind style ends
        (lastShown_le_length (Window.comment_isInfix found)) rest indent comment
        ((window style text style.lookbehindLines).target style.inferDirection).declaration
      rw [generateAt_of_comment found, generateAt_of_comment (by rw [target, found]), target,
        moved, ← inside, ← Nat.add_assoc]
      rfl
  | none =>
      cases declared : ((window style text style.lookbehindLines).target
          style.inferDirection).declaration with
      | some declaration =>
          have inside := insertAbove_behind style ends fills.last
            (offsetOf_lt_length fills declared) rest declaration
          rw [← Window.offsetOf_behind, ← moved] at inside
          rw [generateAt_at_offset found declared,
            generateAt_at_offset (by rw [target, found]) (by rw [target, declared]), inside]
      | none =>
          rw [generateAt_bare found declared,
            generateAt_bare (by rw [target, found]) (by rw [target, declared]), moved]
          exact insertBare_behind ends (startOfLine_le_length _ text) rest _

/-- The same comment for the same declaration, moved by a number of characters and of lines. -/
structure Moved (characters lines : Int) (one other : Generation) : Prop where
  snippet : other.snippet = one.snippet
  declaration : other.declaration = one.declaration
  edit : other.anchor.edit = one.anchor.edit
  character : other.anchor.character = one.anchor.character
  start : (other.anchor.start : Int) - one.anchor.start = characters
  stop : (other.anchor.stop : Int) - one.anchor.stop = characters
  line : (other.anchor.line : Int) - one.anchor.line = lines

theorem moved_behind (front other : Text) (generation : Generation)
    : Moved (other.length - front.length : Int) (other.count '\n' - front.count '\n' : Int)
        (generation.behind front) (generation.behind other) where
  snippet := rfl
  declaration := rfl
  edit := rfl
  character := rfl
  start := by
    simp only [Generation.behind, Anchor.behind]
    omega
  stop := by
    simp only [Generation.behind, Anchor.behind]
    omega
  line := by
    simp only [Generation.behind, Anchor.behind]
    omega

/-- Nothing above or below the lines of the window shows in what is generated: in any two documents
with the same lines around the cursor it is the same, moved by what stands above. Witness: both are
what the window alone gives, behind the text above it.
-/
theorem generate_in_window (style : Style) (front other text rest more : Text)
    (ends : EndsLine front) (otherEnds : EndsLine other) (fills : FillsWindow style text)
    (feeds : '\r' ∉ front ++ text ++ rest) (otherFeeds : '\r' ∉ other ++ text ++ more)
    : Moved (other.length - front.length : Int) (other.count '\n' - front.count '\n' : Int)
        (generate style (front ++ text ++ rest)
          ((front.count '\n' : Int) + style.lookbehindLines))
        (generate style (other ++ text ++ more)
          ((other.count '\n' : Int) + style.lookbehindLines)) := by
  rw [generate, generate, Text.normaliseBreaks_of_not_mem feeds,
    Text.normaliseBreaks_of_not_mem otherFeeds, generateAt_behind ends fills rest,
    generateAt_behind otherEnds fills more]
  exact moved_behind front other (generateAt style text style.lookbehindLines)

/-- A window of one line above the cursor line and of this line. -/
def narrow : Style :=
  {
    Style.default with
    lookbehindLines := 1
    lookaheadLines := 1
    lookahead_pos := Nat.le_refl 1
  }

/-- A function keeps its comment in a window of two lines, with an open comment above it and without
one. -/
theorem generate_in_window_narrow
    : Moved (0 - 8 : Int) (0 - 1 : Int)
        (generate narrow "/* open\n/** Old. */\nint f(void);\n */".toList 2)
        (generate narrow "/** Old. */\nint f(void);\n*".toList 1)
      ∧ (generate narrow "/** Old. */\nint f(void);\n*".toList 1).anchor.edit = .replace := by
  refine ⟨?_, by decide +kernel⟩
  exact generate_in_window narrow "/* open\n".toList [] "/** Old. */\nint f(void);\n".toList
    " */".toList "*".toList (by decide) (by decide) ⟨by decide, by decide⟩ (by decide) (by decide)

end Document

end DocBlock
