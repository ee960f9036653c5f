import DocBlock.Document.Generate
import DocBlock.Proofs.Text.Runs
import DocBlock.Proofs.Text.Search

/-! Line starts and the window around a cursor line, as splits of the document. The window lies in
the document as one stretch, with the cursor line starting where the text before it ends.
-/

namespace DocBlock.Document

--------------------------------------------------------------------------------
-- Starts of lines
--------------------------------------------------------------------------------

/-- A text after which a line starts: it is empty or ends with a line feed. -/
def EndsLine (text : Text) : Prop :=
  text = [] ∨ text.getLast? = some '\n'

instance : DecidablePred EndsLine :=
  fun text => inferInstanceAs (Decidable (text = [] ∨ text.getLast? = some '\n'))

/-- Dropping a first character keeps the end of the last line. -/
theorem EndsLine.of_cons {c : Char} {text : Text} (ends : EndsLine (c :: text))
    : EndsLine text := by
  cases text with
  | nil => exact .inl rfl
  | cons d rest =>
      refine .inr ?_
      simpa [EndsLine, List.getLast?_cons_cons] using ends

theorem EndsLine.append {front text : Text} (first : EndsLine front) (second : EndsLine text)
    : EndsLine (front ++ text) := by
  rcases second with rfl | last
  · simpa using first
  · exact .inr (by simp [List.getLast?_append, last])

/-- Text that does not end a line ends behind every line in it. -/
theorem EndsLine.getLast?_behind {front text : Text} {c : Char} (line : EndsLine front)
    (last : (front ++ text).getLast? = some c) (inner : c ≠ '\n')
    : text.getLast? = some c := by
  cases text with
  | nil =>
      rw [List.append_nil] at last
      rcases line with rfl | feed
      · contradiction
      · exact absurd (Option.some.inj (last.symm.trans feed)) inner
  | cons d text => simpa [List.getLast?_append] using last

/-- A text in front of which a line ends, and which ends a line itself, is empty or holds a line
feed. -/
theorem EndsLine.eq_nil_of_append {front text : Text} (ends : EndsLine (front ++ text))
    (flat : '\n' ∉ text)
    : text = [] := by
  rcases List.eq_nil_or_concat text with rfl | ⟨inner, last, rfl⟩
  · rfl
  · rcases ends with empty | feed
    · simp at empty
    · obtain rfl : last = '\n' := by simpa using feed
      simp at flat

/-- There is one way to split a text behind its last line feed. -/
theorem EndsLine.unique {lines others text line : Text} (first : EndsLine lines)
    (second : EndsLine others) (flat : '\n' ∉ text) (unbroken : '\n' ∉ line)
    (whole : lines ++ text = others ++ line)
    : lines = others := by
  rcases List.append_eq_append_iff.mp whole with ⟨more, rfl, rfl⟩ | ⟨more, rfl, rfl⟩
  · have none := second.eq_nil_of_append fun feed => flat (List.mem_append_left _ feed)
    rw [none, List.append_nil]
  · have none := first.eq_nil_of_append fun feed => unbroken (List.mem_append_left _ feed)
    rw [none, List.append_nil]

/-- Lines are counted on through a text that ends a line, or past it if more lines follow. Witness:
induction on the text in front.
-/
theorem startOfLine_append {front : Text} {more : Nat} (counted : 0 < more ∨ EndsLine front)
    (rest : Text)
    : startOfLine (front.count '\n' + more) (front ++ rest)
      = front.length + startOfLine more rest := by
  induction front with
  | nil => simp
  | cons c front ih =>
      have later := ih (counted.imp_right EndsLine.of_cons)
      by_cases feed : c = '\n'
      · subst feed
        have shift : List.count '\n' ('\n' :: front) + more = (front.count '\n' + more) + 1 := by
          simp only [List.count_cons_self]
          omega
        rw [shift, List.cons_append, startOfLine, if_pos rfl, later, List.length_cons]
        omega
      · have positive : 0 < front.count '\n' + more := by
          rcases counted with many | ends
          · omega
          · rcases ends with impossible | last
            · simp at impossible
            · have member := List.mem_of_getLast? last
              have inside : '\n' ∈ front :=
                (List.mem_cons.mp member).resolve_left fun same => feed same.symm
              have := List.count_pos_iff.mpr inside
              omega
        obtain ⟨lines, same⟩ := Nat.exists_eq_add_of_lt positive
        rw [List.count_cons_of_ne feed, same, Nat.zero_add, List.cons_append, startOfLine,
          if_neg feed, List.length_cons]
        rw [same, Nat.zero_add] at later
        omega

/-- A line starts behind the lines before it. -/
theorem startOfLine_count {front : Text} (ends : EndsLine front) (rest : Text)
    : startOfLine (front.count '\n') (front ++ rest) = front.length := by
  simpa [startOfLine] using startOfLine_append (.inr ends : 0 < 0 ∨ EndsLine front) rest

theorem startOfLine_le_length (line : Nat) (text : Text) : startOfLine line text ≤ text.length := by
  induction text generalizing line with
  | nil => cases line <;> simp [startOfLine]
  | cons c rest ih =>
      cases line with
      | zero => simp [startOfLine]
      | succ line =>
          have later := ih (if c = '\n' then line else line + 1)
          simp only [startOfLine, List.length_cons]
          omega

/-- Later lines do not start earlier, by induction on the text. -/
theorem startOfLine_mono {line later : Nat} (order : line ≤ later) (text : Text)
    : startOfLine line text ≤ startOfLine later text := by
  induction text generalizing line later with
  | nil => cases line <;> cases later <;> simp [startOfLine]
  | cons c rest ih =>
      cases line with
      | zero => simp [startOfLine]
      | succ line =>
          cases later with
          | zero => omega
          | succ later =>
              have next : (if c = '\n' then line else line + 1)
                  ≤ (if c = '\n' then later else later + 1) := by
                split <;> omega
              have bound := ih next
              simp only [startOfLine]
              omega

/-- Every line of a text starts somewhere in it: the text splits there. Witness: induction on the
text, passing over one line feed for each line.
-/
theorem exists_lineStart {text : Text} {line : Nat} (present : line ≤ text.count '\n')
    : ∃ front rest, text = front ++ rest ∧ front.count '\n' = line ∧ EndsLine front := by
  induction text generalizing line with
  | nil =>
      obtain rfl : line = 0 := by simpa using present
      exact ⟨[], [], rfl, rfl, .inl rfl⟩
  | cons c text ih =>
      cases line with
      | zero => exact ⟨[], c :: text, rfl, rfl, .inl rfl⟩
      | succ line =>
          have step {front : Text} (ends : EndsLine front) (nonempty : c = '\n' ∨ front ≠ [])
              : EndsLine (c :: front) := by
            refine .inr ?_
            rcases ends with rfl | last
            · simpa using nonempty
            · rw [List.getLast?_cons, last]
              rfl
          by_cases feed : c = '\n'
          · subst feed
            obtain ⟨front, rest, rfl, lines, ends⟩ :=
              ih (by simpa using present : line ≤ text.count '\n')
            exact ⟨'\n' :: front, rest, rfl, by simp [lines], step ends (.inl rfl)⟩
          · rw [List.count_cons_of_ne feed] at present
            obtain ⟨front, rest, rfl, lines, ends⟩ := ih present
            have nonempty : front ≠ [] := by
              rintro rfl
              simp at lines
            exact ⟨c :: front, rest, rfl, by rw [List.count_cons_of_ne feed, lines],
              step ends (.inr nonempty)⟩

/-- An offset in a document stands behind a stretch of its line. Witness: the characters before it
are split behind their last line feed.
-/
theorem exists_lineOf {document : Text} {offset : Nat} (bound : offset ≤ document.length)
    : ∃ front text rest,
        document = front ++ text ++ rest
        ∧ (front ++ text).length = offset
        ∧ EndsLine front
        ∧ '\n' ∉ text := by
  have before : (document.take offset).length = offset := List.length_take_of_le bound
  have whole : ((document.take offset).reverse.dropWhile (· ≠ '\n')).reverse
        ++ ((document.take offset).reverse.takeWhile (· ≠ '\n')).reverse
      = document.take offset := by
    rw [← List.reverse_append, List.takeWhile_append_dropWhile, List.reverse_reverse]
  refine ⟨((document.take offset).reverse.dropWhile (· ≠ '\n')).reverse,
    ((document.take offset).reverse.takeWhile (· ≠ '\n')).reverse, document.drop offset, ?_, ?_, ?_,
    ?_⟩
  · rw [whole, List.take_append_drop]
  · rw [whole, before]
  · cases behind : (document.take offset).reverse.dropWhile (· ≠ '\n') with
    | nil => exact .inl rfl
    | cons c rest =>
        have feed : decide (c ≠ '\n') = false := Text.head?_dropWhile (by rw [behind]; rfl)
        exact .inr (by simpa using feed)
  · intro member
    have inside := List.mem_takeWhile_imp (List.mem_reverse.mp member)
    simp at inside

theorem column_append {front text : Text} (ends : EndsLine front) (flat : '\n' ∉ text)
    (rest : Text)
    : column (front ++ text ++ rest) (front ++ text).length = text.length := by
  have inner : ∀ c ∈ text.reverse, decide (c ≠ '\n') = true := by
    intro c member
    exact decide_eq_true fun feed => flat (feed ▸ List.mem_reverse.mp member)
  have stop : ∀ c, front.reverse.head? = some c → decide (c ≠ '\n') = false := by
    intro c first
    rw [List.head?_reverse] at first
    rcases ends with rfl | last
    · simp at first
    · obtain rfl := Option.some.inj (last.symm.trans first)
      rfl
  rw [column, List.take_left, List.reverse_append, Text.takeWhile_run inner stop,
    List.length_reverse]

/-- The anchor of a span that starts behind a stretch on its line. -/
theorem anchor_append {front text : Text} (ends : EndsLine front) (flat : '\n' ∉ text)
    (edit : Edit) (stop : Nat) (rest : Text)
    : anchor (front ++ text ++ rest) edit (front ++ text).length stop
      = {
        edit, stop
        start := (front ++ text).length
        line := front.count '\n'
        character := text.length
      } := by
  have lines : (front ++ text).count '\n' = front.count '\n' := by
    rw [List.count_append, List.count_eq_zero.mpr flat, Nat.add_zero]
  simp only [anchor, column_append ends flat, lineNumber, List.take_left, lines]

--------------------------------------------------------------------------------
-- Stretches of the document
--------------------------------------------------------------------------------

theorem slice_append (front middle rest : Text)
    : Text.slice front.length (front.length + middle.length) (front ++ middle ++ rest)
      = middle := by
  rw [Text.slice, ← List.length_append, List.take_left, List.drop_left]

theorem slice_append_slice {start middle stop : Nat} (first : start ≤ middle)
    (second : middle ≤ stop) (text : Text)
    : Text.slice start middle text ++ Text.slice middle stop text
      = Text.slice start stop text := by
  have front : text.take middle = (text.take stop).take middle := by
    rw [List.take_take, Nat.min_eq_left second]
  rw [Text.slice, front, List.drop_take]
  have behind : Text.slice middle stop text
      = ((text.take stop).drop start).drop (middle - start) := by
    rw [Text.slice, List.drop_drop, Nat.add_sub_cancel' first]
  rw [behind, List.take_append_drop]
  rfl

theorem exists_slice {start stop : Nat} (text : Text) (bound : stop ≤ text.length)
    (order : start ≤ stop)
    : ∃ front rest, text = front ++ Text.slice start stop text ++ rest ∧ front.length = start := by
  refine ⟨text.take start, text.drop stop, ?_, by rw [List.length_take]; omega⟩
  have front : text.take start = (text.take stop).take start := by
    rw [List.take_take, Nat.min_eq_left order]
  rw [front, Text.slice, List.take_append_drop, List.take_append_drop]

--------------------------------------------------------------------------------
-- The window
--------------------------------------------------------------------------------

/-- The window is one stretch of the document, in which the cursor line follows the text before
it. -/
theorem window_shape (style : Style) (document : Text) (line : Int)
    : ∃ front rest,
        document
          = front ++ (window style document line).before ++ (window style document line).after
            ++ rest
        ∧ front.length = (window style document line).start
        ∧ (front ++ (window style document line).before).length
          = (window style document line).cursor := by
  have first : (window style document line).start ≤ (window style document line).cursor :=
    startOfLine_mono (by omega) document
  have second : (window style document line).cursor
      ≤ startOfLine (line + style.lookaheadLines).toNat document :=
    startOfLine_mono (by omega) document
  obtain ⟨front, rest, whole, size⟩ :=
    exists_slice document (startOfLine_le_length _ document) (first.trans second)
  rw [← slice_append_slice first second] at whole
  refine ⟨front, rest, whole.trans (by rw [← List.append_assoc]; rfl), size, ?_⟩
  have cut : ((window style document line).before).length
      = (window style document line).cursor - (window style document line).start := by
    have bound : (window style document line).cursor ≤ document.length :=
      startOfLine_le_length _ document
    simp only [window, Text.slice, List.length_drop, List.length_take] at bound ⊢
    omega
  rw [List.length_append, size, cut]
  omega

/-- The window around a line of a declaration, which stands at the start of a line or below other
text that ends a line. It starts in the text before, and it shows all that its lines reach.
Witness: the lines that the window starts and stops at, and the cursor line, split the document.
-/
theorem exists_window {style : Style} {front above head reached later : Text} {line : Nat}
    (ends : EndsLine (front ++ above))
    (first : (front ++ above).count '\n' ≤ line)
    (last : line ≤ (front ++ above ++ head).count '\n')
    (behind : line ≤ front.count '\n' + style.lookbehindLines)
    (ahead : (front ++ above ++ head ++ reached).count '\n' < line + style.lookaheadLines)
    : ∃ skipped seen started opened shown,
        front = skipped ++ seen
        ∧ head = started ++ opened
        ∧ EndsLine started
        ∧ (front ++ above ++ started).count '\n' = line
        ∧ window style (front ++ above ++ head ++ reached ++ later) line
          = {
            start := skipped.length
            cursor := (front ++ above ++ started).length
            before := seen ++ above ++ started
            after := opened ++ reached ++ shown
          } := by
  obtain ⟨skipped, seen, rfl, passed, skippedEnds⟩ :=
    exists_lineStart (Nat.sub_le_iff_le_add.mpr behind)
  obtain ⟨started, opened, rfl, lines, startedEnds⟩ :=
    @exists_lineStart head (line - (skipped ++ seen ++ above).count '\n') (by
      rw [List.count_append] at last
      omega)
  obtain ⟨more, reach⟩ := Nat.exists_eq_add_of_lt ahead
  have stop : startOfLine (line + style.lookaheadLines)
        (skipped ++ seen ++ above ++ (started ++ opened) ++ reached ++ later)
      = (skipped ++ seen ++ above ++ (started ++ opened) ++ reached).length
        + startOfLine (more + 1) later := by
    rw [reach, Nat.add_assoc]
    exact startOfLine_append (.inl (Nat.succ_pos more)) later
  have start : startOfLine (line - style.lookbehindLines)
        (skipped ++ seen ++ above ++ (started ++ opened) ++ reached ++ later)
      = skipped.length := by
    rw [← passed]
    simpa using
      startOfLine_count skippedEnds (seen ++ above ++ (started ++ opened) ++ reached ++ later)
  have counted : (skipped ++ seen ++ above ++ started).count '\n' = line := by
    rw [List.count_append, lines]
    omega
  have cursor : startOfLine line
        (skipped ++ seen ++ above ++ (started ++ opened) ++ reached ++ later)
      = (skipped ++ seen ++ above ++ started).length := by
    rw [← counted]
    simpa using startOfLine_count (ends.append startedEnds) (opened ++ reached ++ later)
  have size : (later.take (startOfLine (more + 1) later)).length = startOfLine (more + 1) later :=
    List.length_take_of_le (startOfLine_le_length _ later)
  have before := slice_append skipped (seen ++ above ++ started) (opened ++ reached ++ later)
  have after := slice_append (skipped ++ seen ++ above ++ started)
    (opened ++ reached ++ later.take (startOfLine (more + 1) later))
    (later.drop (startOfLine (more + 1) later))
  refine ⟨skipped, seen, started, opened, later.take (startOfLine (more + 1) later), rfl, rfl,
    startedEnds, counted, ?_⟩
  have startLine : ((line : Int) - style.lookbehindLines).toNat = line - style.lookbehindLines := by
    omega
  have stopLine : ((line : Int) + style.lookaheadLines).toNat = line + style.lookaheadLines := by
    omega
  simp only [window, startLine, stopLine, Int.toNat_natCast, start, cursor, stop, Window.mk.injEq,
    true_and]
  constructor
  · rw [← before]
    simp
  · rw [← after]
    simp [size, Nat.add_assoc]

theorem firstStatement_isPrefix (text : Text) : firstStatement text <+: text := by
  unfold firstStatement
  split
  · exact List.take_prefix _ text
  · exact List.prefix_rfl

/-- The part of a window that is looked at: all before the cursor, and the first statement behind
it. -/
def Window.shown (window : Window) : Text :=
  window.before ++ firstStatement window.after

/-- What a window shows is one stretch of the document, from the start of the window on. -/
theorem window_shown_shape (style : Style) (document : Text) (line : Int)
    : ∃ front rest,
        document = front ++ (window style document line).shown ++ rest
        ∧ front.length = (window style document line).start := by
  obtain ⟨front, rest, whole, size, -⟩ := window_shape style document line
  obtain ⟨behind, statement⟩ := firstStatement_isPrefix (window style document line).after
  refine ⟨front, behind ++ rest, ?_, size⟩
  calc document
    _ = front ++ (window style document line).before
        ++ (window style document line).after ++ rest := whole
    _ = front ++ (window style document line).before
        ++ (firstStatement (window style document line).after ++ behind) ++ rest := by
      rw [statement]
    _ = front ++ (window style document line).shown ++ (behind ++ rest) := by
      simp [Window.shown]

end DocBlock.Document
