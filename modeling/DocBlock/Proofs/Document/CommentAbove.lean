import DocBlock.Proofs.Document.ReplacedSpan

/-! Which comment is replaced where nothing is declared at the cursor. The comment that ends right
above the cursor line is found, but it is replaced where the window shows its text last. That is the
comment found unless the statement at the cursor shows the same text again.
-/

namespace DocBlock.Document

open Text (isBlank)

variable {style : Style} {document : Text} {line : Int}

/-- Neither a macro nor the head of a declaration is found at the cursor, so that the cursor line
itself is the target. -/
def Window.Undeclared (window : Window) (inferDirection : Bool) : Prop :=
  if isDefineLine window.line then Signature.lastMacro? inferDirection window.line = none
  else
    head? (Text.trimEnd (Comment.strip
      (Comment.sinceLastDelimiter window.before ++ firstStatement window.after))) = none

instance (window : Window) (inferDirection : Bool)
    : Decidable (window.Undeclared inferDirection) := by
  unfold Window.Undeclared
  exact inferInstance

theorem Window.target_of_undeclared {window : Window} {inferDirection : Bool}
    (undeclared : window.Undeclared inferDirection)
    : window.target inferDirection
      = {
        declaration := none
        preceding := Comment.sinceLastDelimiter window.before ++ Text.indentation window.line
      } := by
  unfold Window.Undeclared at undeclared
  unfold Window.target
  split at undeclared
  · next define => simp only [define, undeclared, if_true]
  · next other => simp only [other, undeclared, Bool.false_eq_true, if_false]

--------------------------------------------------------------------------------
-- Gaps
--------------------------------------------------------------------------------

theorem IsGap.of_suffix {gap rest : Text} (whole : IsGap gap) (behind : rest <:+ gap)
    : IsGap rest :=
  ⟨fun c member => whole.1 c (behind.subset member),
    (behind.sublist.count_le '\n').trans whole.2⟩

theorem IsGap.append_blanks {gap blanks : Text} (whole : IsGap gap)
    (inside : ∀ c ∈ blanks, isBlank c = true)
    : IsGap (gap ++ blanks) := by
  have unbroken : '\n' ∉ blanks := fun feed => absurd (inside _ feed) (by decide)
  refine ⟨List.forall_mem_append.mpr ⟨whole.1, fun c member => .inl (inside c member)⟩, ?_⟩
  rw [List.count_append, List.count_eq_zero.mpr unbroken]
  exact whole.2

--------------------------------------------------------------------------------
-- Where the comment is shown
--------------------------------------------------------------------------------

/-- The comment above the cursor line ends in front of it, with a gap up to the text of that line.
Witness: what precedes the target ends with the blanks of the cursor line.
-/
theorem Window.exists_above {window : Window} {inferDirection : Bool}
    (undeclared : window.Undeclared inferDirection) {passed indent comment : Text}
    (found : Text.findFirst? trailingComment? (window.target inferDirection).preceding
      = some (passed, indent, comment))
    : comment.getLast? = some '/'
      ∧ ∃ front gap,
          window.before ++ Text.indentation window.line = front ++ comment ++ gap ∧ IsGap gap := by
  obtain ⟨rest, split, here⟩ := Text.findFirst?_sound found
  obtain ⟨body, gap, shape, rfl, -, -, small⟩ := trailingComment?_eq_some_iff.mp here
  obtain ⟨earlier, before⟩ := Comment.sinceLastDelimiter_isSuffix window.before
  rw [Window.target_of_undeclared undeclared] at split
  dsimp only at split
  refine ⟨by rw [List.getLast?_append]; rfl, earlier ++ passed ++ indent, gap, ?_, small⟩
  calc window.before ++ Text.indentation window.line
    _ = earlier ++ (Comment.sinceLastDelimiter window.before ++ Text.indentation window.line) := by
      rw [← List.append_assoc, before]
    _ = earlier ++ passed ++ indent ++ ("/**".toList ++ body ++ "*/".toList) ++ gap := by
      rw [split, shape]
      simp only [List.append_assoc]

/-- The statement at the cursor shows a text again, or the end of it behind a start in front of the
cursor. -/
def Window.Repeats (window : Window) (text : Text) : Prop :=
  ∃ inside later,
    firstStatement window.after = inside ++ later
    ∧ inside ≠ []
    ∧ text <:+ window.before ++ inside

/-- A text is repeated exactly if it is last shown behind the cursor. -/
theorem Window.repeats_iff {window : Window} {text front later : Text}
    (stands : window.shown = front ++ text ++ later)
    (last : Text.lastIndexOf? text window.shown = some front.length)
    : window.Repeats text ↔ window.before.length < (front ++ text).length := by
  constructor
  · rintro ⟨inside, rest, statement, nonempty, other, whole⟩
    rw [Window.shown, statement, ← List.append_assoc, ← whole] at last
    have order := Text.length_le_of_lastIndexOf? last
    have size := congrArg List.length whole
    have positive := List.length_pos_of_ne_nil nonempty
    simp only [List.length_append] at size ⊢
    omega
  · intro behind
    obtain ⟨inside, shape⟩ := List.prefix_of_prefix_length_le
      ⟨firstStatement window.after, rfl⟩ ⟨later, stands.symm⟩ behind.le
    refine ⟨inside, later, ?_, ?_, front, shape.symm⟩
    · rw [Window.shown, ← shape, List.append_assoc] at stands
      exact List.append_cancel_left stands
    · rintro rfl
      simp [← shape] at behind

/-- Offset of the first character of a line that is no blank; the end of a line of blanks. -/
def textStart (document : Text) (line : Int) : Nat :=
  startOfLine line.toNat document
    + (Text.indentation (document.drop (startOfLine line.toNat document))).length

/-- The window and the text of the cursor line: the document goes on from the cursor with the
statement, which starts with the blanks of the line. -/
theorem exists_cursor (style : Style) (document : Text) (line : Int)
    : ∃ skipped behind,
        document
          = skipped ++ (window style document line).before
            ++ (firstStatement (window style document line).after ++ behind)
        ∧ skipped.length = (window style document line).start
        ∧ textStart document line
          = (skipped ++ (window style document line).before).length
            + (Text.indentation
              (firstStatement (window style document line).after ++ behind)).length := by
  obtain ⟨skipped, rest, whole, start, cursor⟩ := window_shape style document line
  obtain ⟨unshown, statement⟩ := firstStatement_isPrefix (window style document line).after
  have split : document
      = skipped ++ (window style document line).before
        ++ (firstStatement (window style document line).after ++ (unshown ++ rest)) := by
    rw [← List.append_assoc _ unshown, statement, ← List.append_assoc]
    exact whole
  refine ⟨skipped, unshown ++ rest, split, start, ?_⟩
  have place : startOfLine line.toNat document
      = (skipped ++ (window style document line).before).length := cursor.symm
  have later : document.drop (startOfLine line.toNat document)
      = firstStatement (window style document line).after ++ (unshown ++ rest) := by
    rw [place]
    exact (congrArg (List.drop _) split).trans List.drop_left
  rw [textStart, later, place]

/-- From the end of a comment there is only a gap up to the text of the cursor line, exactly if the
comment ends in front of that line. Witness: an occurrence that is not in front of the comment above
the line has a part of the gap behind that comment behind it, and no comment ends in the blanks of a
line.
-/
theorem gap_behind_iff {skipped before statement behind front comment later above gap margin : Text}
    (last : comment.getLast? = some '/') (stands : before ++ statement = front ++ comment ++ later)
    (shape : before ++ margin = above ++ comment ++ gap) (small : IsGap gap)
    (order : above.length ≤ front.length) (start : margin <+: statement)
    (blanks : ∀ c ∈ margin, isBlank c = true)
    : let stop := (skipped ++ (front ++ comment)).length
      let first := (skipped ++ before).length + (Text.indentation (statement ++ behind)).length
      (stop ≤ first
        ∧ IsGap (Text.slice stop first (skipped ++ before ++ (statement ++ behind))))
      ↔ (front ++ comment).length ≤ before.length := by
  intro stop first
  constructor
  · rintro ⟨reaches, -⟩
    by_contra longer
    obtain ⟨inside, whole⟩ := List.prefix_of_prefix_length_le
      ⟨statement, rfl⟩ ⟨later, stands.symm⟩ (Nat.lt_of_not_le longer).le
    -- The end of the comment would stand among the blanks of the cursor line.
    have bounded : inside.length ≤ (Text.indentation (statement ++ behind)).length := by
      simp only [stop, first, ← whole, List.length_append] at reaches
      omega
    have opening : inside <+: statement ++ behind := by
      rw [← whole, List.append_assoc] at stands
      exact ⟨later ++ behind, by rw [List.append_cancel_left stands, List.append_assoc]⟩
    have among : inside <+: Text.indentation (statement ++ behind) :=
      List.prefix_of_prefix_length_le opening (List.takeWhile_prefix isBlank) bounded
    have slash : '/' ∈ inside := by
      have nonempty : inside ≠ [] := by
        rintro rfl
        simp [← whole] at longer
      have ends := congrArg List.getLast? whole
      rw [List.getLast?_append, List.getLast?_append, last,
        List.getLast?_eq_some_getLast nonempty] at ends
      rw [← Option.some.inj ends]
      exact List.getLast_mem nonempty
    exact absurd (List.mem_takeWhile_imp (among.subset slash)) (by decide)
  · intro shorter
    obtain ⟨middle, whole⟩ := List.prefix_of_prefix_length_le
      ⟨later, stands.symm⟩ ⟨statement, rfl⟩ shorter
    obtain ⟨more, indented⟩ := start
    have margined : Text.indentation (statement ++ behind)
        = margin ++ (more ++ behind).takeWhile isBlank := by
      rw [← indented, Text.indentation, List.append_assoc, List.takeWhile_append_of_pos blanks]
    have part : middle ++ margin <:+ gap := by
      rw [← whole, List.append_assoc] at shape
      refine List.suffix_of_suffix_length_le ⟨front ++ comment, shape⟩ ⟨above ++ comment, rfl⟩ ?_
      have size := congrArg List.length shape
      simp only [List.length_append] at size ⊢
      omega
    have span : IsGap (middle ++ Text.indentation (statement ++ behind)) := by
      rw [margined, ← List.append_assoc]
      exact (small.of_suffix part).append_blanks fun c => List.mem_takeWhile_imp
    have place : first = stop + (middle ++ Text.indentation (statement ++ behind)).length := by
      simp only [first, stop, ← whole, List.length_append]
      omega
    have cut : Text.slice stop first (skipped ++ before ++ (statement ++ behind))
        = middle ++ Text.indentation (statement ++ behind) := by
      have split : skipped ++ before ++ (statement ++ behind)
          = skipped ++ (front ++ comment) ++ (middle ++ Text.indentation (statement ++ behind))
            ++ (statement ++ behind).dropWhile isBlank := by
        simp only [← whole, List.append_assoc, Text.indentation, List.takeWhile_append_dropWhile]
      rw [split, place]
      exact slice_append _ _ _
    rw [cut]
    exact ⟨by omega, span⟩

--------------------------------------------------------------------------------
-- Main statement
--------------------------------------------------------------------------------

/-- Where nothing is declared at the cursor, a replaced comment stands directly above the text of
the cursor line, with only blanks and at most one line feed between them, exactly if the statement
at the cursor does not show the comment again. Witness: the comment is replaced where it is last
shown.
-/
theorem replaced_directly_above_iff (style : Style) (document : Text) (line : Int)
    (undeclared : (window style (Text.normaliseBreaks document) line).Undeclared
      style.inferDirection)
    (replaces : (generate style document line).anchor.edit = .replace)
    : let text := Text.normaliseBreaks document
      let anchor := (generate style document line).anchor
      (anchor.stop ≤ textStart text line
        ∧ IsGap (Text.slice anchor.stop (textStart text line) text))
      ↔ ¬ (window style text line).Repeats (covered text anchor) := by
  revert undeclared replaces
  simp only [generate]
  generalize Text.normaliseBreaks document = document
  intro undeclared replaces
  have nothing : ((window style document line).target style.inferDirection).declaration = none := by
    rw [Window.target_of_undeclared undeclared]
  cases found : Text.findFirst? trailingComment?
      ((window style document line).target style.inferDirection).preceding with
  | none => simp [generateAt_bare found nothing, insertBare, anchor] at replaces
  | some result =>
      obtain ⟨passed, indent, comment⟩ := result
      obtain ⟨slash, above, gap, shape, small⟩ := Window.exists_above undeclared found
      obtain ⟨i, last⟩ := Text.lastIndexOf?_isSome (Window.comment_isInfix found)
      obtain ⟨front, later, stands, rfl⟩ := Text.lastIndexOf?_sound last
      obtain ⟨skipped, behind, whole, start, first⟩ := exists_cursor style document line
      have margin := indentation_prefix_firstStatement (window style document line).after
      have order : above.length ≤ front.length := by
        obtain ⟨more, indented⟩ := margin
        have shown : (window style document line).shown
            = above ++ comment ++ (gap ++ more) := by
          rw [Window.shown, ← indented, ← List.append_assoc, ← List.append_assoc, ← shape]
          rfl
        rw [shown] at last
        exact Text.length_le_of_lastIndexOf? last
      have covers : covered document (generateAt style document line).anchor = comment := by
        have place := slice_lastShown (Window.comment_isInfix found)
        rw [generateAt_of_comment found, nothing]
        exact place
      have stop : (generateAt style document line).anchor.stop
          = (skipped ++ (front ++ comment)).length := by
        rw [generateAt_of_comment found, nothing, last, Option.getD_some, ← start]
        simp [replaceComment, anchor, Nat.add_assoc]
      have near := @gap_behind_iff skipped _ _ behind front comment later above gap _ slash stands
        shape small order margin fun c => List.mem_takeWhile_imp
      dsimp only at near
      rw [← first, ← stop, ← whole] at near
      rw [covers, Window.repeats_iff stands last, Nat.not_lt]
      exact near

/-- Below a comment a line that declares nothing shows another comment, and the one above is
replaced. -/
theorem replaced_directly_above_assignment
    : let document := "/** One. */\r\n\tx = 1 /** Two. */;\n".toList
      let text := Text.normaliseBreaks document
      let anchor := (generate .default document 1).anchor
      (window .default text 1).Undeclared true
      ∧ anchor.edit = .replace
      ∧ anchor.stop ≤ textStart text 1
      ∧ IsGap (Text.slice anchor.stop (textStart text 1) text)
      ∧ ¬ (window .default text 1).Repeats (covered text anchor) := by
  intro document text anchor
  have undeclared : (window .default text 1).Undeclared true := by decide +kernel
  have replaces : anchor.edit = .replace := by decide +kernel
  have near : anchor.stop ≤ textStart text 1
      ∧ IsGap (Text.slice anchor.stop (textStart text 1) text) := by
    decide +kernel
  exact ⟨undeclared, replaces, near.1, near.2,
    (replaced_directly_above_iff .default document 1 undeclared replaces).mp near⟩

/-- A comment that is repeated at the end of the cursor line is replaced there. -/
theorem replaced_behind_cursor
    : let document := "/** One. */\nx /** One. */;\n".toList
      (window .default document 1).Undeclared true
      ∧ (generate .default document 1).anchor.edit = .replace
      ∧ covered document (generate .default document 1).anchor = "/** One. */".toList
      ∧ textStart document 1 = 12
      ∧ (generate .default document 1).anchor.start = 14
      ∧ (generate .default document 1).anchor.stop = 25 := by
  decide +kernel

end DocBlock.Document
