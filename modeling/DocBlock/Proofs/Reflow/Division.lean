import DocBlock.Proofs.Reflow.Layout
import DocBlock.Proofs.Text.LineBreaks
import DocBlock.Proofs.Text.Search

/-! How a comment is divided into an opening line, a body and a closing line, and what wrapping does
with the parts: the opening and the closing line stay, and the body is replaced by its layout.
-/

namespace DocBlock.Reflow

open Text (isSpace isBlank isWord)

/-- The line feed that ends the text, if one does. -/
def finalBreak (text : Text) : Text :=
  if Text.endsWith ['\n'] text then ['\n'] else []

/-- The lines of a text, of which a final line feed starts no more. -/
def linesOf (text : Text) : List Text :=
  Text.lines (text.take (text.length - (finalBreak text).length))

/-- Behind white space, the line starts with the opening of a comment. -/
def StartsComment (line : Text) : Prop :=
  ∃ space rest, line = space ++ ("/**".toList ++ rest) ∧ ∀ c ∈ space, isSpace c = true

/-- In front of white space, the line ends with the closing of a comment. -/
def EndsComment (line : Text) : Prop :=
  ∃ front space, line = front ++ ("*/".toList ++ space) ∧ ∀ c ∈ space, isSpace c = true

/-- The opening line is the first line if that starts a comment, the closing line is the last one of
the others if that ends a comment, and all the rest is the body. -/
structure Divides (lines : List Text) (comment : Parts) : Prop where
  whole : comment.opening ++ comment.body ++ comment.closing = lines
  opening : (∃ line, comment.opening = [line] ∧ StartsComment line)
    ∨ (comment.opening = [] ∧ ∀ line ∈ lines.head?, ¬ StartsComment line)
  closing : (∃ line, comment.closing = [line] ∧ EndsComment line)
    ∨ (comment.closing = [] ∧ ∀ line ∈ comment.body.getLast?, ¬ EndsComment line)

/-- The division of a text. -/
def division (text : Text) : Parts :=
  parts (linesOf text)

/-- The lines of a comment with another body. -/
def withBody (comment : Parts) (body : List Text) : List Text :=
  comment.opening ++ body ++ comment.closing

/-- The body has a character other than blanks and stars. -/
def HasProse (body : List Text) : Prop :=
  ∃ line ∈ body, ∃ c ∈ line, c ≠ ' ' ∧ c ≠ '\t' ∧ c ≠ '*'

/-- The blanks in front of the body. -/
def margin (comment : Parts) : Text :=
  Text.indentation (comment.body.head?.getD [])

/-- The text with the lines of a layout as its body. -/
def relaid (text : Text) (lines : List (List PlacedWord)) : Text :=
  Text.unlines (withBody (division text) (lines.map (decorated (margin (division text)))))
    ++ finalBreak text

--------------------------------------------------------------------------------
-- Opening and closing lines
--------------------------------------------------------------------------------

theorem startsWith_opening_iff {line : Text}
    : Text.startsWith "/**".toList (line.dropWhile isSpace) = true ↔ StartsComment line := by
  rw [Text.startsWith_iff]
  constructor
  · rintro ⟨rest, shape⟩
    refine ⟨line.takeWhile isSpace, rest, ?_, fun c => List.mem_takeWhile_imp⟩
    rw [shape, List.takeWhile_append_dropWhile]
  · rintro ⟨space, rest, rfl, inside⟩
    rw [Text.dropWhile_run inside (by simp; decide)]
    exact List.prefix_append _ _

theorem endsWith_closing_iff {line : Text}
    : Text.endsWith "*/".toList (Text.trim line) = true ↔ EndsComment line := by
  rw [Text.endsWith_iff]
  constructor
  · rintro ⟨front, shape⟩
    obtain ⟨before, behind, whole, -, right⟩ := Text.exists_trimBy isSpace line
    refine ⟨before ++ front, behind, ?_, right⟩
    rw [whole, ← Text.trim, ← shape]
    simp
  · rintro ⟨front, space, rfl, inside⟩
    have surrounded := @Text.trimBy_surrounded isSpace [] space (by simp) inside
      (front ++ "*/".toList)
    rw [List.nil_append, List.append_assoc] at surrounded
    have kept : (front ++ "*/".toList).dropWhile isSpace = front.dropWhile isSpace ++ "*/".toList :=
      Text.dropWhile_append_stop (by decide) front ['/']
    have last : (front.dropWhile isSpace ++ "*/".toList).getLast? = some '/' := by simp
    rw [Text.trim, surrounded, Text.trimBy, kept, Text.dropEndWhile_of_last last (by decide)]
    exact List.suffix_append _ _

/-- The first line is set apart if it is marked. -/
theorem filter_toList_head {mark : Text → Bool} {opening rest : List Text}
    (first : (∃ line, opening = [line] ∧ mark line = true)
      ∨ (opening = [] ∧ ∀ line ∈ (opening ++ rest).head?, mark line ≠ true))
    : ((opening ++ rest).head?.toList).filter mark = opening := by
  rcases first with ⟨line, rfl, marked⟩ | ⟨rfl, unmarked⟩
  · simp [marked]
  · cases rest with
    | nil => rfl
    | cons line rest => simpa using unmarked

theorem filter_toList_getLast {mark : Text → Bool} {body closing : List Text}
    (last : (∃ line, closing = [line] ∧ mark line = true)
      ∨ (closing = [] ∧ ∀ line ∈ body.getLast?, mark line ≠ true))
    : ((body ++ closing).getLast?.toList).filter mark = closing := by
  rcases last with ⟨line, rfl, marked⟩ | ⟨rfl, unmarked⟩
  · simp [marked]
  · rw [List.append_nil]
    cases ending : body.getLast? with
    | none => rfl
    | some line => simpa using unmarked line ending

/-- The division of some lines is the one that is computed. -/
theorem Divides.parts_eq {lines : List Text} {comment : Parts} (divides : Divides lines comment)
    : parts lines = comment := by
  obtain ⟨opening, body, closing⟩ := comment
  obtain ⟨rfl, first, last⟩ := divides
  simp only [← startsWith_opening_iff, ← endsWith_closing_iff] at first last
  rw [List.append_assoc] at first
  have front := filter_toList_head first
  have back := filter_toList_getLast last
  have body : (body ++ closing).take ((body ++ closing).length - closing.length) = body := by
    simp
  simp only [parts, List.append_assoc, front, List.drop_left, back, body]

/-- All lines have a division: it is decided by the first and the last of them. -/
theorem exists_divides (lines : List Text) : ∃ comment, Divides lines comment := by
  obtain ⟨opening, rest, whole, first⟩ : ∃ opening rest,
      opening ++ rest = lines
      ∧ ((∃ line, opening = [line] ∧ StartsComment line)
        ∨ (opening = [] ∧ ∀ line ∈ lines.head?, ¬ StartsComment line)) := by
    cases lines with
    | nil => exact ⟨[], [], rfl, .inr ⟨rfl, by simp⟩⟩
    | cons line rest =>
        by_cases starts : StartsComment line
        · exact ⟨[line], rest, rfl, .inl ⟨line, rfl, starts⟩⟩
        · exact ⟨[], line :: rest, rfl, .inr ⟨rfl, by simpa using starts⟩⟩
  obtain ⟨body, closing, rfl, last⟩ : ∃ body closing,
      body ++ closing = rest
      ∧ ((∃ line, closing = [line] ∧ EndsComment line)
        ∨ (closing = [] ∧ ∀ line ∈ body.getLast?, ¬ EndsComment line)) := by
    rcases List.eq_nil_or_concat rest with rfl | ⟨body, line, rfl⟩
    · exact ⟨[], [], rfl, .inr ⟨rfl, by simp⟩⟩
    · by_cases ends : EndsComment line
      · exact ⟨body, [line], by simp, .inl ⟨line, rfl, ends⟩⟩
      · exact ⟨body ++ [line], [], by simp, .inr ⟨rfl, by simpa using ends⟩⟩
  exact ⟨⟨opening, body, closing⟩, by simpa using whole, first, last⟩

theorem divides_division (text : Text) : Divides (linesOf text) (division text) := by
  obtain ⟨comment, divides⟩ := exists_divides (linesOf text)
  rwa [division, divides.parts_eq]

--------------------------------------------------------------------------------
-- The lines of a text
--------------------------------------------------------------------------------

theorem endsWith_feed_iff {text : Text}
    : Text.endsWith ['\n'] text = true ↔ text.getLast? = some '\n' := by
  rw [Text.endsWith_iff, List.getLast?_eq_some_iff]
  exact ⟨fun ⟨front, whole⟩ => ⟨front, whole.symm⟩, fun ⟨front, whole⟩ => ⟨front, whole.symm⟩⟩

/-- A text that does not end with a line feed may be followed by a final one. -/
theorem endsWith_append_finalBreak {front : Text} (unbroken : front.getLast? ≠ some '\n')
    (text : Text)
    : Text.endsWith ['\n'] (front ++ finalBreak text) = Text.endsWith ['\n'] text := by
  by_cases ended : Text.endsWith ['\n'] text = true
  · rw [finalBreak, if_pos ended, ended]
    exact endsWith_feed_iff.mpr (by simp)
  · rw [finalBreak, if_neg ended, List.append_nil, eq_false_of_ne_true ended]
    exact eq_false_of_ne_true (mt endsWith_feed_iff.mp unbroken)

theorem finalBreak_append {front : Text} (unbroken : front.getLast? ≠ some '\n') (text : Text)
    : finalBreak (front ++ finalBreak text) = finalBreak text := by
  rw [finalBreak, endsWith_append_finalBreak unbroken, ← finalBreak]

theorem linesOf_append {front : Text} (unbroken : front.getLast? ≠ some '\n') (text : Text)
    : linesOf (front ++ finalBreak text) = Text.lines front := by
  rw [linesOf, finalBreak_append unbroken, List.length_append, Nat.add_sub_cancel, List.take_left]

/-- Lines without line feeds do not end with one if the last of them is shown. -/
theorem getLast?_unlines_ne {lines : List Text} (shown : lines.getLast? ≠ some [])
    (unbroken : ∀ line ∈ lines, '\n' ∉ line)
    : (Text.unlines lines).getLast? ≠ some '\n' := by
  rcases List.eq_nil_or_concat lines with rfl | ⟨front, last, rfl⟩
  · simp [Text.unlines, Text.join]
  · rw [List.concat_eq_append] at shown unbroken ⊢
    rw [Text.getLast?_unlines (by simpa using shown)]
    exact fun ends => unbroken last (by simp) (List.mem_of_getLast? ends)

--------------------------------------------------------------------------------
-- The lines of a comment
--------------------------------------------------------------------------------

theorem StartsComment.ne_nil {line : Text} (starts : StartsComment line) : line ≠ [] := by
  obtain ⟨space, rest, rfl, -⟩ := starts
  simp

theorem EndsComment.ne_nil {line : Text} (ends : EndsComment line) : line ≠ [] := by
  obtain ⟨front, space, rfl, -⟩ := ends
  simp

theorem blanks_margin (comment : Parts) : ∀ c ∈ margin comment, isBlank c = true :=
  fun _ member => List.mem_takeWhile_imp member

/-- A decorated line has a star behind the blanks. -/
theorem exists_decorated (indent : Text) (line : List PlacedWord)
    : ∃ rest, decorated indent line = indent ++ '*' :: rest := by
  unfold decorated
  split
  · exact ⟨[], rfl⟩
  · exact ⟨' ' :: lineText line, by simp⟩

theorem unbroken_decorated {indent : Text} (blanks : ∀ c ∈ indent, isBlank c = true)
    {line : List PlacedWord} (unspaced : ∀ placed ∈ line, ∀ c ∈ placed.word, isSpace c = false)
    : '\n' ∉ decorated indent line := by
  have outside : '\n' ∉ indent := fun member => absurd (blanks _ member) (by decide)
  have words : '\n' ∉ lineText line := by
    intro member
    rcases Text.mem_join member with between | ⟨word, among, inside⟩
    · exact absurd between (by decide)
    · obtain ⟨placed, member, rfl⟩ := List.mem_map.mp among
      exact absurd (unspaced placed member _ inside) (by decide)
  unfold decorated
  split <;> simp [outside, words]

/-- The lines of a comment with a decorated body are shown and hold no line feed. -/
theorem proper_withBody {text : Text} {lines : List (List PlacedWord)}
    (unspaced : ∀ placed ∈ lines.flatten, ∀ c ∈ placed.word, isSpace c = false)
    : ∀ line ∈ withBody (division text) (lines.map (decorated (margin (division text)))),
        line ≠ [] ∧ '\n' ∉ line := by
  have divides := divides_division text
  have unbroken : ∀ line ∈ linesOf text, '\n' ∉ line := fun _ => Text.unbroken_of_mem_lines
  rw [← divides.whole] at unbroken
  intro line member
  rw [withBody, List.mem_append, List.mem_append] at member
  rcases member with (first | inner) | last
  · refine ⟨?_, unbroken line (by simp [first])⟩
    rcases divides.opening with ⟨opening, single, starts⟩ | ⟨none, -⟩
    · rw [single, List.mem_singleton] at first
      exact first ▸ starts.ne_nil
    · simp [none] at first
  · obtain ⟨words, among, rfl⟩ := List.mem_map.mp inner
    obtain ⟨rest, shape⟩ := exists_decorated (margin (division text)) words
    refine ⟨by simp [shape], unbroken_decorated (blanks_margin _) fun placed member => ?_⟩
    exact unspaced placed (List.mem_flatten.mpr ⟨words, among, member⟩)
  · refine ⟨?_, unbroken line (by simp [last])⟩
    rcases divides.closing with ⟨closing, single, ends⟩ | ⟨none, -⟩
    · rw [single, List.mem_singleton] at last
      exact last ▸ ends.ne_nil
    · simp [none] at last

--------------------------------------------------------------------------------
-- What wrapping gives
--------------------------------------------------------------------------------

theorem hasContent_iff {body : List Text} : hasContent body = true ↔ HasProse body := by
  simp [hasContent, HasProse, isBlank, and_assoc]

/-- Wrapping in terms of the division of the text. -/
theorem reflow_eq (width : Int) (text : Text)
    : reflow width text
      = if !hasContent (division text).body then .ok text
        else if width ≤ 0 && !(paragraphs (division text).body).isEmpty then .error { width }
        else
          .ok (Text.unlines (withBody (division text)
            ((paragraphs (division text).body).flatMap
              (paragraphLines (margin (division text)) width.toNat))) ++ finalBreak text) :=
  rfl

theorem reflow_of_blank {text : Text} (blank : ¬ HasProse (division text).body) (width : Int)
    : reflow width text = .ok text := by
  have empty := mt hasContent_iff.mp blank
  simp [reflow_eq, empty]

/-- A body with content is replaced by its layout. -/
theorem exists_reflow {width : Int} (positive : 1 ≤ width) {text : Text}
    (prose : HasProse (division text).body)
    : ∃ lines,
        Layout width.toNat (bodyWords (division text).body) lines
        ∧ reflow width text = .ok (relaid text lines) := by
  obtain ⟨lines, filled, layout⟩ :=
    exists_layout (margin (division text)) width.toNat (division text).body
  have wide : ¬ width ≤ 0 := by omega
  refine ⟨lines, layout, ?_⟩
  simp [reflow_eq, hasContent_iff.mpr prose, wide, filled, relaid]

/-- There are no paragraphs exactly if no line has a word. -/
theorem paragraphs_eq_nil_iff {body : List Text}
    : paragraphs body = [] ↔ ∀ line ∈ body, Text.words (content line) = [] := by
  induction body with
  | nil => simp [paragraphs]
  | cons line body ih =>
      rcases content_cases line with ⟨empty, blank⟩ | ⟨word, others, shown, words, -⟩
      · simp [paragraphs_blank empty, ih, blank]
      · simp [paragraphs, shown, words]

/-- A width that is not positive is refused when there are words to wrap. -/
theorem reflow_eq_error_iff {width : Int} (narrow : width ≤ 0) {text : Text} {error : WidthError}
    : reflow width text = .error error
      ↔ error = { width }
        ∧ (∃ line ∈ (division text).body, Text.words (content line) ≠ [])
        ∧ HasProse (division text).body := by
  have wordless := @paragraphs_eq_nil_iff (division text).body
  rw [← hasContent_iff]
  by_cases prose : hasContent (division text).body = true
  · by_cases empty : paragraphs (division text).body = []
    · have none : ¬ ∃ line ∈ (division text).body, Text.words (content line) ≠ [] := by
        push Not
        exact wordless.mp empty
      simp [reflow_eq, prose, empty, none]
    · have worded := mt wordless.mpr empty
      push Not at worded
      have refused : reflow width text = .error { width } := by
        simp [reflow_eq, prose, empty, narrow]
      rw [refused, Except.error.injEq, eq_comm]
      exact (and_iff_left ⟨worded, prose⟩).symm
  · simp [reflow_eq, prose]

end DocBlock.Reflow
