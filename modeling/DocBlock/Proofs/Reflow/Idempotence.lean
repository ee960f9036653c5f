import DocBlock.Proofs.Reflow.Wrapping

/-! Wrapping a comment that was wrapped changes nothing. The wrapped text is divided as before,
because no decorated line starts or ends a comment, and the layout of the words that are read from
it is the one that is there.
-/

namespace DocBlock.Reflow

open Text (isSpace isBlank isWord)

--------------------------------------------------------------------------------
-- Decorated lines do not start or end a comment
--------------------------------------------------------------------------------

theorem not_startsComment_decorated {indent : Text} (blanks : ∀ c ∈ indent, isBlank c = true)
    (line : List PlacedWord)
    : ¬ StartsComment (decorated indent line) := by
  obtain ⟨rest, shape⟩ := exists_decorated indent line
  have spaces : ∀ c ∈ indent, isSpace c = true :=
    fun c member => Text.isSpace_of_isBlank (blanks c member)
  have star : (indent ++ '*' :: rest).dropWhile isSpace = '*' :: rest :=
    Text.dropWhile_run spaces (by simp; decide)
  rw [← startsWith_opening_iff, shape, star]
  simp [Text.startsWith, Text.after?]

/-- The content of a line stands in front of white space at its end. -/
theorem exists_content (line : Text)
    : ∃ front space, line = front ++ (content line ++ space) ∧ ∀ c ∈ space, isSpace c = true := by
  have unstarred (text : Text) : (Text.after? ['*'] text).getD text <:+ text := by
    cases star : Text.after? ['*'] text with
    | none => exact List.suffix_rfl
    | some rest => exact ⟨['*'], (Text.after?_eq_some_iff.mp star).symm⟩
  obtain ⟨front, whole⟩ := (unstarred _).trans (List.dropWhile_suffix isBlank (l := line))
  obtain ⟨before, space, shape, -, spaces⟩ := Text.exists_trimBy isSpace
    ((Text.after? ['*'] (line.dropWhile isBlank)).getD (line.dropWhile isBlank))
  refine ⟨front ++ before, space, ?_, spaces⟩
  rw [content, Text.trim, List.append_assoc, ← shape, whole]

theorem isInfix_of_mem_words_content {line word : Text}
    (member : word ∈ Text.words (content line))
    : word <:+: line := by
  obtain ⟨front, space, shape, -⟩ := exists_content line
  have within : content line <:+: line := ⟨front, space, by simp [← shape]⟩
  exact (Text.isInfix_of_mem_words member).trans within

/-- A line ends a comment if its last word closes one. -/
theorem endsComment_of_last_word {line word : Text}
    (last : (Text.words (content line)).getLast? = some word) (closes : "*/".toList <:+ word)
    : EndsComment line := by
  obtain ⟨before, space, shape, spaces⟩ := Text.exists_last_word last
  obtain ⟨front, behind, whole, blanks⟩ := exists_content line
  obtain ⟨inner, rfl⟩ := closes
  refine ⟨front ++ before ++ inner, space ++ behind, ?_,
    List.forall_mem_append.mpr ⟨spaces, blanks⟩⟩
  rw [whole, shape]
  simp

/-- The last word of a line that ends a comment closes it. -/
theorem closes_of_endsComment {line word : Text} (ends : EndsComment line)
    (last : (Text.words line).getLast? = some word)
    : "*/".toList <:+ word := by
  obtain ⟨front, space, rfl, spaces⟩ := ends
  obtain ⟨run, split, unspaced⟩ := Text.exists_dropEndWhile (!isSpace ·) front
  have apart : ∀ c ∈ (Text.dropEndWhile (!isSpace ·) front).getLast?, isSpace c = true :=
    fun c ending => by simpa using Text.getLast?_dropEndWhile ending
  have outside : ∀ c ∈ run ++ "*/".toList, isSpace c = false :=
    List.forall_mem_append.mpr ⟨by simpa using unspaced, by decide⟩
  have own := Text.getLast?_words apart (by simp) outside
  rw [← List.append_assoc, ← split, ← Text.words_append_spaces spaces, List.append_assoc, last,
    Option.some_inj] at own
  exact ⟨run, own.symm⟩

theorem getLast?_words_decorated (indent : Text) (line : List PlacedWord) {placed : PlacedWord}
    (proper : placed.word ≠ [] ∧ ∀ c ∈ placed.word, isSpace c = false)
    : (Text.words (decorated indent (line ++ [placed]))).getLast? = some placed.word := by
  obtain ⟨before, shape⟩ : ∃ before,
      decorated indent (line ++ [placed]) = before ++ [' '] ++ placed.word := by
    rw [decorated, if_neg (by simp)]
    by_cases empty : line = []
    · exact ⟨indent ++ ['*'], by simp [empty, lineText, Text.unwords, Text.join]⟩
    · exact ⟨indent ++ "* ".toList ++ lineText line, by simp [lineText_concat empty]⟩
  rw [shape]
  exact Text.getLast?_words (by simp; decide) proper.1 proper.2

/-- The last word of some lines stands on one of the earlier lines, or it is the last one of the
last line. By induction on the lines. -/
theorem getLast?_wordsBehind {gap : Gap} {lines : List Text} {placed : PlacedWord}
    (last : (wordsBehind gap lines).getLast? = some placed)
    : (∃ line ∈ lines.dropLast, placed.word ∈ Text.words (content line))
      ∨ ∃ line ∈ lines.getLast?, (Text.words (content line)).getLast? = some placed.word := by
  induction lines generalizing gap with
  | nil => simp [wordsBehind] at last
  | cons line rest ih =>
      have later {gap : Gap} (behind : (wordsBehind gap rest).getLast? = some placed)
          : (∃ earlier ∈ (line :: rest).dropLast, placed.word ∈ Text.words (content earlier))
            ∨ ∃ final ∈ (line :: rest).getLast?,
                (Text.words (content final)).getLast? = some placed.word := by
        cases rest with
        | nil => simp [wordsBehind] at behind
        | cons next rest =>
            refine (ih behind).imp ?_ fun found => by simpa using found
            rintro ⟨earlier, among, inside⟩
            exact ⟨earlier, List.mem_cons_of_mem line among, inside⟩
      rcases content_cases line with ⟨-, blank⟩ | ⟨word, more, -, words, -⟩
      · rw [wordsBehind_blank blank] at last
        exact later last
      · rw [wordsBehind_words words, ← List.cons_append, List.getLast?_append] at last
        cases behind : (wordsBehind .line rest).getLast? with
        | some other =>
            rw [behind] at last
            exact later (behind.trans last)
        | none =>
            have spelled : (⟨gap, word⟩ :: more.map (PlacedWord.mk .space)).map (·.word)
                = word :: more := by
              rw [List.map_cons, map_word_spaced]
            have own : (Text.words (content line)).getLast? = some placed.word := by
              rw [behind, Option.none_or] at last
              rw [words, ← spelled, List.getLast?_map, last, Option.map_some]
            cases rest with
            | nil => exact .inr ⟨line, rfl, own⟩
            | cons next rest => exact .inl ⟨line, by simp, List.mem_of_getLast? own⟩

--------------------------------------------------------------------------------
-- The division of a wrapped text
--------------------------------------------------------------------------------

/-- No line in front of the last one holds the closing of a comment. -/
def ClosedOnce (text : Text) : Prop :=
  ∀ line ∈ (linesOf text).dropLast, ¬ "*/".toList <:+: line

variable {width : Nat} {text : Text} {lines : List (List PlacedWord)}

/-- The last line of a new body does not end a comment if there is no closing line: its last word is
the last one of the old body, where it would have closed the comment. -/
theorem Layout.not_endsComment (closed : ClosedOnce text)
    (layout : Layout width (bodyWords (division text).body) lines)
    (unclosed : (division text).closing = [])
    (unended : ∀ line ∈ (division text).body.getLast?, ¬ EndsComment line) (indent : Text)
    : ∀ line ∈ (lines.map (decorated indent)).getLast?, ¬ EndsComment line := by
  intro line final ends
  rw [List.getLast?_map] at final
  obtain ⟨words, ending, rfl⟩ := Option.map_eq_some_iff.mp final
  obtain ⟨earlier, rfl⟩ := List.getLast?_eq_some_iff.mp ending
  rcases List.eq_nil_or_concat words with rfl | ⟨init, placed, rfl⟩
  · exact layout.ended ending
  · have whole : bodyWords (division text).body = earlier.flatten ++ init ++ [placed] := by
      simp [← layout.whole]
    have proper := layout.proper placed (by simp)
    rw [List.concat_eq_append] at ends
    have closes := closes_of_endsComment ends (getLast?_words_decorated indent init proper)
    have last : (bodyWords (division text).body).getLast? = some placed := by simp [whole]
    rcases getLast?_wordsBehind last with ⟨line, among, inside⟩ | ⟨line, final, own⟩
    · have split : (linesOf text).dropLast
          = (division text).opening ++ (division text).body.dropLast := by
        rw [← (divides_division text).whole, unclosed, List.append_nil]
        exact List.dropLast_append_of_ne_nil fun none => by simp [none] at among
      refine closed line (by simp [split, among]) ?_
      exact closes.isInfix.trans (isInfix_of_mem_words_content inside)
    · exact unended line final (endsComment_of_last_word own closes)

/-- The opening and the closing line are found again around the new body. -/
theorem Layout.divides (closed : ClosedOnce text)
    (layout : Layout width (bodyWords (division text).body) lines) (nonempty : lines ≠ [])
    : Divides (withBody (division text) (lines.map (decorated (margin (division text)))))
        { division text with body := lines.map (decorated (margin (division text))) } := by
  have divides := divides_division text
  refine ⟨rfl, divides.opening.imp_right ?_, divides.closing.imp_right ?_⟩
  · rintro ⟨unopened, -⟩
    refine ⟨unopened, ?_⟩
    obtain ⟨first, later, rfl⟩ := List.exists_cons_of_ne_nil nonempty
    simp only [withBody, unopened, List.nil_append, List.map_cons, List.cons_append,
      List.head?_cons, Option.mem_def, Option.some_inj, forall_eq']
    exact not_startsComment_decorated (blanks_margin _) first
  · rintro ⟨unclosed, unended⟩
    exact ⟨unclosed, layout.not_endsComment closed unclosed unended _⟩

/-- The new body is set in as the old one was. -/
theorem margin_decorated (comment : Parts) (nonempty : lines ≠ [])
    : margin { comment with body := lines.map (decorated (margin comment)) } = margin comment := by
  obtain ⟨first, later, rfl⟩ := List.exists_cons_of_ne_nil nonempty
  obtain ⟨rest, shape⟩ := exists_decorated (margin comment) first
  rw [margin, List.map_cons, List.head?_cons, Option.getD_some, shape]
  exact Text.takeWhile_run (blanks_margin comment) (by simp; decide)

/-- An opening and a closing line alone leave nothing for the body. -/
theorem Divides.exists_bodiless {lines : List Text} {comment : Parts}
    (divides : Divides lines comment) (nonempty : withBody comment [] ≠ [])
    : ∃ other, Divides (withBody comment []) other ∧ other.body = [] := by
  rcases divides.opening with ⟨first, opening, starts⟩ | ⟨unopened, -⟩
  · refine ⟨⟨[first], [], comment.closing⟩, ⟨by simp [withBody, opening], ?_, ?_⟩, rfl⟩
    · exact .inl ⟨first, rfl, starts⟩
    · refine divides.closing.imp_right ?_
      rintro ⟨unclosed, -⟩
      exact ⟨unclosed, by simp⟩
  · rcases divides.closing with ⟨last, closing, ends⟩ | ⟨unclosed, -⟩
    · have whole : withBody comment [] = [last] := by simp [withBody, unopened, closing]
      rw [whole]
      -- The closing line has become the first one, and may open the comment too.
      by_cases starts : StartsComment last
      · exact ⟨⟨[last], [], []⟩, ⟨rfl, .inl ⟨last, rfl, starts⟩, .inr ⟨rfl, by simp⟩⟩, rfl⟩
      · refine ⟨⟨[], [], [last]⟩, ⟨rfl, ?_, .inl ⟨last, rfl, ends⟩⟩, rfl⟩
        exact .inr ⟨rfl, by simpa using starts⟩
    · exact absurd (by simp [withBody, unopened, unclosed]) nonempty

/-- A comment that has lost its body has no prose. -/
theorem Layout.not_hasProse_relaid
    (layout : Layout width (bodyWords (division text).body) [])
    : ¬ HasProse (division (relaid text [])).body := by
  have unbroken := fun line member => (layout.proper_lines line member).2
  rw [division, relaid, linesOf_append layout.unbroken, List.map_nil]
  by_cases nothing : withBody (division text) [] = []
  · rw [nothing, ← hasContent_iff]
    decide
  · obtain ⟨other, divides, empty⟩ := (divides_division text).exists_bodiless nothing
    rw [Text.lines_unlines nothing unbroken, divides.parts_eq, empty]
    simp [HasProse]

/-- A wrapped text is divided as before, with the new body. -/
theorem Layout.division_relaid (closed : ClosedOnce text)
    (layout : Layout width (bodyWords (division text).body) lines) (nonempty : lines ≠ [])
    : division (relaid text lines)
      = { division text with body := lines.map (decorated (margin (division text))) } := by
  have shown : withBody (division text) (lines.map (decorated (margin (division text)))) ≠ [] := by
    simp [withBody, nonempty]
  rw [division, relaid, linesOf_append layout.unbroken,
    Text.lines_unlines shown fun line member => (layout.proper_lines line member).2]
  exact (layout.divides closed nonempty).parts_eq

--------------------------------------------------------------------------------
-- Main statement
--------------------------------------------------------------------------------

/-- The body that is read again has the layout that is there, and a body has only one. -/
theorem Layout.relaid_again (closed : ClosedOnce text) {others : List (List PlacedWord)}
    (layout : Layout width (bodyWords (division text).body) lines) (nonempty : lines ≠ [])
    (other : Layout width (bodyWords (division (relaid text lines)).body) others)
    : relaid (relaid text lines) others = relaid text lines := by
  have divided := layout.division_relaid closed nonempty
  have words := wordsBehind_decorated (blanks_margin (division text)) layout.proper .start
  rw [divided, bodyWords, words] at other
  obtain rfl := other.unique layout.of_reread
  have final : finalBreak (relaid text lines) = finalBreak text :=
    finalBreak_append layout.unbroken text
  rw [relaid, divided, margin_decorated _ nonempty, map_decorated_reread, final, relaid, withBody,
    withBody]

/-- Wrapping a wrapped comment changes nothing, if no line but the last holds the closing of a
comment. -/
theorem reflow_idempotent {width : Int} {text : Text} (positive : 1 ≤ width)
    (closed : ClosedOnce text)
    : ∃ output, reflow width text = .ok output ∧ reflow width output = .ok output := by
  by_cases prose : HasProse (division text).body
  · obtain ⟨lines, layout, wrapped⟩ := exists_reflow positive prose
    refine ⟨relaid text lines, wrapped, ?_⟩
    by_cases again : HasProse (division (relaid text lines)).body
    · obtain ⟨others, other, rewrapped⟩ := exists_reflow positive again
      have nonempty : lines ≠ [] := by
        rintro rfl
        exact layout.not_hasProse_relaid again
      rw [rewrapped, layout.relaid_again closed nonempty other]
    · exact reflow_of_blank again width
  · exact ⟨text, reflow_of_blank prose width, reflow_of_blank prose width⟩

/-- A tag that wrapping brings to the start of a line stays there. -/
theorem reflow_idempotent_tag
    : reflow 9 "/**\n * Opens it @p path or\n */\n".toList
        = .ok "/**\n * Opens it\n * @p path\n * or\n */\n".toList
      ∧ reflow 9 "/**\n * Opens it\n * @p path\n * or\n */\n".toList
        = .ok "/**\n * Opens it\n * @p path\n * or\n */\n".toList := by
  have first : reflow 9 "/**\n * Opens it @p path or\n */\n".toList
      = .ok "/**\n * Opens it\n * @p path\n * or\n */\n".toList := by
    decide
  have closed : ClosedOnce "/**\n * Opens it @p path or\n */\n".toList := by
    unfold ClosedOnce
    decide
  obtain ⟨output, wrapped, again⟩ := reflow_idempotent (show (1 : Int) ≤ 9 by decide) closed
  obtain rfl := Except.ok.inj (first.symm.trans wrapped)
  exact ⟨first, again⟩

end DocBlock.Reflow
