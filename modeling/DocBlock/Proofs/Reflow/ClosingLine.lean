import DocBlock.Proofs.Comment.Closing
import DocBlock.Proofs.Reflow.Idempotence

/-! What wrapping makes of the closing line of a comment with blank lines behind it. The closing
line stays if the text ends with it or with its line feed. Behind it, a blank line more makes it a
line of the body, and then it stays exactly if it is what the layout makes of its words.
-/

namespace DocBlock.Reflow

open Comment (Closeless)
open Text (isSpace isBlank)

/-- A comment of several lines, closed by the last of them, with blank lines behind it. -/
structure Selection where
  opening : Text
  body : List Text
  closing : Text
  blanks : List Text
  starts : StartsComment opening
  ends : EndsComment closing
  unclosed : ∀ line ∈ opening :: body, Closeless line
  blank : ∀ line ∈ blanks, ∀ c ∈ line, isSpace c = true
  unbroken : ∀ line ∈ opening :: body ++ closing :: blanks, '\n' ∉ line

/-- The selected text. -/
def Selection.text (selection : Selection) : Text :=
  Text.unlines (selection.opening :: selection.body ++ selection.closing :: selection.blanks)

/-- The closing line is a line of the text, and no line in front of it holds the closing of a
comment. -/
def KeepsClosing (closing text : Text) : Prop :=
  ∃ before after,
    Text.lines text = before ++ closing :: after ∧ ∀ line ∈ before, Closeless line

/-- With its words laid out behind those of the body, the closing line comes out as it was. -/
def Selection.LaidAsWritten (selection : Selection) (width : Nat) : Prop :=
  ∃ front last,
    Layout width (bodyWords (selection.body ++ [selection.closing])) (front ++ [last])
    ∧ decorated (Text.indentation (selection.body.headD selection.closing)) last
      = selection.closing

--------------------------------------------------------------------------------
-- Words and comment ends
--------------------------------------------------------------------------------

theorem EndsComment.not_closeless {line : Text} (ends : EndsComment line) : ¬ Closeless line := by
  obtain ⟨front, space, rfl, -⟩ := ends
  exact fun free => free ⟨front, space, by simp⟩

theorem not_endsComment_of_spaces {line : Text} (spaces : ∀ c ∈ line, isSpace c = true)
    : ¬ EndsComment line := by
  rintro ⟨front, space, rfl, -⟩
  exact absurd (spaces '/' (by simp)) (by decide)

theorem closeless_of_mem_wordsBehind {gap : Gap} {lines : List Text} {placed : PlacedWord}
    (free : ∀ line ∈ lines, Closeless line) (member : placed ∈ wordsBehind gap lines)
    : Closeless placed.word := by
  obtain ⟨line, among, inside⟩ := mem_words_of_mem_wordsBehind member
  exact (free line among).of_isInfix (isInfix_of_mem_words_content inside)

/-- A decorated line holds a comment end exactly if one of its words does. -/
theorem closeless_decorated_iff {indent : Text} (blanks : ∀ c ∈ indent, isBlank c = true)
    (line : List PlacedWord)
    : Closeless (decorated indent line) ↔ ∀ placed ∈ line, Closeless placed.word := by
  have starless : '*' ∉ indent := fun star => absurd (blanks _ star) (by decide)
  have star : Closeless ['*'] := by decide
  by_cases empty : line = []
  · rw [decorated, if_pos empty, Comment.closeless_append_of_no_star starless]
    simp [star, empty]
  · rw [decorated, if_neg empty, List.append_assoc,
      Comment.closeless_append_of_no_star starless,
      show "* ".toList ++ lineText line = ['*'] ++ ' ' :: lineText line from rfl,
      Comment.closeless_append_cons_iff (by decide), lineText, Text.unwords,
      Comment.closeless_join_iff (by decide), List.forall_mem_map]
    exact and_iff_right star

theorem forall_closeless_decorated_iff {indent : Text} (blanks : ∀ c ∈ indent, isBlank c = true)
    (lines : List (List PlacedWord))
    : (∀ line ∈ lines.map (decorated indent), Closeless line)
      ↔ ∀ placed ∈ lines.flatten, Closeless placed.word := by
  simp only [List.forall_mem_map, closeless_decorated_iff blanks, List.mem_flatten]
  exact ⟨fun each placed ⟨line, among, here⟩ => each line among placed here,
    fun each line among placed here => each placed ⟨line, among, here⟩⟩

/-- The words of some lines are those of each line in order, by induction on the lines. -/
theorem map_word_wordsBehind (gap : Gap) (lines : List Text)
    : (wordsBehind gap lines).map (·.word)
      = lines.flatMap fun line => Text.words (content line) := by
  induction lines generalizing gap with
  | nil => rfl
  | cons line lines ih =>
      rcases content_cases line with ⟨-, blank⟩ | ⟨word, more, -, words, -⟩
      · rw [wordsBehind_blank blank, ih, List.flatMap_cons, blank, List.nil_append]
      · rw [wordsBehind_words words, List.map_cons, List.map_append, map_word_spaced, ih,
          List.flatMap_cons, words, List.cons_append]

theorem words_content_of_spaces {line : Text} (spaces : ∀ c ∈ line, isSpace c = true)
    : Text.words (content line) = [] := by
  refine List.eq_nil_iff_forall_not_mem.mpr fun word member => ?_
  obtain ⟨nonempty, unspaced, -⟩ := Text.mem_words_iff.mp member
  obtain ⟨c, inside⟩ := List.exists_mem_of_ne_nil word nonempty
  have space := spaces c ((isInfix_of_mem_words_content member).subset inside)
  exact absurd space (by simp [unspaced c inside])

/-- Blank lines behind some lines add no words, by induction on the lines. -/
theorem wordsBehind_append_blanks {blanks : List Text}
    (spaces : ∀ line ∈ blanks, ∀ c ∈ line, isSpace c = true) (gap : Gap) (lines : List Text)
    : wordsBehind gap (lines ++ blanks) = wordsBehind gap lines := by
  induction lines generalizing gap with
  | nil =>
      have none : (wordsBehind gap blanks).map (·.word) = [] := by
        rw [map_word_wordsBehind, List.flatMap_eq_nil_iff]
        exact fun line member => words_content_of_spaces (spaces line member)
      exact List.map_eq_nil_iff.mp none
  | cons line lines ih =>
      rcases content_cases line with ⟨-, blank⟩ | ⟨word, more, -, words, -⟩
      · rw [List.cons_append, wordsBehind_blank blank, wordsBehind_blank blank, ih]
      · rw [List.cons_append, wordsBehind_words words, wordsBehind_words words, ih]

/-- Behind two lists of plain items, a list with an item that is not plain starts at one place: the
first such item shows where. -/
theorem eq_of_append_marked {α : Type} {plain : α → Prop} [DecidablePred plain]
    {one two marked rest : List α} (first : ∀ a ∈ one, plain a) (second : ∀ a ∈ two, plain a)
    (mark : ∃ a ∈ marked, ¬ plain a) (whole : one ++ (marked ++ rest) = two ++ marked)
    : one = two ∧ rest = [] := by
  have stops : (marked ++ rest).takeWhile (plain ·) = marked.takeWhile (plain ·) := by
    rw [List.takeWhile_append, if_neg]
    intro all
    obtain ⟨a, member, other⟩ := mark
    rw [← (List.takeWhile_prefix _).eq_of_length all] at member
    exact other (by simpa using List.mem_takeWhile_imp member)
  have runs := congrArg (List.takeWhile (plain ·)) whole
  rw [@List.takeWhile_append_of_pos _ _ one _ (by simpa using first),
    @List.takeWhile_append_of_pos _ _ two _ (by simpa using second), stops] at runs
  obtain rfl := List.append_cancel_right runs
  exact ⟨rfl, by simpa using whole⟩

--------------------------------------------------------------------------------
-- The lines of the texts
--------------------------------------------------------------------------------

theorem linesOf_unlines {lines : List Text} (nonempty : lines ≠ [])
    (unbroken : ∀ line ∈ lines, '\n' ∉ line) (shown : lines.getLast? ≠ some [])
    : linesOf (Text.unlines lines) = lines := by
  have none : finalBreak (Text.unlines lines) = [] :=
    if_neg (mt endsWith_feed_iff.mp (getLast?_unlines_ne shown unbroken))
  rw [linesOf, none, List.length_nil, Nat.sub_zero, List.take_length,
    Text.lines_unlines nonempty unbroken]

/-- A final line feed starts no line more. -/
theorem linesOf_unlines_feed {lines : List Text} (nonempty : lines ≠ [])
    (unbroken : ∀ line ∈ lines, '\n' ∉ line)
    : linesOf (Text.unlines (lines ++ [[]])) = lines := by
  have shape : Text.unlines (lines ++ [[]]) = Text.unlines lines ++ ['\n'] :=
    Text.unlines_append nonempty (by simp)
  have final : finalBreak (Text.unlines lines ++ ['\n']) = ['\n'] :=
    if_pos (endsWith_feed_iff.mpr (by simp))
  rw [shape, linesOf, final, List.length_append, Nat.add_sub_cancel, List.take_left,
    Text.lines_unlines nonempty unbroken]

/-- Lines that are followed by some more are the lines of the joined text with all of these, or with
all but an empty last one. -/
theorem exists_linesOf {lines blanks : List Text} (nonempty : lines ≠ [])
    (unbroken : ∀ line ∈ lines ++ blanks, '\n' ∉ line) (shown : lines.getLast? ≠ some [])
    : ∃ trailing,
        linesOf (Text.unlines (lines ++ blanks)) = lines ++ trailing
        ∧ trailing <+: blanks
        ∧ (trailing = [] ↔ blanks = [] ∨ blanks = [[]]) := by
  rcases List.eq_nil_or_concat blanks with rfl | ⟨trailing, last, rfl⟩
  · rw [List.append_nil] at unbroken ⊢
    exact ⟨[], by rw [List.append_nil, linesOf_unlines nonempty unbroken shown], by simp, by simp⟩
  · rw [List.concat_eq_append] at unbroken ⊢
    by_cases empty : last = []
    · subst empty
      rw [← List.append_assoc] at unbroken ⊢
      have inner := (List.forall_mem_append.mp unbroken).1
      exact ⟨trailing, linesOf_unlines_feed (by simp [nonempty]) inner,
        List.prefix_append _ _, by simp⟩
    · refine ⟨trailing ++ [last], linesOf_unlines (by simp) unbroken ?_, List.prefix_rfl, ?_⟩
      · simpa [← List.append_assoc] using empty
      · simp [List.append_eq_singleton_iff, empty]

/-- A text that was laid out has the lines of its parts, and an empty one if it ends with a line
feed. -/
theorem Layout.exists_lines_relaid {width : Nat} {text : Text} {lines : List (List PlacedWord)}
    (layout : Layout width (bodyWords (division text).body) lines)
    (nonempty : (division text).opening ≠ [])
    : ∃ final,
        Text.lines (relaid text lines)
          = withBody (division text) (lines.map (decorated (margin (division text)))) ++ final
        ∧ ∀ line ∈ final, line = [] := by
  have shown : withBody (division text) (lines.map (decorated (margin (division text)))) ≠ [] := by
    simp [withBody, nonempty]
  have unbroken := fun line member => (layout.proper_lines line member).2
  unfold relaid finalBreak
  split
  · refine ⟨[[]], ?_, by simp⟩
    rw [← Text.lines_unlines (by simp) (List.forall_mem_append.mpr ⟨unbroken, by simp⟩),
      Text.unlines_append shown (by simp)]
    rfl
  · refine ⟨[], ?_, by simp⟩
    rw [List.append_nil, List.append_nil, Text.lines_unlines shown unbroken]

--------------------------------------------------------------------------------
-- A closing line that is found
--------------------------------------------------------------------------------

/-- The closing line stays if no blank line keeps it from being found. -/
theorem Selection.keepsClosing (selection : Selection) {width : Int} (positive : 1 ≤ width)
    (found : linesOf selection.text
      = selection.opening :: (selection.body ++ [selection.closing]))
    : ∃ output, reflow width selection.text = .ok output
        ∧ KeepsClosing selection.closing output := by
  have divides : Divides (linesOf selection.text)
      ⟨[selection.opening], selection.body, [selection.closing]⟩ :=
    ⟨by simp [found], .inl ⟨_, rfl, selection.starts⟩, .inl ⟨_, rfl, selection.ends⟩⟩
  have divided : division selection.text = _ := divides.parts_eq
  obtain ⟨free, inner⟩ := List.forall_mem_cons.mp selection.unclosed
  by_cases prose : HasProse (division selection.text).body
  · obtain ⟨lines, layout, wrapped⟩ := exists_reflow positive prose
    obtain ⟨final, split, -⟩ := layout.exists_lines_relaid (by simp [divided])
    refine ⟨_, wrapped,
      selection.opening :: lines.map (decorated (margin (division selection.text))), final,
      by simp [split, withBody, divided], List.forall_mem_cons.mpr ⟨free, ?_⟩⟩
    rw [forall_closeless_decorated_iff (blanks_margin _), layout.whole, divided]
    exact fun placed => closeless_of_mem_wordsBehind inner
  · refine ⟨_, reflow_of_blank prose width, selection.opening :: selection.body, selection.blanks,
      Text.lines_unlines (by simp) selection.unbroken, selection.unclosed⟩

--------------------------------------------------------------------------------
-- A closing line in the body
--------------------------------------------------------------------------------

/-- A text that was laid out without a closing line keeps one exactly if one of its lines is it,
with no comment end in front of it. -/
theorem Layout.keepsClosing_relaid_iff {width : Nat} {text opening closing : Text}
    {lines : List (List PlacedWord)}
    (layout : Layout width (bodyWords (division text).body) lines)
    (opened : (division text).opening = [opening]) (unclosed : (division text).closing = [])
    (free : Closeless opening) (ends : ¬ Closeless closing)
    : KeepsClosing closing (relaid text lines)
      ↔ ∃ front line rest,
          lines = front ++ line :: rest
          ∧ decorated (margin (division text)) line = closing
          ∧ ∀ placed ∈ front.flatten, Closeless placed.word := by
  obtain ⟨final, split, empty⟩ := layout.exists_lines_relaid (by simp [opened])
  have shown : closing ∉ final := fun member => ends (empty closing member ▸ Comment.Closeless.nil)
  have blanks := blanks_margin (division text)
  rw [withBody, opened, unclosed, List.append_nil, List.singleton_append, List.cons_append] at split
  rw [KeepsClosing, split]
  constructor
  · rintro ⟨before, after, whole, earlier⟩
    cases before with
    | nil => exact absurd ((List.cons.inj whole).1 ▸ free) ends
    | cons first before =>
        obtain ⟨-, whole⟩ := List.cons.inj whole
        rcases List.append_eq_append_iff.mp whole with ⟨behind, -, rest⟩ | ⟨behind, inside, rest⟩
        · exact absurd (rest ▸ by simp) shown
        · cases behind with
          | nil => exact absurd (rest ▸ List.mem_cons_self : closing ∈ [] ++ final) shown
          | cons line behind =>
              obtain ⟨rfl, -⟩ := List.cons.inj rest
              obtain ⟨front, tail, rfl, rfl, later⟩ := List.map_eq_append_iff.mp inside
              obtain ⟨words, behind, rfl, rfl, rfl⟩ := List.map_eq_cons_iff.mp later
              refine ⟨front, words, behind, rfl, rfl, ?_⟩
              exact (forall_closeless_decorated_iff blanks front).mp
                (List.forall_mem_cons.mp earlier).2
  · rintro ⟨front, line, rest, rfl, rfl, earlier⟩
    refine ⟨opening :: front.map (decorated (margin (division text))),
      rest.map (decorated (margin (division text))) ++ final, by simp, ?_⟩
    exact List.forall_mem_cons.mpr ⟨free, (forall_closeless_decorated_iff blanks front).mpr earlier⟩

/-- In a layout with the closing line as one of its lines, only words of the body are in front of it
exactly if it is the last one. -/
theorem Layout.closing_last_iff {width : Nat} {body : List Text} {line : List PlacedWord}
    {front rest : List (List PlacedWord)} {indent closing : Text}
    (layout : Layout width (bodyWords (body ++ [closing])) (front ++ line :: rest))
    (blanks : ∀ c ∈ indent, isBlank c = true) (shown : decorated indent line = closing)
    (unclosed : ∀ line ∈ body, Closeless line) (ends : ¬ Closeless closing)
    : (∀ placed ∈ front.flatten, Closeless placed.word) ↔ rest = [] := by
  have own : Text.words (content closing) = line.map (·.word) := by
    rw [← shown]
    exact words_decorated blanks fun placed member => layout.proper placed (by simp [member])
  have whole : front.flatten.map (·.word) ++ (line.map (·.word) ++ rest.flatten.map (·.word))
      = (bodyWords body).map (·.word) ++ line.map (·.word) := by
    have words := congrArg (List.map (·.word)) layout.whole
    rw [bodyWords, map_word_wordsBehind, List.flatMap_append,
      ← map_word_wordsBehind .start] at words
    simpa [own, bodyWords] using words
  have plain : ∀ word ∈ (bodyWords body).map (·.word), Closeless word :=
    List.forall_mem_map.mpr fun placed member => closeless_of_mem_wordsBehind unclosed member
  constructor
  · intro earlier
    have mark : ∃ word ∈ line.map (·.word), ¬ Closeless word := by
      rw [← shown, closeless_decorated_iff blanks] at ends
      push Not at ends
      simpa using ends
    obtain ⟨-, empty⟩ := eq_of_append_marked (List.forall_mem_map.mpr earlier) plain mark whole
    have wordless : rest.flatten = [] := List.map_eq_nil_iff.mp empty
    by_contra nonempty
    obtain ⟨earlier, last, rfl⟩ := (List.eq_nil_or_concat rest).resolve_left nonempty
    have bare : last = [] := List.flatten_eq_nil_iff.mp wordless last (by simp)
    refine layout.ended ?_
    rw [bare, List.concat_eq_append, ← List.cons_append, ← List.append_assoc, List.getLast?_concat]
  · rintro rfl
    rw [List.flatten_nil, List.map_nil, List.append_nil] at whole
    have same := List.append_cancel_right whole
    rw [← same] at plain
    exact List.forall_mem_map.mp plain

/-- A closing line that is not found stays exactly if it is laid out as it was written. -/
theorem Selection.keepsClosing_iff (selection : Selection) {width : Int} (positive : 1 ≤ width)
    {trailing : List Text} (nonempty : trailing ≠ [])
    (blank : ∀ line ∈ trailing, ∀ c ∈ line, isSpace c = true)
    (hidden : linesOf selection.text
      = selection.opening :: (selection.body ++ selection.closing :: trailing))
    : ∃ output, reflow width selection.text = .ok output
        ∧ (KeepsClosing selection.closing output ↔ selection.LaidAsWritten width.toNat) := by
  have unended : ∀ line ∈ (selection.body ++ selection.closing :: trailing).getLast?,
      ¬ EndsComment line := by
    rw [List.append_cons, List.getLast?_append_of_ne_nil _ nonempty]
    exact fun line final => not_endsComment_of_spaces (blank line (List.mem_of_getLast? final))
  have divides : Divides (linesOf selection.text)
      ⟨[selection.opening], selection.body ++ selection.closing :: trailing, []⟩ :=
    ⟨by simp [hidden], .inl ⟨_, rfl, selection.starts⟩, .inr ⟨rfl, unended⟩⟩
  have divided : division selection.text = _ := divides.parts_eq
  have prose : HasProse (division selection.text).body := by
    obtain ⟨front, space, shape, -⟩ := selection.ends
    refine ⟨selection.closing, by simp [divided], '/', by simp [shape], by decide⟩
  have words : bodyWords (division selection.text).body
      = bodyWords (selection.body ++ [selection.closing]) := by
    rw [divided, List.append_cons]
    exact wordsBehind_append_blanks blank .start _
  have indent : margin (division selection.text)
      = Text.indentation (selection.body.headD selection.closing) := by
    rw [divided]
    cases selection.body <;> rfl
  obtain ⟨free, inner⟩ := List.forall_mem_cons.mp selection.unclosed
  obtain ⟨lines, layout, wrapped⟩ := exists_reflow positive prose
  refine ⟨_, wrapped, ?_⟩
  rw [layout.keepsClosing_relaid_iff (by rw [divided]) (by rw [divided]) free
    selection.ends.not_closeless]
  rw [words] at layout
  have blanks := blanks_margin (division selection.text)
  constructor
  · rintro ⟨front, line, rest, rfl, shown, earlier⟩
    obtain rfl :=
      (layout.closing_last_iff blanks shown inner selection.ends.not_closeless).mp earlier
    exact ⟨front, line, layout, indent ▸ shown⟩
  · rintro ⟨front, last, other, shown⟩
    obtain rfl := layout.unique other
    rw [← indent] at shown
    exact ⟨front, last, [], rfl, shown,
      (layout.closing_last_iff blanks shown inner selection.ends.not_closeless).mpr rfl⟩

--------------------------------------------------------------------------------
-- Main statement
--------------------------------------------------------------------------------

/-- Wrapping keeps the closing line of a comment, with no comment end in front of it, exactly if the
text ends with it or its line feed, or if it is laid out as it was written. -/
theorem closing_kept_iff (selection : Selection) {width : Int} (positive : 1 ≤ width)
    : ∃ output,
        reflow width selection.text = .ok output
        ∧ (KeepsClosing selection.closing output
          ↔ selection.blanks = []
            ∨ selection.blanks = [[]]
            ∨ selection.LaidAsWritten width.toNat) := by
  have shape : selection.opening :: selection.body ++ selection.closing :: selection.blanks
      = selection.opening :: (selection.body ++ [selection.closing]) ++ selection.blanks := by
    simp
  have unbroken := selection.unbroken
  rw [shape] at unbroken
  obtain ⟨trailing, found, among, ended⟩ := exists_linesOf (List.cons_ne_nil _ _) unbroken
    (by rw [← List.cons_append, List.getLast?_concat]; simpa using selection.ends.ne_nil)
  rw [← shape, ← Selection.text] at found
  by_cases last : trailing = []
  · subst last
    rw [List.append_nil] at found
    obtain ⟨output, wrapped, kept⟩ := selection.keepsClosing positive found
    refine ⟨output, wrapped, iff_of_true kept ?_⟩
    exact or_assoc.mp (.inl (ended.mp rfl))
  · have blank := fun line member => selection.blank line (among.subset member)
    have hidden : linesOf selection.text
        = selection.opening :: (selection.body ++ selection.closing :: trailing) := by
      simpa using found
    obtain ⟨output, wrapped, kept⟩ := selection.keepsClosing_iff positive last blank hidden
    refine ⟨output, wrapped, kept.trans ?_⟩
    rw [← or_assoc, ← ended]
    exact (or_iff_right last).symm

/-- A comment of one word, with a text in front of its end and two blank lines behind it. -/
def blanksBehind (front : Text) (unbroken : '\n' ∉ front) : Selection where
  opening := "/**".toList
  body := [" * a".toList]
  closing := front ++ "*/".toList
  blanks := [[], []]
  starts := ⟨[], [], rfl, by simp⟩
  ends := ⟨front, [], by simp, by simp⟩
  unclosed := by decide
  blank := by simp
  unbroken := by simpa using unbroken

/-- A closing line with a tag stays, although blank lines are behind it. -/
theorem closing_kept_tag
    : (blanksBehind " * @b ".toList (by decide)).text = "/**\n * a\n * @b */\n\n".toList
      ∧ ∃ output,
          reflow 80 "/**\n * a\n * @b */\n\n".toList = .ok output
          ∧ KeepsClosing " * @b */".toList output := by
  have laid : (blanksBehind " * @b ".toList (by decide)).LaidAsWritten 80 := by
    refine ⟨[[⟨.start, "a".toList⟩]], [⟨.line, "@b".toList⟩, ⟨.space, "*/".toList⟩],
      ⟨⟨by decide, by decide, ?_, by decide⟩, by decide, by simp⟩, by decide⟩
    have tag : startsWithTag ['@', 'b'] = true := by decide
    simp [Follows, PlacedWord.opensParagraph, tag]
  obtain ⟨output, wrapped, kept⟩ :=
    closing_kept_iff (blanksBehind " * @b ".toList (by decide)) (show (1 : Int) ≤ 80 by decide)
  exact ⟨rfl, output, wrapped, kept.mpr (.inr (.inr laid))⟩

/-- A plain closing line in front of a blank line is read as a star and a slash, and the slash
becomes a word of the paragraph before it. -/
theorem closing_merged
    : (blanksBehind [' '] (by decide)).text = "/**\n * a\n */\n\n".toList
      ∧ reflow 80 "/**\n * a\n */\n\n".toList = .ok "/**\n * a /\n".toList
      ∧ ¬ KeepsClosing " */".toList "/**\n * a /\n".toList := by
  refine ⟨rfl, by decide, ?_⟩
  rintro ⟨before, after, whole, -⟩
  have absent : " */".toList ∉ Text.lines "/**\n * a /\n".toList := by decide
  exact absent (whole ▸ List.mem_append_right before List.mem_cons_self)

end DocBlock.Reflow
