import DocBlock.Proofs.Reflow.Words
import Mathlib.Data.List.Chain

/-! Layouts of the words of a body: the words in order, cut into lines, with an empty line where
blank lines stood. The lines of a layout are as full as the width allows, and so a body has exactly
one layout: the one that filling its paragraphs gives.
-/

namespace DocBlock.Reflow

open Text (isSpace isBlank isWord)

/-- The text of a line of words. -/
def lineText (line : List PlacedWord) : Text :=
  Text.unwords (line.map (·.word))

/-- A line of words behind its decoration; a line without words is a bare star. -/
def decorated (indent : Text) (line : List PlacedWord) : Text :=
  if line = [] then indent ++ ['*'] else indent ++ "* ".toList ++ lineText line

/-- A line may follow another one: an empty line stands in front of the words behind blank lines and
of no others, and a word goes to a new line if it starts a paragraph or does not fit on the line
before. -/
def Follows (width : Nat) : List PlacedWord → List PlacedWord → Prop
  | [], [] => False
  | [], next :: _ => next.gap = .blankLines
  | _ :: _, [] => True
  | first :: more, next :: _ =>
    next.gap ≠ .start
      ∧ next.gap ≠ .blankLines
      ∧ (next.opensParagraph = false
        → width < (lineText (first :: more)).length + 1 + next.word.length)

/-- Lines that are filled up to a width. Paragraphs start at the start of a line, and only a word
alone on its line may be too long. -/
structure Laid (width : Nat) (lines : List (List PlacedWord)) : Prop where
  fits : ∀ line ∈ lines, (lineText line).length ≤ width ∨ line.length = 1
  inner : ∀ line ∈ lines, ∀ placed ∈ line.tail, placed.opensParagraph = false
  follows : lines.IsChain (Follows width)
  ended : lines.getLast? ≠ some []

/-- The layout of some words. -/
structure Layout (width : Nat) (words : List PlacedWord) (lines : List (List PlacedWord)) : Prop
    extends Laid width lines where
  whole : lines.flatten = words
  started : ∀ line ∈ lines.head?, line.head?.any (·.gap = .start)

variable {width : Nat} {line next words : List PlacedWord} {placed : PlacedWord}
variable {lines others : List (List PlacedWord)}

--------------------------------------------------------------------------------
-- Filling a paragraph
--------------------------------------------------------------------------------

theorem lineText_concat (nonempty : line ≠ []) (placed : PlacedWord)
    : lineText (line ++ [placed]) = lineText line ++ ' ' :: placed.word := by
  unfold lineText Text.unwords
  induction line with
  | nil => contradiction
  | cons first more ih =>
      cases more with
      | nil => simp [Text.join]
      | cons second more => simpa [Text.join] using ih (List.cons_ne_nil second more)

theorem Follows.of_inside (nonempty : line ≠ []) (starts : next.head? = some placed)
    (inside : placed.opensParagraph = false)
    (full : width < (lineText line).length + 1 + placed.word.length)
    : Follows width line next := by
  obtain ⟨first, more, rfl⟩ := List.exists_cons_of_ne_nil nonempty
  obtain ⟨behind, rfl⟩ := List.head?_eq_some_iff.mp starts
  rcases PlacedWord.opensParagraph_eq_false_iff.mp inside with gap | ⟨gap, -⟩
  all_goals exact ⟨by simp [gap], by simp [gap], fun _ => full⟩

/-- A line that goes on with a paragraph stands behind a line that is full. -/
theorem Follows.full {tail : List PlacedWord}
    (follows : Follows width line (placed :: tail)) (inside : placed.opensParagraph = false)
    : line ≠ [] ∧ width < (lineText line).length + 1 + placed.word.length := by
  cases line with
  | nil =>
      have blank : placed.gap = .blankLines := follows
      simp [PlacedWord.opensParagraph, blank] at inside
  | cons first more => exact ⟨List.cons_ne_nil first more, follows.2.2 inside⟩

theorem Laid.nil (width : Nat) : Laid width [] :=
  ⟨by simp, by simp, by simp, by simp⟩

/-- A line is put in front of lines that may follow it. -/
theorem Laid.cons (laid : Laid width lines)
    (fits : (lineText line).length ≤ width ∨ line.length = 1)
    (inner : ∀ placed ∈ line.tail, placed.opensParagraph = false)
    (joint : ∀ next ∈ lines.head?, Follows width line next) (ended : line = [] → lines ≠ [])
    : Laid width (line :: lines) where
  fits := List.forall_mem_cons.mpr ⟨fits, laid.fits⟩
  inner := List.forall_mem_cons.mpr ⟨inner, laid.inner⟩
  follows := List.isChain_cons.mpr ⟨joint, laid.follows⟩
  ended := by
    cases lines with
    | nil => simpa using fun empty => ended empty rfl
    | cons next lines => simpa [List.getLast?_cons_cons] using laid.ended

/-- Lines are put in front of lines that may follow the last of them. -/
theorem Laid.append (one : Laid width lines) (two : Laid width others)
    (joint : ∀ line ∈ lines.getLast?, ∀ next ∈ others.head?, Follows width line next)
    : Laid width (lines ++ others) where
  fits := List.forall_mem_append.mpr ⟨one.fits, two.fits⟩
  inner := List.forall_mem_append.mpr ⟨one.inner, two.inner⟩
  follows := List.isChain_append.mpr ⟨one.follows, two.follows, joint⟩
  ended := by
    rcases List.eq_nil_or_concat others with rfl | ⟨front, last, rfl⟩
    · simpa using one.ended
    · simpa using two.ended

/-- Words inside a paragraph are laid out behind a line that they continue, by induction on
them. -/
theorem exists_fillFrom {current rest : List PlacedWord}
    (inside : ∀ placed ∈ rest, placed.opensParagraph = false)
    (nonempty : current ≠ []) (fits : (lineText current).length ≤ width ∨ current.length = 1)
    (inner : ∀ placed ∈ current.tail, placed.opensParagraph = false)
    : ∃ first more,
        fillFrom width (lineText current) (rest.map (·.word)) = (first :: more).map lineText
        ∧ (first :: more).flatten = current ++ rest
        ∧ current <+: first
        ∧ (∀ line ∈ first :: more, line ≠ [])
        ∧ Laid width (first :: more) := by
  induction rest generalizing current with
  | nil =>
      refine ⟨current, [], by simp [fillFrom], by simp, List.prefix_rfl, by simpa, ?_⟩
      exact ⟨by simpa using fits, by simpa using inner, by simp, by simpa using nonempty⟩
  | cons placed rest ih =>
      obtain ⟨here, behind⟩ := List.forall_mem_cons.mp inside
      rw [List.map_cons, fillFrom]
      split
      · next room =>
        have wider : (lineText (current ++ [placed])).length ≤ width := by
          rw [lineText_concat nonempty, List.length_append, List.length_cons]
          omega
        have joined : ∀ other ∈ (current ++ [placed]).tail, other.opensParagraph = false := by
          rw [List.tail_append_of_ne_nil nonempty]
          exact List.forall_mem_append.mpr ⟨inner, by simpa using here⟩
        obtain ⟨first, more, filled, whole, starts, rest⟩ :=
          ih behind (by simp) (.inl wider) joined
        rw [lineText_concat nonempty] at filled
        exact ⟨first, more, filled, by simpa using whole,
          (List.prefix_append current [placed]).trans starts, rest⟩
      · next full =>
        obtain ⟨first, more, filled, whole, starts, lines, laid⟩ :=
          ih behind (List.cons_ne_nil placed []) (.inr rfl) (by simp)
        have next : first.head? = some placed := by
          obtain ⟨tail, rfl⟩ := starts
          rfl
        have joint := Follows.of_inside nonempty next here (Nat.lt_of_not_le full)
        have alone : lineText [placed] = placed.word := rfl
        rw [alone] at filled
        refine ⟨current, first :: more, by simp [filled], by simpa using whole, List.prefix_rfl,
          List.forall_mem_cons.mpr ⟨nonempty, lines⟩, ?_⟩
        exact laid.cons fits inner (by simpa using joint) (by simp)

--------------------------------------------------------------------------------
-- Paragraphs of a body
--------------------------------------------------------------------------------

/-- Words that are cut into paragraphs: each starts with a word that starts one, and there is no
such word inside. -/
inductive Grouped : List PlacedWord → List Paragraph → Prop where
  | none : Grouped [] []
  | paragraph {first : PlacedWord} {more rest : List PlacedWord} {later : List Paragraph}
    (opens : first.opensParagraph = true) (behind : first.gap ≠ .start)
    (inside : ∀ placed ∈ more, placed.opensParagraph = false) (others : Grouped rest later)
    : Grouped (first :: (more ++ rest))
        ({
          afterBlank := first.gap = .blankLines
          words := first.word :: more.map (·.word)
        } :: later)

theorem map_word_spaced (others : List Text)
    : (others.map (PlacedWord.mk .space)).map (·.word) = others := by
  rw [List.map_map]
  exact List.map_id others

theorem opensParagraph_spaced (others : List Text)
    : ∀ placed ∈ others.map (PlacedWord.mk .space), placed.opensParagraph = false := by
  simp [PlacedWord.opensParagraph]

theorem paragraphsFrom_blank {line : Text} (empty : content line = []) (afterBlank : Bool)
    (lines : List Text)
    : paragraphsFrom afterBlank (line :: lines) = paragraphsFrom true lines := by
  simp [paragraphsFrom, empty]

/-- A line with words starts a paragraph behind blank lines or with a tag. -/
theorem paragraphsFrom_words {line word : Text} {others : List Text} (shown : content line ≠ [])
    (words : Text.words (content line) = word :: others)
    (tag : startsWithTag (content line) = startsWithTag word) (afterBlank : Bool)
    (lines : List Text)
    : paragraphsFrom afterBlank (line :: lines)
      = if afterBlank || startsWithTag word then
          ([], {
            afterBlank
            words := word :: (others ++ (paragraphsFrom false lines).1)
          } :: (paragraphsFrom false lines).2)
        else
          (word :: (others ++ (paragraphsFrom false lines).1), (paragraphsFrom false lines).2) := by
  simp [paragraphsFrom, shown, words, tag]

/-- The lines behind a word continue its paragraph up to the first word that starts one. Witness:
induction on the lines; the flag tells whether the line before was blank.
-/
theorem grouped_paragraphsFrom (afterBlank : Bool) (lines : List Text)
    : ∃ more rest,
        wordsBehind (if afterBlank then .blankLines else .line) lines = more ++ rest
        ∧ (paragraphsFrom afterBlank lines).1 = more.map (·.word)
        ∧ (∀ placed ∈ more, placed.opensParagraph = false)
        ∧ Grouped rest (paragraphsFrom afterBlank lines).2 := by
  induction lines generalizing afterBlank with
  | nil => exact ⟨[], [], rfl, rfl, by simp, .none⟩
  | cons line lines ih =>
      rcases content_cases line with ⟨empty, blank⟩ | ⟨word, others, shown, words, tag⟩
      · have across : (if afterBlank then Gap.blankLines else .line).withBlank = .blankLines := by
          cases afterBlank <;> rfl
        rw [wordsBehind_blank blank, across, paragraphsFrom_blank empty]
        exact ih true
      · obtain ⟨more, rest, behind, continued, inside, grouped⟩ := ih false
        rw [if_neg Bool.false_ne_true] at behind
        have joined := List.forall_mem_append.mpr ⟨opensParagraph_spaced others, inside⟩
        have spelled : (others.map (PlacedWord.mk .space) ++ more).map (·.word)
            = others ++ (paragraphsFrom false lines).1 := by
          rw [List.map_append, map_word_spaced, continued]
        rw [wordsBehind_words words, behind, paragraphsFrom_words shown words tag, ← spelled]
        by_cases opens : (afterBlank || startsWithTag word) = true
        · have flag : decide ((if afterBlank then Gap.blankLines else .line) = .blankLines)
              = afterBlank := by
            cases afterBlank <;> rfl
          have first : (PlacedWord.mk (if afterBlank then .blankLines else .line)
              word).opensParagraph = true := by
            cases afterBlank with
            | false => exact opens
            | true => rfl
          have later := Grouped.paragraph first (by cases afterBlank <;> simp) joined grouped
          rw [flag, List.append_assoc] at later
          rw [if_pos opens]
          exact ⟨[], _, rfl, rfl, by simp, later⟩
        · rw [if_neg opens]
          rw [Bool.not_eq_true, Bool.or_eq_false_iff] at opens
          have first : (PlacedWord.mk .line word).opensParagraph = false := opens.2
          refine ⟨⟨.line, word⟩ :: (others.map (⟨.space, ·⟩) ++ more), rest, ?_, rfl, ?_, grouped⟩
          · simp [opens]
          · exact List.forall_mem_cons.mpr ⟨first, joined⟩

--------------------------------------------------------------------------------
-- The layout of a body
--------------------------------------------------------------------------------

/-- A paragraph is laid out in front of lines that may follow every line with words. -/
theorem Laid.exists_paragraph {further : List (List PlacedWord)} (spread : Laid width further)
    (joint : ∀ next ∈ further.head?, ∀ line ≠ [], Follows width line next) (first : PlacedWord)
    {more : List PlacedWord} (inside : ∀ placed ∈ more, placed.opensParagraph = false)
    (indent : Text)
    : ∃ tail lines,
        (fill width (first.word :: more.map (·.word))).map (indent ++ "* ".toList ++ ·)
            ++ further.map (decorated indent)
          = ((first :: tail) :: lines).map (decorated indent)
        ∧ ((first :: tail) :: lines).flatten = first :: (more ++ further.flatten)
        ∧ Laid width ((first :: tail) :: lines) := by
  obtain ⟨line, lines, filled, whole, ⟨tail, starts⟩, proper, laid⟩ :=
    exists_fillFrom inside (List.cons_ne_nil first []) (.inr rfl) (by simp)
  rw [List.singleton_append] at starts
  subst starts
  have printed : (fill width (first.word :: more.map (·.word))).map (indent ++ "* ".toList ++ ·)
      = ((first :: tail) :: lines).map (decorated indent) := by
    have alone : lineText [first] = first.word := rfl
    rw [fill, ← alone, filled, List.map_map]
    refine List.map_congr_left fun text among => ?_
    simp [decorated, proper text among]
  refine ⟨tail, lines ++ further, ?_, ?_, ?_⟩
  · rw [printed, ← List.map_append, List.cons_append]
  · rw [← List.cons_append, List.flatten_append, whole, List.singleton_append, List.cons_append]
  · exact laid.append spread fun last among next following =>
      joint next following last (proper last (List.mem_of_getLast? among))

/-- Paragraphs behind the first one are laid out, by induction on them. -/
theorem Grouped.exists_laid {paragraphs : List Paragraph}
    (grouped : Grouped words paragraphs) (indent : Text) (width : Nat)
    : ∃ lines,
        paragraphs.flatMap (paragraphLines indent width) = lines.map (decorated indent)
        ∧ lines.flatten = words
        ∧ Laid width lines
        ∧ ∀ next ∈ lines.head?, ∀ line ≠ [], Follows width line next := by
  induction grouped with
  | none => exact ⟨[], rfl, rfl, .nil width, by simp⟩
  | @paragraph first more rest later opens behind inside others ih =>
      obtain ⟨further, printed, remaining, spread, joint⟩ := ih
      obtain ⟨tail, lines, filled, whole, laid⟩ :=
        spread.exists_paragraph joint first inside indent
      rw [List.flatMap_cons, paragraphLines, List.append_assoc, printed, filled]
      rw [remaining] at whole
      by_cases blank : first.gap = .blankLines
      · refine ⟨[] :: (first :: tail) :: lines, by simp [blank, decorated], whole, ?_, ?_⟩
        · have joint : Follows width [] (first :: tail) := blank
          exact laid.cons (.inl (Nat.zero_le _)) (by simp) (by simpa using joint) (by simp)
        · rintro next ⟨⟩ line nonempty
          obtain ⟨word, words, rfl⟩ := List.exists_cons_of_ne_nil nonempty
          trivial
      · refine ⟨(first :: tail) :: lines, by simp [blank], whole, laid, ?_⟩
        rintro next ⟨⟩ line nonempty
        obtain ⟨word, words, rfl⟩ := List.exists_cons_of_ne_nil nonempty
        exact ⟨behind, blank, fun inside => absurd opens (by simp [inside])⟩

theorem paragraphs_blank {line : Text} (empty : content line = []) (body : List Text)
    : paragraphs (line :: body) = paragraphs body := by
  simp [paragraphs, empty]

/-- Filling the paragraphs of a body gives the layout of its words. By induction on the blank lines
in front of the first word. -/
theorem exists_layout (indent : Text) (width : Nat) (body : List Text)
    : ∃ lines,
        (paragraphs body).flatMap (paragraphLines indent width) = lines.map (decorated indent)
        ∧ Layout width (bodyWords body) lines := by
  induction body with
  | nil => exact ⟨[], rfl, { toLaid := .nil width, whole := rfl, started := by simp }⟩
  | cons line body ih =>
      rcases content_cases line with ⟨empty, blank⟩ | ⟨word, others, shown, words, -⟩
      · rw [bodyWords, wordsBehind_blank blank, paragraphs_blank empty]
        exact ih
      · obtain ⟨more, rest, behind, continued, inside, grouped⟩ := grouped_paragraphsFrom false body
        obtain ⟨further, printed, remaining, spread, joint⟩ := grouped.exists_laid indent width
        have joined := List.forall_mem_append.mpr ⟨opensParagraph_spaced others, inside⟩
        obtain ⟨tail, lines, filled, whole, laid⟩ :=
          spread.exists_paragraph joint ⟨.start, word⟩ joined indent
        refine ⟨_, ?_, { toLaid := laid, whole := ?_, started := by simp }⟩
        · rw [← filled, List.map_append, map_word_spaced, ← continued, ← printed]
          simp [paragraphs, shown, words, paragraphLines]
        · rw [whole, remaining, List.append_assoc, ← behind]
          exact (wordsBehind_words words _ _).symm

--------------------------------------------------------------------------------
-- There is one layout
--------------------------------------------------------------------------------

theorem Laid.tail (laid : Laid width (line :: lines)) : Laid width lines where
  fits := (List.forall_mem_cons.mp laid.fits).2
  inner := (List.forall_mem_cons.mp laid.inner).2
  follows := laid.follows.tail
  ended := by
    cases lines with
    | nil => simp
    | cons next lines => simpa [List.getLast?_cons_cons] using laid.ended

/-- The first word stands on the first line, or on the second one behind an empty line, where it has
blank lines in front of it. -/
theorem Laid.exists_first (laid : Laid width lines) (nonempty : lines ≠ [])
    : ∃ first tail more,
        lines = (first :: tail) :: more
        ∨ (first.gap = .blankLines ∧ lines = [] :: (first :: tail) :: more) := by
  match lines with
  | (first :: tail) :: more => exact ⟨first, tail, more, .inl rfl⟩
  | [] :: (first :: tail) :: more =>
      exact ⟨first, tail, more, .inr ⟨(List.isChain_cons_cons.mp laid.follows).1, rfl⟩⟩
  | [] :: [] :: more => exact (List.isChain_cons_cons.mp laid.follows).1.elim
  | [[]] => exact absurd rfl laid.ended

theorem length_lineText_append (line more : List PlacedWord)
    : (lineText line).length ≤ (lineText (line ++ more)).length := by
  induction more generalizing line with
  | nil => simp
  | cons placed more ih =>
      have step : (lineText line).length ≤ (lineText (line ++ [placed])).length := by
        by_cases empty : line = []
        · simp [empty, lineText, Text.unwords, Text.join]
        · simp [lineText_concat empty]
      simpa using step.trans (ih (line ++ [placed]))

/-- A line holds every word that a line with the same words behind it can hold: the next word opens
a paragraph or does not fit. -/
theorem Laid.length_le {other : List PlacedWord} (one : Laid width (line :: lines))
    (two : Laid width (other :: others)) (nonempty : line ≠ [])
    (same : line ++ lines.flatten = other ++ others.flatten)
    : other.length ≤ line.length := by
  by_contra longer
  obtain ⟨extra, rfl⟩ : line <+: other :=
    List.prefix_of_prefix_length_le ⟨_, same⟩ (List.prefix_append _ _) (by omega)
  rw [List.append_assoc, List.append_cancel_left_eq] at same
  cases extra with
  | nil => simp at longer
  | cons placed extra =>
      have inside : placed.opensParagraph = false := by
        refine two.inner _ List.mem_cons_self placed ?_
        simp [List.tail_append_of_ne_nil nonempty]
      obtain ⟨first, tail, more, here | ⟨gap, here⟩⟩ :=
        one.tail.exists_first (by rintro rfl; simp at same)
      · subst here
        obtain ⟨rfl, -⟩ : first = placed ∧ _ := by simpa using same
        have full := ((List.isChain_cons_cons.mp one.follows).1.full inside).2
        have wider := length_lineText_append (line ++ [first]) extra
        have count : (line ++ first :: extra).length ≠ 1 := by
          have := List.length_pos_of_ne_nil nonempty
          simp only [List.length_append, List.length_cons]
          omega
        have fits := (two.fits _ List.mem_cons_self).resolve_right count
        simp only [lineText_concat nonempty, List.append_assoc, List.length_append,
          List.length_cons, List.singleton_append] at wider
        omega
      · subst here
        obtain ⟨rfl, -⟩ : first = placed ∧ _ := by simpa using same
        simp [PlacedWord.opensParagraph, gap] at inside

/-- The words behind a line tell whether an empty line follows it. -/
theorem Laid.blank_next_iff (laid : Laid width (line :: lines))
    : lines.head? = some []
      ↔ line ≠ [] ∧ ∃ first ∈ lines.flatten.head?, first.gap = .blankLines := by
  by_cases none : lines = []
  · simp [none]
  · obtain ⟨first, tail, more, rfl | ⟨gap, rfl⟩⟩ := laid.tail.exists_first none
    · have follows := (List.isChain_cons_cons.mp laid.follows).1
      cases line with
      | nil => simp
      | cons head line => simpa using follows.2.1
    · cases line with
      | nil => exact (List.isChain_cons_cons.mp laid.follows).1.elim
      | cons head line => simpa using gap

/-- Words are laid out in one way, by induction on the lines. -/
theorem Laid.eq_of_flatten (one : Laid width lines) (two : Laid width others)
    (same : lines.flatten = others.flatten)
    (blank : lines.head? = some [] ↔ others.head? = some [])
    : lines = others := by
  induction lines generalizing others with
  | nil =>
      by_contra differ
      obtain ⟨first, tail, more, rfl | ⟨-, rfl⟩⟩ := two.exists_first (Ne.symm differ)
      <;> simp at same
  | cons line lines ih =>
      match others with
      | [] =>
          obtain ⟨first, tail, more, here | ⟨-, here⟩⟩ := one.exists_first (List.cons_ne_nil _ _)
          <;> simp [here] at same
      | other :: others =>
          rw [List.flatten_cons, List.flatten_cons] at same
          simp only [List.head?_cons, Option.some_inj] at blank
          have equal : line = other := by
            by_cases empty : line = []
            · rw [empty, blank.mp empty]
            · have shorter := one.length_le two empty same
              have longer := two.length_le one (blank.not.mp empty) same.symm
              exact (List.append_inj same (Nat.le_antisymm longer shorter)).1
          subst equal
          rw [List.append_cancel_left_eq] at same
          rw [ih one.tail two.tail same (by rw [one.blank_next_iff, two.blank_next_iff, same])]

/-- Words have one layout. -/
theorem Layout.unique (one : Layout width words lines) (two : Layout width words others)
    : lines = others := by
  have first : lines.head? ≠ some [] := fun empty => by simpa using one.started [] empty
  have second : others.head? ≠ some [] := fun empty => by simpa using two.started [] empty
  exact one.eq_of_flatten two.toLaid (one.whole.trans two.whole.symm) (iff_of_false first second)

end DocBlock.Reflow
