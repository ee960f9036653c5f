import DocBlock.Proofs.Text.Words
import DocBlock.Reflow

/-! The words of the body of a comment, each with what separates it from the word before. This view
of a body says what a paragraph is: a word starts one if it is the first word, if blank lines stand
in front of it, or if it is a tag at the start of a line.
-/

namespace DocBlock.Reflow

open Text (isSpace isBlank isWord)

/-- What separates a word from the word before it. -/
inductive Gap where
  /-- There is no word before it. -/
  | start
  /-- Both stand on one line. -/
  | space
  /-- The word before ends the line before. -/
  | line
  /-- At least one blank line stands between them. -/
  | blankLines
  deriving Repr, DecidableEq

/-- The gap with a blank line more in it. -/
def Gap.withBlank : Gap → Gap
  | .start => .start
  | _ => .blankLines

/-- A word of a body and what stands in front of it. -/
structure PlacedWord where
  gap : Gap
  word : Text
  deriving Repr, DecidableEq

/-- A word starts a paragraph if it is the first one, if blank lines stand in front of it, or if it
is a tag that starts a line. -/
def PlacedWord.opensParagraph (placed : PlacedWord) : Bool :=
  match placed.gap with
  | .start | .blankLines => true
  | .line => startsWithTag placed.word
  | .space => false

/-- The words of some lines, with the gap in front of the first of them. -/
def wordsBehind (gap : Gap) : List Text → List PlacedWord
  | [] => []
  | line :: rest =>
    match Text.words (content line) with
    | [] => wordsBehind gap.withBlank rest
    | word :: more => ⟨gap, word⟩ :: (more.map (⟨.space, ·⟩) ++ wordsBehind .line rest)

/-- The words of a body. -/
def bodyWords (lines : List Text) : List PlacedWord :=
  wordsBehind .start lines

theorem Gap.withBlank_of_ne {gap : Gap} (inner : gap ≠ .start) : gap.withBlank = .blankLines := by
  cases gap with
  | start => contradiction
  | space | line | blankLines => rfl

/-- The words inside a paragraph stand behind another one on their line, or start a line and are no
tags. -/
theorem PlacedWord.opensParagraph_eq_false_iff {placed : PlacedWord}
    : placed.opensParagraph = false
      ↔ placed.gap = .space ∨ (placed.gap = .line ∧ startsWithTag placed.word = false) := by
  unfold opensParagraph
  cases placed.gap <;> simp

--------------------------------------------------------------------------------
-- The content of a line
--------------------------------------------------------------------------------

/-- A tag is seen from what stands in front of the first white space. -/
theorem startsWithTag_takeWhile (text : Text)
    : startsWithTag (text.takeWhile (!isSpace ·)) = startsWithTag text := by
  match text with
  | [] => rfl
  | [c] => cases space : isSpace c <;> simp [space, startsWithTag]
  | c :: d :: rest =>
      by_cases first : isSpace c = true
      · have other : (c = '@' || c = '\\') = false := by
          rw [Bool.or_eq_false_iff, decide_eq_false_iff_not, decide_eq_false_iff_not]
          constructor <;> rintro rfl <;> exact absurd first (by decide)
        simp [first, startsWithTag, other]
      · by_cases second : isSpace d = true
        · simp [first, second, startsWithTag, Text.isWord_of_isSpace second]
        · simp [first, second, startsWithTag]

/-- A line is blank, or it has words, the first of which tells whether it starts with a tag. -/
theorem content_cases (line : Text)
    : (content line = [] ∧ Text.words (content line) = [])
      ∨ ∃ word more,
          content line ≠ []
          ∧ Text.words (content line) = word :: more
          ∧ startsWithTag (content line) = startsWithTag word := by
  by_cases blank : content line = []
  · exact .inl ⟨blank, by rw [blank, Text.words_nil]⟩
  · obtain ⟨c, rest, shape⟩ := List.exists_cons_of_ne_nil blank
    have start : (content line).head? = some c := by rw [shape]; rfl
    have outside : isSpace c = false := Text.ends_trimBy (.inl start)
    obtain ⟨more, words⟩ := List.head?_eq_some_iff.mp (Text.head?_words ⟨c, start, outside⟩)
    exact .inr ⟨_, more, blank, words, (startsWithTag_takeWhile _).symm⟩

theorem content_bare {indent : Text} (blanks : ∀ c ∈ indent, isBlank c = true)
    : content (indent ++ ['*']) = [] := by
  simp [content, List.dropWhile_append_of_pos blanks, isBlank, Text.after?, Text.trim, Text.trimBy,
    Text.dropEndWhile]

theorem content_starred {indent : Text} (blanks : ∀ c ∈ indent, isBlank c = true) (text : Text)
    : content (indent ++ "* ".toList ++ text) = Text.trim text := by
  have star : (indent ++ "* ".toList ++ text).dropWhile isBlank = '*' :: ' ' :: text := by
    rw [List.append_assoc, List.dropWhile_append_of_pos blanks]
    simp [isBlank]
  have space := @Text.trimBy_surrounded isSpace [' '] [] (by decide) (by simp) text
  rw [List.append_nil, List.singleton_append] at space
  simp only [content, star, Text.after?, if_true, Option.getD_some]
  exact space

--------------------------------------------------------------------------------
-- The words of a body
--------------------------------------------------------------------------------

theorem wordsBehind_blank {line : Text} (blank : Text.words (content line) = []) (gap : Gap)
    (rest : List Text)
    : wordsBehind gap (line :: rest) = wordsBehind gap.withBlank rest := by
  simp [wordsBehind, blank]

theorem wordsBehind_words {line word : Text} {more : List Text}
    (words : Text.words (content line) = word :: more) (gap : Gap) (rest : List Text)
    : wordsBehind gap (line :: rest)
      = ⟨gap, word⟩ :: (more.map (⟨.space, ·⟩) ++ wordsBehind .line rest) := by
  simp [wordsBehind, words]

/-- A word of some lines is a word of one of them, by induction on the lines. -/
theorem mem_words_of_mem_wordsBehind {gap : Gap} {lines : List Text} {placed : PlacedWord}
    (member : placed ∈ wordsBehind gap lines)
    : ∃ line ∈ lines, placed.word ∈ Text.words (content line) := by
  induction lines generalizing gap with
  | nil => contradiction
  | cons line rest ih =>
      rcases content_cases line with ⟨-, blank⟩ | ⟨word, more, -, words, -⟩
      · rw [wordsBehind_blank blank] at member
        obtain ⟨later, among, inside⟩ := ih member
        exact ⟨later, List.mem_cons_of_mem _ among, inside⟩
      · rw [wordsBehind_words words, List.mem_cons, List.mem_append] at member
        rcases member with rfl | same | behind
        · exact ⟨line, List.mem_cons_self, by simp [words]⟩
        · obtain ⟨other, among, rfl⟩ := List.mem_map.mp same
          exact ⟨line, List.mem_cons_self, by simp [words, among]⟩
        · obtain ⟨later, among, inside⟩ := ih behind
          exact ⟨later, List.mem_cons_of_mem _ among, inside⟩

/-- Words of a body are not empty and hold no white space. -/
theorem word_of_mem_wordsBehind {gap : Gap} {lines : List Text} {placed : PlacedWord}
    (member : placed ∈ wordsBehind gap lines)
    : placed.word ≠ [] ∧ ∀ c ∈ placed.word, isSpace c = false := by
  obtain ⟨line, -, inside⟩ := mem_words_of_mem_wordsBehind member
  exact ⟨(Text.mem_words_iff.mp inside).1, Text.unspaced_of_mem_words inside⟩

end DocBlock.Reflow
