import DocBlock.Proofs.Reflow.Layout

/-! The words that are read from the lines of a layout. They are the words that were laid out, in
order, and stand where the layout put them: blank lines and tags at the start of a line are kept,
other words may have come to the start of a line. With these words the layout is still one.
-/

namespace DocBlock.Reflow

open Text (isSpace isBlank isWord)

/-- The words of a line behind a gap. -/
def respaced (gap : Gap) : List PlacedWord → List PlacedWord
  | [] => []
  | first :: more => ⟨gap, first.word⟩ :: (more.map (·.word)).map (.mk .space)

/-- The gap behind a line that itself stands behind a gap. -/
def gapBehind (gap : Gap) (line : List PlacedWord) : Gap :=
  if line = [] then gap.withBlank else .line

/-- The words of some lines, with the gaps as the lines have them. -/
def reread (gap : Gap) : List (List PlacedWord) → List (List PlacedWord)
  | [] => []
  | line :: rest => respaced gap line :: reread (gapBehind gap line) rest

/-- A word keeps what the body says about it: whether blank lines stand in front of it and, if it is
a tag that starts a line, that it starts one. -/
structure Keeps (before after : PlacedWord) : Prop where
  word : after.word = before.word
  blank : after.gap = .blankLines ↔ before.gap = .blankLines
  tag : before.gap ≠ .space → startsWithTag before.word = true → after.gap ≠ .space

/-- A gap in front of lines is what the first of them say. -/
def Begins (gap : Gap) : List (List PlacedWord) → Prop
  | [] => True
  | [] :: _ => gap ≠ .start
  | (first :: _) :: _ => gap ≠ .space ∧ (gap = .blankLines ↔ first.gap = .blankLines)

variable {width : Nat} {gap : Gap} {line next words : List PlacedWord}
variable {lines : List (List PlacedWord)}

--------------------------------------------------------------------------------
-- The words of decorated lines
--------------------------------------------------------------------------------

theorem respaced_eq_nil_iff : respaced gap line = [] ↔ line = [] := by
  cases line <;> simp [respaced]

theorem lineText_respaced (gap : Gap) (line : List PlacedWord)
    : lineText (respaced gap line) = lineText line := by
  cases line with
  | nil => rfl
  | cons first more => rw [lineText, respaced, List.map_cons, map_word_spaced]; rfl

theorem map_decorated_reread (indent : Text) (gap : Gap) (lines : List (List PlacedWord))
    : (reread gap lines).map (decorated indent) = lines.map (decorated indent) := by
  induction lines generalizing gap with
  | nil => rfl
  | cons line lines ih =>
      rw [reread, List.map_cons, List.map_cons, ih]
      simp [decorated, respaced_eq_nil_iff, lineText_respaced]

/-- Reading a decorated line gives its words. -/
theorem words_decorated {indent : Text} (blanks : ∀ c ∈ indent, isBlank c = true)
    (proper : ∀ placed ∈ line, placed.word ≠ [] ∧ ∀ c ∈ placed.word, isSpace c = false)
    : Text.words (content (decorated indent line)) = line.map (·.word) := by
  by_cases empty : line = []
  · rw [decorated, if_pos empty, content_bare blanks, Text.words_nil, empty, List.map_nil]
  · rw [decorated, if_neg empty, content_starred blanks, Text.words_trim, lineText,
      Text.words_unwords (by simpa using proper)]

/-- Reading decorated lines gives their words, by induction on the lines. -/
theorem wordsBehind_decorated {indent : Text} (blanks : ∀ c ∈ indent, isBlank c = true)
    (proper : ∀ placed ∈ lines.flatten,
      placed.word ≠ [] ∧ ∀ c ∈ placed.word, isSpace c = false)
    (gap : Gap)
    : wordsBehind gap (lines.map (decorated indent)) = (reread gap lines).flatten := by
  induction lines generalizing gap with
  | nil => rfl
  | cons line lines ih =>
      rw [List.flatten_cons, List.forall_mem_append] at proper
      rw [List.map_cons, reread, List.flatten_cons]
      have words := words_decorated blanks proper.1
      cases line with
      | nil =>
          rw [wordsBehind_blank words, ih proper.2]
          rfl
      | cons first more =>
          rw [List.map_cons] at words
          rw [wordsBehind_words words, ih proper.2]
          simp [respaced, gapBehind]

--------------------------------------------------------------------------------
-- The layout of the words that are read
--------------------------------------------------------------------------------

/-- The gap behind a line is what the next lines say. -/
theorem Begins.behind (begins : Begins gap (line :: lines))
    (follows : ∀ next ∈ lines.head?, Follows width line next)
    : Begins (gapBehind gap line) lines := by
  match line, lines with
  | _, [] => trivial
  | [], [] :: _ => exact (follows [] rfl).elim
  | [], (next :: tail) :: _ =>
      have blank : next.gap = .blankLines := follows (next :: tail) rfl
      simp [Begins, gapBehind, Gap.withBlank_of_ne begins, blank]
  | _ :: _, [] :: _ => simp [Begins, gapBehind]
  | first :: more, (next :: tail) :: _ =>
      have behind := follows (next :: tail) rfl
      simp [Begins, gapBehind, behind.2.1]

/-- Whether a line may follow another one is seen from the lines alone. -/
theorem follows_respaced (follows : Follows width line next) (shown : line = [] → gap ≠ .start)
    : Follows width (respaced gap line) (respaced (gapBehind gap line) next) := by
  match line, next with
  | [], [] => exact follows
  | [], next :: tail => exact Gap.withBlank_of_ne (shown rfl)
  | _ :: _, [] => trivial
  | first :: more, next :: tail =>
      refine ⟨by simp [gapBehind], by simp [gapBehind], fun inside => ?_⟩
      have plain : startsWithTag next.word = false := by
        simpa [PlacedWord.opensParagraph, gapBehind] using inside
      have before : next.opensParagraph = false := by
        obtain ⟨second, unparted, -⟩ := follows
        rw [PlacedWord.opensParagraph_eq_false_iff]
        cases gap : next.gap with
        | space => exact .inl rfl
        | line => exact .inr ⟨rfl, plain⟩
        | start | blankLines => contradiction
      have text := lineText_respaced gap (first :: more)
      rw [respaced] at text
      rw [text]
      exact (follows.full before).2

/-- The lines of a layout are as full for the words that are read from them, by induction on the
lines. -/
theorem laid_reread (laid : Laid width lines) (begins : Begins gap lines)
    : Laid width (reread gap lines) := by
  induction lines generalizing gap with
  | nil => exact laid
  | cons line lines ih =>
      have joint := (List.isChain_cons.mp laid.follows).1
      have shown : line = [] → gap ≠ .start := by
        rintro rfl
        exact begins
      refine (ih laid.tail (begins.behind joint)).cons ?_ ?_ ?_ ?_
      · have count : (respaced gap line).length = line.length := by
          cases line <;> simp [respaced]
        rw [lineText_respaced, count]
        exact laid.fits line List.mem_cons_self
      · cases line with
        | nil => simp [respaced]
        | cons first more => exact opensParagraph_spaced _
      · intro next starts
        cases lines with
        | nil => contradiction
        | cons second lines =>
            obtain rfl : respaced (gapBehind gap line) second = next := by
              simpa [reread] using starts
            exact follows_respaced (joint second rfl) shown
      · intro empty
        cases lines with
        | nil => exact absurd (by simp [respaced_eq_nil_iff.mp empty]) laid.ended
        | cons second lines => simp [reread]

theorem Layout.begins (layout : Layout width words lines) : Begins .start lines := by
  match lines with
  | [] => trivial
  | [] :: lines => exact absurd (layout.started [] rfl) (by simp)
  | (first :: more) :: lines =>
      have start : first.gap = .start := by simpa using layout.started (first :: more) rfl
      simp [Begins, start]

/-- What is read from the lines of a layout has these lines as its layout. -/
theorem Layout.of_reread (layout : Layout width words lines)
    : Layout width (reread .start lines).flatten (reread .start lines) where
  toLaid := laid_reread layout.toLaid layout.begins
  whole := rfl
  started := by
    match lines with
    | [] => simp [reread]
    | [] :: lines => exact absurd (layout.started [] rfl) (by simp)
    | (first :: more) :: lines => simp [reread, respaced]

/-- Words inside a line keep what the body says about them. -/
theorem keeps_spaced {more : List PlacedWord}
    (inside : ∀ placed ∈ more, placed.opensParagraph = false)
    : List.Forall₂ Keeps more ((more.map (·.word)).map (.mk .space)) := by
  rw [List.map_map, List.forall₂_map_right_iff, List.forall₂_same]
  intro placed among
  rcases PlacedWord.opensParagraph_eq_false_iff.mp (inside placed among) with gap | ⟨gap, plain⟩
  · exact ⟨rfl, by simp [gap], fun lined => absurd gap lined⟩
  · exact ⟨rfl, by simp [gap], fun _ tag => by simp [plain] at tag⟩

/-- The words that are read from the lines of a layout keep what the body says about them, by
induction on the lines. -/
theorem keeps_reread (laid : Laid width lines) (begins : Begins gap lines)
    : List.Forall₂ Keeps lines.flatten (reread gap lines).flatten := by
  induction lines generalizing gap with
  | nil => exact .nil
  | cons line lines ih =>
      have joint := (List.isChain_cons.mp laid.follows).1
      have later := ih laid.tail (begins.behind joint)
      rw [reread, List.flatten_cons, List.flatten_cons]
      cases line with
      | nil => exact later
      | cons first more =>
          have inside := (List.forall_mem_cons.mp laid.inner).1
          exact .cons ⟨rfl, begins.2, fun _ _ => begins.1⟩
            (List.rel_append (keeps_spaced inside) later)

end DocBlock.Reflow
