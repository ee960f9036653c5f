import DocBlock.Proofs.Text.Classes
import DocBlock.Proofs.Text.LineBreaks
import DocBlock.Proofs.Text.Search
import Mathlib.Data.List.Induction

/-! The words of a text. White space splits a text into words wherever it stands, so that splitting
a text into lines, joining lines and trimming white space keep its words. A word also stays when
characters that it does not hold are removed at either end of the text.
-/

namespace DocBlock.Text

--------------------------------------------------------------------------------
-- Runs
--------------------------------------------------------------------------------

/-- A character between two texts splits their runs, by induction on the first text. -/
theorem runsFrom_append {p : Char → Bool} {c : Char} (inside : p c = true)
    (current front rest : Text)
    : runsFrom p current (front ++ c :: rest) = runsFrom p current front ++ runsFrom p [] rest := by
  induction front generalizing current with
  | nil => cases current <;> simp [runsFrom, inside]
  | cons d front ih =>
      by_cases here : p d = true
      · cases current <;> simp [runsFrom, here, ih]
      · simp [runsFrom, here, ih]

theorem runsFrom_run {p : Char → Bool} {front : Text} (outside : ∀ c ∈ front, p c = false)
    (current : Text)
    : runsFrom p current front
      = if current.reverse ++ front = [] then [] else [current.reverse ++ front] := by
  induction front generalizing current with
  | nil => simp [runsFrom]
  | cons c front ih =>
      rw [List.forall_mem_cons] at outside
      rw [runsFrom, if_neg (by simp [outside.1]), ih outside.2]
      simp

/-- Characters that end runs are passed over in front of a text, by induction on them. -/
theorem runsFrom_skip {p : Char → Bool} {front : Text} (inside : ∀ c ∈ front, p c = true)
    (rest : Text)
    : runsFrom p [] (front ++ rest) = runsFrom p [] rest := by
  induction front with
  | nil => rfl
  | cons c front ih =>
      obtain ⟨here, behind⟩ := List.forall_mem_cons.mp inside
      simpa [runsFrom, here] using ih behind

theorem words_append {c : Char} (space : isSpace c = true) (front rest : Text)
    : words (front ++ c :: rest) = words front ++ words rest :=
  runsFrom_append space [] front rest

@[simp]
theorem words_nil : words [] = [] := rfl

theorem words_cons {c : Char} (space : isSpace c = true) (rest : Text)
    : words (c :: rest) = words rest :=
  words_append space [] rest

/-- Text without white space is one word. -/
theorem words_single {word : Text} (nonempty : word ≠ [])
    (unspaced : ∀ c ∈ word, isSpace c = false)
    : words word = [word] := by
  rw [words, runsFrom_run unspaced]
  simp [nonempty]

/-- A run that nothing continues is the first one of its text. -/
theorem runsFrom_first {p : Char → Bool} {run : Text} (nonempty : run ≠ [])
    (outside : ∀ c ∈ run, p c = false) {rest : Text} (ended : ∀ c ∈ rest.head?, p c = true)
    : runsFrom p [] (run ++ rest) = run :: runsFrom p [] rest := by
  have alone : runsFrom p [] run = [run] := by
    rw [runsFrom_run outside]
    simp [nonempty]
  cases rest with
  | nil => simpa [runsFrom] using alone
  | cons c rest =>
      have stop := ended c rfl
      rw [runsFrom_append stop, alone]
      simp [runsFrom, stop]

/-- The first word of a text that starts with no white space goes up to the next white space. -/
theorem head?_words {text : Text} (start : ∃ c, text.head? = some c ∧ isSpace c = false)
    : (words text).head? = some (text.takeWhile (!isSpace ·)) := by
  obtain ⟨c, first, outside⟩ := start
  obtain ⟨rest, rfl⟩ := List.head?_eq_some_iff.mp first
  have nonempty : (c :: rest).takeWhile (!isSpace ·) ≠ [] := by simp [outside]
  have unspaced : ∀ d ∈ (c :: rest).takeWhile (!isSpace ·), isSpace d = false :=
    fun d member => by simpa using List.mem_takeWhile_imp member
  have ended : ∀ d ∈ ((c :: rest).dropWhile (!isSpace ·)).head?, isSpace d = true :=
    fun d first => by simpa using head?_dropWhile first
  have runs := runsFrom_first nonempty unspaced ended
  rw [List.takeWhile_append_dropWhile] at runs
  rw [words, runs]
  rfl

--------------------------------------------------------------------------------
-- Where a word stands
--------------------------------------------------------------------------------

/-- The text stands in another by itself, with white space or an end of the text on either side. -/
def Stands (word text : Text) : Prop :=
  ∃ before behind,
    text = before ++ (word ++ behind)
      ∧ (∀ c ∈ before.getLast?, isSpace c = true)
      ∧ ∀ c ∈ behind.head?, isSpace c = true

/-- White space may be put in front, and anything before it. -/
theorem Stands.prepend {word text : Text} (stands : Stands word text) {c : Char}
    (space : isSpace c = true) (front : Text)
    : Stands word (front ++ c :: text) := by
  obtain ⟨before, behind, rfl, left, right⟩ := stands
  refine ⟨front ++ c :: before, behind, by simp, ?_, right⟩
  intro d last
  rw [List.getLast?_append, List.getLast?_cons] at last
  cases ending : before.getLast? with
  | none =>
      obtain rfl : c = d := by simpa [ending] using last
      exact space
  | some e =>
      obtain rfl : e = d := by simpa [ending] using last
      exact left e ending

/-- Every run stands in the text that it was read from. Witness: induction on the text with any
characters of the current run.
-/
theorem mem_runsFrom {current text word : Text} (member : word ∈ runsFrom isSpace current text)
    (unspaced : ∀ c ∈ current, isSpace c = false)
    : word ≠ [] ∧ (∀ c ∈ word, isSpace c = false) ∧ Stands word (current.reverse ++ text) := by
  have whole {current rest : Text} (outside : ∀ c ∈ current, isSpace c = false)
      (nonempty : current ≠ []) (right : ∀ c ∈ rest.head?, isSpace c = true)
      : current.reverse ≠ [] ∧ (∀ c ∈ current.reverse, isSpace c = false)
        ∧ Stands current.reverse (current.reverse ++ rest) :=
    ⟨by simpa using nonempty, fun c member => outside c (List.mem_reverse.mp member),
      [], rest, rfl, by simp, right⟩
  induction text generalizing current with
  | nil =>
      by_cases empty : current = []
      · simp [runsFrom, empty] at member
      · obtain rfl : word = current.reverse := by simpa [runsFrom, empty] using member
        exact whole unspaced empty (by simp)
  | cons c rest ih =>
      by_cases space : isSpace c = true
      · have behind (later : word ∈ runsFrom isSpace [] rest)
            : word ≠ [] ∧ (∀ c ∈ word, isSpace c = false)
              ∧ Stands word (current.reverse ++ c :: rest) := by
          obtain ⟨nonempty, outside, stands⟩ := ih later (by simp)
          exact ⟨nonempty, outside, stands.prepend space current.reverse⟩
        by_cases empty : current = []
        · exact behind (by simpa [runsFrom, space, empty] using member)
        · have cases : word = current.reverse ∨ word ∈ runsFrom isSpace [] rest := by
            simpa [runsFrom, space, empty] using member
          rcases cases with rfl | later
          · exact whole unspaced empty (by simpa using space)
          · exact behind later
      · have outside : isSpace c = false := by simpa using space
        rw [runsFrom, if_neg space] at member
        have found := ih member (List.forall_mem_cons.mpr ⟨outside, unspaced⟩)
        simpa using found

/-- The words of a text are the texts without white space that stand in it. -/
theorem mem_words_iff {word text : Text}
    : word ∈ words text
      ↔ word ≠ [] ∧ (∀ c ∈ word, isSpace c = false) ∧ Stands word text := by
  constructor
  · intro member
    simpa using mem_runsFrom member (by simp)
  · rintro ⟨nonempty, unspaced, before, behind, rfl, left, right⟩
    have start : word ∈ words (word ++ behind) := by
      cases behind with
      | nil => rw [List.append_nil, words_single nonempty unspaced, List.mem_singleton]
      | cons c behind =>
          rw [words_append (right c rfl), words_single nonempty unspaced]
          exact List.mem_append_left _ List.mem_cons_self
    rcases List.eq_nil_or_concat before with rfl | ⟨front, c, rfl⟩
    · exact start
    · rw [List.concat_eq_append, List.append_assoc, List.singleton_append,
        words_append (left c (by simp))]
      exact List.mem_append_right _ start

theorem isInfix_of_mem_words {word text : Text} (member : word ∈ words text) : word <:+: text := by
  obtain ⟨-, -, before, behind, rfl, -⟩ := mem_words_iff.mp member
  exact ⟨before, behind, by simp⟩

/-- Text without white space lies in one word. -/
theorem exists_word_of_isInfix {part text : Text} (nonempty : part ≠ [])
    (unspaced : ∀ c ∈ part, isSpace c = false) (inside : part <:+: text)
    : ∃ word ∈ words text, part <:+: word := by
  obtain ⟨before, behind, rfl⟩ := inside
  obtain ⟨tail, shape, joined⟩ := exists_dropEndWhile (!isSpace ·) before
  have rest := @List.takeWhile_append_dropWhile _ (!isSpace ·) behind
  refine ⟨tail ++ part ++ behind.takeWhile (!isSpace ·), ?_, tail, _, rfl⟩
  rw [mem_words_iff]
  refine ⟨by simp [nonempty], ?_, dropEndWhile (!isSpace ·) before,
    behind.dropWhile (!isSpace ·), ?_, ?_, ?_⟩
  · intro c member
    rw [List.mem_append, List.mem_append] at member
    rcases member with (member | member) | member
    · simpa using joined c member
    · exact unspaced c member
    · simpa using List.mem_takeWhile_imp member
  · conv_lhs => rw [shape, ← rest]
    simp
  · intro c last
    have first : (before.reverse.dropWhile (!isSpace ·)).head? = some c := by
      rw [← List.getLast?_reverse]
      exact last
    simpa using head?_dropWhile first
  · intro c first
    simpa using head?_dropWhile first

--------------------------------------------------------------------------------
-- Removing text at the ends
--------------------------------------------------------------------------------

/-- A nonempty end of a text ends as the text does. -/
theorem getLast?_of_isSuffix {tail text : Text} {c : Char} (suffix : tail <:+ text)
    (last : tail.getLast? = some c)
    : text.getLast? = some c := by
  obtain ⟨front, rfl⟩ := suffix
  rw [List.getLast?_append, last]
  rfl

/-- A word stays when characters that it does not hold are removed in front. -/
theorem mem_words_of_append_left {word front rest : Text} (member : word ∈ words (front ++ rest))
    (absent : ∀ c ∈ front, c ∉ word)
    : word ∈ words rest := by
  obtain ⟨nonempty, unspaced, before, behind, whole, left, right⟩ := mem_words_iff.mp member
  refine mem_words_iff.mpr ⟨nonempty, unspaced, ?_⟩
  rcases List.append_eq_append_iff.mp whole with ⟨more, rfl, rfl⟩ | ⟨more, rfl, shape⟩
  · refine ⟨more, behind, rfl, fun c last => ?_, right⟩
    exact left c (getLast?_of_isSuffix (List.suffix_append front more) last)
  · obtain ⟨c, word, rfl⟩ := List.exists_cons_of_ne_nil nonempty
    cases more with
    | nil => exact ⟨[], behind, by simpa using shape.symm, by simp, right⟩
    | cons d more =>
        obtain ⟨rfl, -⟩ : c = d ∧ word ++ behind = more ++ rest := by simpa using shape
        exact absurd List.mem_cons_self (absent c (by simp))

/-- A word stays when characters that it does not hold are removed at the end. -/
theorem mem_words_of_append_right {word front rest : Text} (member : word ∈ words (front ++ rest))
    (absent : ∀ c ∈ rest, c ∉ word)
    : word ∈ words front := by
  obtain ⟨nonempty, unspaced, before, behind, whole, left, right⟩ := mem_words_iff.mp member
  refine mem_words_iff.mpr ⟨nonempty, unspaced, ?_⟩
  rw [← List.append_assoc] at whole
  rcases List.append_eq_append_iff.mp whole with ⟨more, shape, rfl⟩ | ⟨more, rfl, rfl⟩
  · rcases List.eq_nil_or_concat more with rfl | ⟨later, c, rfl⟩
    · exact ⟨before, [], by simpa using shape.symm, left, by simp⟩
    · obtain ⟨earlier, d, rfl⟩ := (List.eq_nil_or_concat word).resolve_left nonempty
      have last := congrArg List.getLast? shape
      obtain rfl : d = c := by simpa using last
      exact absurd (by simp) (absent d (by simp))
  · refine ⟨before, more, by simp, left, fun c first => right c ?_⟩
    rw [List.head?_append, first]
    rfl

/-- A word stays when a text without white space is removed in front that starts differently. -/
theorem mem_words_of_unspaced_left {word front rest : Text} {c : Char}
    (member : word ∈ words (c :: front ++ rest))
    (joined : ∀ d ∈ c :: front, isSpace d = false) (absent : c ∉ word)
    : word ∈ words rest := by
  obtain ⟨nonempty, unspaced, before, behind, whole, left, right⟩ := mem_words_iff.mp member
  refine mem_words_iff.mpr ⟨nonempty, unspaced, ?_⟩
  rcases List.append_eq_append_iff.mp whole with ⟨more, rfl, rfl⟩ | ⟨more, shape, -⟩
  · refine ⟨more, behind, rfl, fun d last => ?_, right⟩
    exact left d (getLast?_of_isSuffix (List.suffix_append _ more) last)
  · rcases List.eq_nil_or_concat before with rfl | ⟨earlier, d, rfl⟩
    · obtain ⟨d, word, rfl⟩ := List.exists_cons_of_ne_nil nonempty
      obtain ⟨rfl, -⟩ : c = d ∧ front ++ rest = word ++ behind := by simpa using whole
      exact absurd List.mem_cons_self absent
    · have space := left d (by simp)
      have outside := joined d (by rw [shape]; simp)
      exact absurd (space.symm.trans outside) (by decide)

theorem mem_words_after? {word tag text behind : Text} {c : Char}
    (found : after? (c :: tag) text = some behind) (member : word ∈ words text)
    (joined : ∀ d ∈ c :: tag, isSpace d = false) (absent : c ∉ word)
    : word ∈ words behind := by
  rw [after?_eq_some_iff.mp found] at member
  exact mem_words_of_unspaced_left member joined absent

/-- A word that lacks a character stands on either side of it. -/
theorem mem_words_of_split {word front rest : Text} {c : Char}
    (member : word ∈ words (front ++ c :: rest)) (absent : c ∉ word)
    : word ∈ words front ∨ word ∈ words (c :: rest) := by
  obtain ⟨nonempty, unspaced, before, behind, whole, left, right⟩ := mem_words_iff.mp member
  rw [mem_words_iff, mem_words_iff]
  rcases List.append_eq_append_iff.mp whole with ⟨more, rfl, shape⟩ | ⟨more, rfl, shape⟩
  · refine .inr ⟨nonempty, unspaced, more, behind, shape, fun d last => ?_, right⟩
    exact left d (getLast?_of_isSuffix (List.suffix_append front more) last)
  · refine .inl ⟨nonempty, unspaced, ?_⟩
    rcases List.append_eq_append_iff.mp shape with ⟨later, rfl, rfl⟩ | ⟨later, rfl, rest⟩
    · refine ⟨before, later, rfl, left, fun d first => right d ?_⟩
      rw [List.head?_append, first]
      rfl
    · cases later with
      | nil => exact ⟨before, [], by simp, left, by simp⟩
      | cons d later =>
          obtain ⟨rfl, -⟩ := List.cons.inj rest
          exact absurd (by simp) absent

/-- A word is the first one of the text or stands behind it. -/
theorem mem_words_first {word text : Text} (member : word ∈ words text)
    : word = text.takeWhile (!isSpace ·) ∨ word ∈ words (text.dropWhile (!isSpace ·)) := by
  obtain ⟨nonempty, unspaced, before, behind, whole, left, right⟩ := mem_words_iff.mp member
  have joined : ∀ c ∈ word, (!isSpace c) = true := by
    intro c inside
    simp [unspaced c inside]
  rcases List.eq_nil_or_concat before with rfl | ⟨front, c, rfl⟩
  · refine .inl ?_
    rw [whole, List.nil_append, takeWhile_run joined]
    intro c first
    simp [right c first]
  · refine .inr ?_
    have space := left c (by simp)
    have shape : text = front ++ c :: (word ++ behind) := by simpa using whole
    have inner : word ∈ words (word ++ behind) :=
      mem_words_iff.mpr ⟨nonempty, unspaced, [], behind, rfl, by simp, right⟩
    rw [shape, dropWhile_append_stop (by simp [space]), words_append space]
    exact List.mem_append_right _ inner

/-- A word starts the text or stands behind its first character. -/
theorem mem_words_cons {word rest : Text} {c : Char} (member : word ∈ words (c :: rest))
    : word <+: c :: rest ∨ word ∈ words rest := by
  obtain ⟨nonempty, unspaced, before, behind, whole, left, right⟩ := mem_words_iff.mp member
  cases before with
  | nil => exact .inl ⟨behind, by simpa using whole.symm⟩
  | cons d before =>
      obtain ⟨-, rfl⟩ : c = d ∧ rest = before ++ (word ++ behind) := by simpa using whole
      refine .inr (mem_words_iff.mpr ⟨nonempty, unspaced, before, behind, rfl, ?_, right⟩)
      intro e last
      exact left e (getLast?_of_isSuffix (List.suffix_cons d before) last)

theorem mem_words_dropWhile {word text : Text} {p : Char → Bool} (member : word ∈ words text)
    (absent : ∀ c ∈ word, p c = false)
    : word ∈ words (text.dropWhile p) := by
  rw [← @List.takeWhile_append_dropWhile _ p text] at member
  refine mem_words_of_append_left member fun c dropped inside => ?_
  exact absurd ((List.mem_takeWhile_imp dropped).symm.trans (absent c inside)) (by decide)

theorem mem_words_dropEndWhile {word text : Text} {p : Char → Bool} (member : word ∈ words text)
    (absent : ∀ c ∈ word, p c = false)
    : word ∈ words (dropEndWhile p text) := by
  obtain ⟨tail, shape, dropped⟩ := exists_dropEndWhile p text
  rw [shape] at member
  refine mem_words_of_append_right member fun c among inside => ?_
  exact absurd ((dropped c among).symm.trans (absent c inside)) (by decide)

theorem mem_words_trimBy {word text : Text} {p : Char → Bool} (member : word ∈ words text)
    (absent : ∀ c ∈ word, p c = false)
    : word ∈ words (trimBy p text) :=
  mem_words_dropEndWhile (mem_words_dropWhile member absent) absent

theorem unspaced_of_mem_words {word text : Text} (member : word ∈ words text)
    : ∀ c ∈ word, isSpace c = false :=
  (mem_words_iff.mp member).2.1

theorem ne_nil_of_mem_words {word text : Text} (member : word ∈ words text) : text ≠ [] := by
  rintro rfl
  simp at member

theorem mem_words_trim {word text : Text} (member : word ∈ words text)
    : word ∈ words (trim text) :=
  mem_words_trimBy member (unspaced_of_mem_words member)

theorem mem_words_trimEnd {word text : Text} (member : word ∈ words text)
    : word ∈ words (trimEnd text) :=
  mem_words_dropEndWhile member (unspaced_of_mem_words member)

--------------------------------------------------------------------------------
-- Parts of words
--------------------------------------------------------------------------------

/-- A part of a text stays when characters that it does not hold are removed in front. -/
theorem isInfix_of_append_left {part front rest : Text} (nonempty : part ≠ [])
    (inside : part <:+: front ++ rest) (absent : ∀ c ∈ front, c ∉ part)
    : part <:+: rest := by
  obtain ⟨c, more, rfl⟩ := List.exists_cons_of_ne_nil nonempty
  rcases List.infix_append_iff_ne_nil.mp inside
    with within | behind | ⟨left, right, some, -, shape, ends, -⟩
  · exact absurd List.mem_cons_self (absent c (within.subset List.mem_cons_self))
  · exact behind
  · obtain ⟨d, left, rfl⟩ := List.exists_cons_of_ne_nil some
    have among : d ∈ c :: more := by rw [shape]; simp
    exact absurd among (absent d (ends.subset List.mem_cons_self))

theorem isInfix_of_append_right {part front rest : Text} (nonempty : part ≠ [])
    (inside : part <:+: front ++ rest) (absent : ∀ c ∈ rest, c ∉ part)
    : part <:+: front := by
  have turned : part.reverse <:+: rest.reverse ++ front.reverse := by
    rw [← List.reverse_append]
    exact List.reverse_infix.mpr inside
  have kept := isInfix_of_append_left (by simpa using nonempty) turned (by simpa using absent)
  exact List.reverse_infix.mp kept

theorem isInfix_dropWhile {part text : Text} {p : Char → Bool} (nonempty : part ≠ [])
    (inside : part <:+: text) (absent : ∀ c ∈ part, p c = false)
    : part <:+: text.dropWhile p := by
  rw [← @List.takeWhile_append_dropWhile _ p text] at inside
  refine isInfix_of_append_left nonempty inside fun c dropped among => ?_
  exact absurd ((List.mem_takeWhile_imp dropped).symm.trans (absent c among)) (by decide)

theorem isInfix_dropEndWhile {part text : Text} {p : Char → Bool} (nonempty : part ≠ [])
    (inside : part <:+: text) (absent : ∀ c ∈ part, p c = false)
    : part <:+: dropEndWhile p text := by
  obtain ⟨tail, shape, dropped⟩ := exists_dropEndWhile p text
  rw [shape] at inside
  refine isInfix_of_append_right nonempty inside fun c among member => ?_
  exact absurd ((dropped c among).symm.trans (absent c member)) (by decide)

theorem isInfix_trimBy {part text : Text} {p : Char → Bool} (nonempty : part ≠ [])
    (inside : part <:+: text) (absent : ∀ c ∈ part, p c = false)
    : part <:+: trimBy p text :=
  isInfix_dropEndWhile nonempty (isInfix_dropWhile nonempty inside absent) absent

/-- Every part is a part of the joined text, by induction on the parts. -/
theorem isInfix_join {part separator : Text} {parts : List Text} (member : part ∈ parts)
    : part <:+: join separator parts := by
  induction parts with
  | nil => contradiction
  | cons first rest ih =>
      cases rest with
      | nil =>
          obtain rfl := List.mem_singleton.mp member
          exact List.infix_rfl
      | cons next rest =>
          rcases List.mem_cons.mp member with rfl | later
          · exact ⟨[], separator ++ join separator (next :: rest), by simp [join]⟩
          · exact (ih later).trans (List.suffix_append _ _).isInfix

theorem isInfix_flatMap {α : Type} {f : α → Text} {item : α} {items : List α}
    (member : item ∈ items)
    : f item <:+: items.flatMap f := by
  rw [List.flatMap_def]
  exact List.infix_of_mem_flatten (List.mem_map_of_mem member)

--------------------------------------------------------------------------------
-- Lines
--------------------------------------------------------------------------------

/-- Trimming lines removes blank ones only. -/
theorem mem_trimLines {blank : Text → Bool} {parts : List Text} {line : Text}
    (member : line ∈ parts) (shown : blank line = false)
    : line ∈ Text.trimLines blank parts := by
  rw [Text.trimLines, List.mem_reverse]
  exact mem_dropWhile (List.mem_reverse.mpr (mem_dropWhile member shown)) shown

/-- The lines between some line breaks, with `\r\n` as one break; `final` is what the end of the
text adds. -/
def linesAt (isBreak : Char → Bool) (final : List Text) : Text → List Text
  | [] => final
  | '\r' :: '\n' :: rest => [] :: linesAt isBreak final rest
  | c :: rest =>
    if isBreak c then [] :: linesAt isBreak final rest
    else consFirst c (linesAt isBreak final rest)

theorem sourceLines_eq_linesAt (text : Text)
    : sourceLines text = linesAt (fun c => c = '\r' || c = '\n') [[]] text := by
  fun_induction sourceLines text <;> simp_all [linesAt]

theorem unicodeLines_eq_linesAt (text : Text)
    : unicodeLines text = linesAt isLineBoundary [] text := by
  fun_induction unicodeLines text <;> simp_all [linesAt]

/-- The words of a text are those of its lines. Witness: induction along the splitting with any
characters of the current word, which the first line continues.
-/
theorem words_linesAt {isBreak : Char → Bool} {final : List Text}
    (breaks : ∀ c, isBreak c = true → isSpace c = true) (ending : final = [] ∨ final = [[]])
    (text : Text)
    : words text = (linesAt isBreak final text).flatMap words := by
  have recombined (parts : List Text)
      : runsFrom isSpace [] (parts.headD []) ++ parts.tail.flatMap words
        = parts.flatMap words := by
    cases parts with
    | nil => rfl
    | cons part parts => rfl
  suffices general : ∀ current, runsFrom isSpace current text
      = runsFrom isSpace current ((linesAt isBreak final text).headD [])
        ++ (linesAt isBreak final text).tail.flatMap words by
    rw [words, general, recombined]
  have broken {c : Char} {rest : Text} (space : isSpace c = true)
      (ih : ∀ current, runsFrom isSpace current rest
        = runsFrom isSpace current ((linesAt isBreak final rest).headD [])
          ++ (linesAt isBreak final rest).tail.flatMap words)
      (current : Text)
      : runsFrom isSpace current (c :: rest)
        = runsFrom isSpace current [] ++ (linesAt isBreak final rest).flatMap words := by
    rw [← List.nil_append (c :: rest), runsFrom_append space, ih, recombined]
  fun_induction linesAt isBreak final text with
  | case1 => rcases ending with rfl | rfl <;> simp
  | case2 rest ih =>
      intro current
      have first : runsFrom isSpace current ('\r' :: '\n' :: rest)
          = runsFrom isSpace current [] ++ words ('\n' :: rest) :=
        runsFrom_append (by decide) current [] _
      rw [first, words_cons (by decide), words, ih, recombined]
      rfl
  | case3 c rest _ here ih => exact broken (breaks c here) ih
  | case4 c rest _ here ih =>
      intro current
      have first (parts : List Text) : (consFirst c parts).headD [] = c :: parts.headD [] := by
        cases parts <;> rfl
      have more (parts : List Text) : (consFirst c parts).tail = parts.tail := by
        cases parts <;> rfl
      rw [first, more]
      by_cases space : isSpace c = true
      · have split (later : Text)
            : runsFrom isSpace current (c :: later)
              = runsFrom isSpace current [] ++ runsFrom isSpace [] later :=
          runsFrom_append space current [] later
        rw [split, split, ih, List.append_assoc]
      · have next (later : Text)
            : runsFrom isSpace current (c :: later) = runsFrom isSpace (c :: current) later := by
          rw [runsFrom, if_neg space]
        rw [next, next, ih]

theorem isSpace_of_isLineBoundary {c : Char} (boundary : isLineBoundary c = true)
    : isSpace c = true := by
  simp only [isLineBoundary, Bool.or_eq_true, Bool.and_eq_true, decide_eq_true_eq] at boundary
  simp only [isSpace, Bool.or_eq_true, Bool.and_eq_true, decide_eq_true_eq]
  omega

theorem words_sourceLines (text : Text) : words text = (sourceLines text).flatMap words := by
  rw [sourceLines_eq_linesAt]
  refine words_linesAt (fun c here => ?_) (.inr rfl) text
  simp only [Bool.or_eq_true, decide_eq_true_eq] at here
  rcases here with rfl | rfl <;> decide

theorem words_unicodeLines (text : Text) : words text = (unicodeLines text).flatMap words := by
  rw [unicodeLines_eq_linesAt]
  exact words_linesAt (fun c here => isSpace_of_isLineBoundary here) (.inl rfl) text

/-- White space between parts keeps their words, by induction on the parts. -/
theorem words_join {c : Char} (space : isSpace c = true) (parts : List Text)
    : words (join [c] parts) = parts.flatMap words := by
  induction parts with
  | nil => rfl
  | cons part rest ih =>
      cases rest with
      | nil => simp [join]
      | cons next rest =>
          have shape : join [c] (part :: next :: rest) = part ++ c :: join [c] (next :: rest) := by
            simp [join]
          rw [shape, words_append space, ih]
          rfl

/-- Words joined by spaces are read back. -/
theorem words_unwords {parts : List Text}
    (each : ∀ part ∈ parts, part ≠ [] ∧ ∀ c ∈ part, isSpace c = false)
    : words (unwords parts) = parts := by
  rw [unwords, words_join (by decide)]
  induction parts with
  | nil => rfl
  | cons part parts ih =>
      obtain ⟨here, behind⟩ := List.forall_mem_cons.mp each
      rw [List.flatMap_cons, words_single here.1 here.2, ih behind, List.singleton_append]

--------------------------------------------------------------------------------
-- White space at the end and the last word
--------------------------------------------------------------------------------

theorem words_append_spaces {behind : Text} (spaces : ∀ c ∈ behind, isSpace c = true)
    (text : Text)
    : words (text ++ behind) = words text := by
  cases behind with
  | nil => rw [List.append_nil]
  | cons c behind =>
      obtain ⟨space, spaces⟩ := List.forall_mem_cons.mp spaces
      have none : words (behind ++ []) = words [] := runsFrom_skip spaces []
      rw [List.append_nil, words_nil] at none
      rw [words_append space, none, List.append_nil]

theorem words_trimBy {p : Char → Bool} (spaces : ∀ c, p c = true → isSpace c = true) (text : Text)
    : words (trimBy p text) = words text := by
  obtain ⟨before, behind, shape, left, right⟩ := exists_trimBy p text
  have leftSpaces : ∀ c ∈ before, isSpace c = true := fun c member => spaces c (left c member)
  have rightSpaces : ∀ c ∈ behind, isSpace c = true := fun c member => spaces c (right c member)
  calc words (trimBy p text)
    _ = words (trimBy p text ++ behind) := (words_append_spaces rightSpaces _).symm
    _ = words (before ++ (trimBy p text ++ behind)) := (runsFrom_skip leftSpaces _).symm
    _ = words text := by rw [← shape]

theorem words_trim (text : Text) : words (trim text) = words text :=
  words_trimBy (fun _ space => space) text

/-- A text that ends with a word has it as its last word. -/
theorem getLast?_words {before word : Text} (apart : ∀ c ∈ before.getLast?, isSpace c = true)
    (nonempty : word ≠ []) (unspaced : ∀ c ∈ word, isSpace c = false)
    : (words (before ++ word)).getLast? = some word := by
  have single := words_single nonempty unspaced
  rcases List.eq_nil_or_concat before with rfl | ⟨earlier, c, rfl⟩
  · simp [single]
  · have space := apart c (by simp)
    rw [List.concat_eq_append, List.append_assoc, List.singleton_append, words_append space, single]
    simp

/-- Only white space stands behind the last word. Witness: that is the last run outside white space
of the text without white space at its end.
-/
theorem exists_last_word {text word : Text} (last : (words text).getLast? = some word)
    : ∃ before space, text = before ++ (word ++ space) ∧ ∀ c ∈ space, isSpace c = true := by
  obtain ⟨space, shape, spaces⟩ := exists_dropEndWhile isSpace text
  obtain ⟨run, split, unspaced⟩ := exists_dropEndWhile (!isSpace ·) (dropEndWhile isSpace text)
  have outside : ∀ c ∈ run, isSpace c = false := by simpa using unspaced
  have apart : ∀ c ∈ (dropEndWhile (!isSpace ·) (dropEndWhile isSpace text)).getLast?,
      isSpace c = true := fun c ends => by simpa using getLast?_dropEndWhile ends
  rw [shape, words_append_spaces spaces] at last
  have nonempty : run ≠ [] := by
    rintro rfl
    rw [List.append_nil] at split
    rw [← split] at apart
    cases ending : (dropEndWhile isSpace text).getLast? with
    | none => simp [List.getLast?_eq_none_iff.mp ending, words_nil] at last
    | some c =>
        have other := apart c ending
        simp [getLast?_dropEndWhile ending] at other
  have own := getLast?_words apart nonempty outside
  rw [← split, last, Option.some_inj] at own
  exact ⟨_, space, by rw [own, ← List.append_assoc, ← split, ← shape], spaces⟩

/-- A character behind a text goes on its last word, or is a word of its own behind white space. -/
theorem exists_words_concat {c : Char} (outside : isSpace c = false) (text : Text)
    : ∃ earlier word,
        words text = earlier ++ (if word = [] then [] else [word])
        ∧ words (text ++ [c]) = earlier ++ [word ++ [c]] := by
  obtain ⟨run, shape, unspaced⟩ := exists_dropEndWhile (!isSpace ·) text
  have split {run : Text} (joined : ∀ d ∈ run, isSpace d = false)
      : words (dropEndWhile (!isSpace ·) text ++ run)
        = words (dropEndWhile (!isSpace ·) text) ++ (if run = [] then [] else [run]) := by
    have single : words run = if run = [] then [] else [run] := runsFrom_run joined []
    rcases List.eq_nil_or_concat (dropEndWhile (!isSpace ·) text)
      with none | ⟨front, d, shape⟩
    · rw [none, List.nil_append, words_nil, List.nil_append, single]
    · have space : isSpace d = true := by
        have last : (dropEndWhile (!isSpace ·) text).getLast? = some d := by
          rw [shape]
          simp
        simpa using getLast?_dropEndWhile last
      rw [shape, List.concat_eq_append, List.append_assoc, List.singleton_append,
        words_append space, words_append space, words_nil, List.append_nil, single]
  have joined : ∀ d ∈ run, isSpace d = false := fun d member => by simpa using unspaced d member
  refine ⟨words (dropEndWhile (!isSpace ·) text), run, ?_, ?_⟩
  · rw [← split joined, ← shape]
  · have longer : ∀ d ∈ run ++ [c], isSpace d = false :=
      List.forall_mem_append.mpr ⟨joined, by simpa using outside⟩
    have whole := split longer
    rwa [← List.append_assoc, ← shape, if_neg (by simp)] at whole

/-- The words of a text hold its characters other than white space, by induction from its end. -/
theorem flatten_words (text : Text) : (words text).flatten = withoutSpace text := by
  induction text using List.reverseRecOn with
  | nil => rfl
  | append_singleton text c ih =>
      by_cases space : isSpace c = true
      · rw [words_append_spaces (by simpa using space), ih]
        simp [withoutSpace, space]
      · obtain ⟨earlier, word, before, after⟩ := exists_words_concat (by simpa using space) text
        have joined : (words text).flatten = earlier.flatten ++ word := by
          rw [before]
          by_cases none : word = [] <;> simp [none]
        have kept : withoutSpace (text ++ [c]) = withoutSpace text ++ [c] := by
          simp [withoutSpace, space]
        rw [after, kept, ← ih, joined]
        simp

end DocBlock.Text
