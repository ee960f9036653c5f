import DocBlock.Text.Lines
import DocBlock.Proofs.Text.Runs
import Mathlib.Data.List.Infix

/-! Splitting into lines and joining lines. A line feed splits a text wherever it stands, unless a
carriage return before it belongs to the same break.
-/

namespace DocBlock.Text

theorem consFirst_ne_nil (c : Char) (parts : List Text) : consFirst c parts ≠ [] := by
  cases parts <;> simp [consFirst]

theorem consFirst_append (c : Char) {parts : List Text} (nonempty : parts ≠ []) (more : List Text)
    : consFirst c (parts ++ more) = consFirst c parts ++ more := by
  cases parts with
  | nil => contradiction
  | cons part rest => rfl

@[simp]
theorem sourceLines_feed (rest : Text) : sourceLines ('\n' :: rest) = [] :: sourceLines rest := by
  simp [sourceLines]

theorem sourceLines_cons {c : Char} (inner : c ≠ '\r' ∧ c ≠ '\n') (rest : Text)
    : sourceLines (c :: rest) = consFirst c (sourceLines rest) := by
  rw [sourceLines]
  · simp [inner]
  · intro later same
    exact fun _ => inner.1 same

theorem sourceLines_ne_nil (text : Text) : sourceLines text ≠ [] := by
  fun_cases sourceLines text with
  | case4 => exact consFirst_ne_nil _ _
  | _ => simp

/-- A text without line breaks is one line, by induction on the text. -/
theorem sourceLines_single {text : Text} (inner : ∀ c ∈ text, c ≠ '\r' ∧ c ≠ '\n')
    : sourceLines text = [text] := by
  induction text with
  | nil => rfl
  | cons c rest ih =>
      rw [List.forall_mem_cons] at inner
      rw [sourceLines_cons inner.1, ih inner.2, consFirst]

/-- A line feed splits a text without carriage returns in front of it, by induction on that
text. -/
theorem sourceLines_append_feed {front : Text} (plain : '\r' ∉ front) (rest : Text)
    : sourceLines (front ++ '\n' :: rest) = sourceLines front ++ sourceLines rest := by
  induction front with
  | nil => simp [sourceLines]
  | cons c front ih =>
      rw [List.mem_cons, not_or] at plain
      by_cases feed : c = '\n'
      · subst feed
        simp [ih plain.2]
      · have inner : c ≠ '\r' ∧ c ≠ '\n' := ⟨Ne.symm plain.1, feed⟩
        rw [List.cons_append, sourceLines_cons inner, ih plain.2, sourceLines_cons inner,
          consFirst_append c (sourceLines_ne_nil front)]

/-- Every line is a part of the text. Witness: induction along the splitting; the first line is
even a front of the text, so a character before it keeps it in one piece.
-/
theorem sourceLines_isInfix {text line : Text} (member : line ∈ sourceLines text)
    : line <:+: text := by
  suffices shape : ∃ first more,
      sourceLines text = first :: more ∧ first <+: text ∧ ∀ line ∈ more, line <:+: text by
    obtain ⟨first, more, split, start, inside⟩ := shape
    rw [split, List.mem_cons] at member
    rcases member with rfl | member
    · exact start.isInfix
    · exact inside line member
  clear member
  fun_induction sourceLines text with
  | case1 => exact ⟨[], [], rfl, List.prefix_rfl, by simp⟩
  | case2 rest ih =>
      obtain ⟨first, more, split, start, inside⟩ := ih
      refine ⟨[], first :: more, by rw [split], List.nil_prefix, ?_⟩
      rw [List.forall_mem_cons]
      have wider {part : Text} (within : part <:+: rest) : part <:+: '\r' :: '\n' :: rest :=
        within.trans (List.suffix_append ['\r', '\n'] rest).isInfix
      exact ⟨wider start.isInfix, fun line member => wider (inside line member)⟩
  | case3 c rest _ _ ih =>
      obtain ⟨first, more, split, start, inside⟩ := ih
      refine ⟨[], first :: more, by rw [split], List.nil_prefix, ?_⟩
      rw [List.forall_mem_cons]
      have wider {part : Text} (within : part <:+: rest) : part <:+: c :: rest :=
        within.trans (List.suffix_cons c rest).isInfix
      exact ⟨wider start.isInfix, fun line member => wider (inside line member)⟩
  | case4 c rest _ _ ih =>
      obtain ⟨first, more, split, start, inside⟩ := ih
      refine ⟨c :: first, more, by rw [split, consFirst], List.cons_prefix_cons.mpr ⟨rfl, start⟩,
        fun line member => (inside line member).trans (List.suffix_cons c rest).isInfix⟩

/-- No line holds a line break, by induction along the splitting. -/
theorem inner_of_mem_sourceLines {text line : Text} (member : line ∈ sourceLines text)
    : ∀ c ∈ line, c ≠ '\r' ∧ c ≠ '\n' := by
  fun_induction sourceLines text generalizing line with
  | case1 =>
      rw [List.mem_singleton.mp member]
      simp
  | case2 rest ih =>
      rcases List.mem_cons.mp member with rfl | later
      · simp
      · exact ih later
  | case3 c rest _ _ ih =>
      rcases List.mem_cons.mp member with rfl | later
      · simp
      · exact ih later
  | case4 c rest _ inner ih =>
      obtain ⟨first, more, split⟩ := List.exists_cons_of_ne_nil (sourceLines_ne_nil rest)
      rw [split] at ih member
      rcases List.mem_cons.mp member with rfl | later
      · rw [List.forall_mem_cons]
        exact ⟨by simpa using inner, ih List.mem_cons_self⟩
      · exact ih (List.mem_cons_of_mem _ later)

@[simp]
theorem lines_feed (rest : Text) : lines ('\n' :: rest) = [] :: lines rest := by
  simp [lines, splitOn]

theorem lines_cons {c : Char} (inner : c ≠ '\n') (rest : Text)
    : lines (c :: rest) = consFirst c (lines rest) := by
  simp [lines, splitOn, inner]

theorem lines_ne_nil (text : Text) : lines text ≠ [] := by
  cases text with
  | nil => simp [lines, splitOn]
  | cons c rest =>
      by_cases feed : c = '\n'
      · simp [feed]
      · rw [lines_cons feed]
        exact consFirst_ne_nil _ _

/-- No line holds a line feed, by induction on the text. -/
theorem unbroken_of_mem_lines {text line : Text} (member : line ∈ lines text) : '\n' ∉ line := by
  induction text generalizing line with
  | nil =>
      obtain rfl : line = [] := by simpa [lines, splitOn] using member
      simp
  | cons c rest ih =>
      obtain ⟨first, more, split⟩ := List.exists_cons_of_ne_nil (lines_ne_nil rest)
      rw [split] at ih
      by_cases feed : c = '\n'
      · rw [feed, lines_feed, split] at member
        rcases List.mem_cons.mp member with rfl | later
        · simp
        · exact ih later
      · rw [lines_cons feed, split, consFirst] at member
        rcases List.mem_cons.mp member with rfl | later
        · simpa [Ne.symm feed] using ih List.mem_cons_self
        · exact ih (List.mem_cons_of_mem first later)

/-- Joining the lines of a text gives it back, by induction on the text. -/
theorem unlines_lines (text : Text) : unlines (lines text) = text := by
  induction text with
  | nil => rfl
  | cons c rest ih =>
      obtain ⟨first, more, split⟩ := List.exists_cons_of_ne_nil (lines_ne_nil rest)
      by_cases feed : c = '\n'
      · subst feed
        rw [split] at ih
        rw [lines_feed, split, unlines, join, ← unlines, ih]
        · simp
        · simp
      · rw [split] at ih
        rw [lines_cons feed, split, consFirst]
        cases more with
        | nil => simpa [unlines, join] using ih
        | cons next more => simpa [unlines, join] using ih

/-- Joining two groups of lines puts a line feed between them, by induction on the first. -/
theorem unlines_append {parts more : List Text} (first : parts ≠ []) (second : more ≠ [])
    : unlines (parts ++ more) = unlines parts ++ '\n' :: unlines more := by
  induction parts with
  | nil => contradiction
  | cons part rest ih =>
      cases rest with
      | nil =>
          obtain ⟨next, later, rfl⟩ := List.exists_cons_of_ne_nil second
          simp [unlines, join]
      | cons next rest =>
          have later := ih (by simp)
          simp only [unlines, List.cons_append] at later
          simp [unlines, join, later]

/-- Joined lines start as the first line does. -/
theorem head?_unlines {first : Text} (nonempty : first ≠ []) (rest : List Text)
    : (unlines (first :: rest)).head? = first.head? := by
  obtain ⟨c, later, rfl⟩ := List.exists_cons_of_ne_nil nonempty
  cases rest <;> simp [unlines, join]

/-- Joined lines end as the last line does. -/
theorem getLast?_unlines {last : Text} (nonempty : last ≠ []) (front : List Text)
    : (unlines (front ++ [last])).getLast? = last.getLast? := by
  cases front with
  | nil => rfl
  | cons first front =>
      obtain ⟨earlier, c, rfl⟩ := (List.eq_nil_or_concat last).resolve_left nonempty
      rw [unlines_append (by simp) (by simp)]
      simp [unlines, join, List.getLast?_cons]

/-- A text without line feeds is one line, by induction on the text. -/
theorem lines_single {text : Text} (unbroken : '\n' ∉ text) : lines text = [text] := by
  induction text with
  | nil => rfl
  | cons c rest ih =>
      rw [List.mem_cons, not_or] at unbroken
      rw [lines_cons (Ne.symm unbroken.1), ih unbroken.2, consFirst]

/-- A line ends at its line feed, by induction on the line. -/
theorem lines_append_feed {line : Text} (unbroken : '\n' ∉ line) (rest : Text)
    : lines (line ++ '\n' :: rest) = line :: lines rest := by
  induction line with
  | nil => simp
  | cons c line ih =>
      rw [List.mem_cons, not_or] at unbroken
      rw [List.cons_append, lines_cons (Ne.symm unbroken.1), ih unbroken.2, consFirst]

/-- Text without line feeds in front belongs to the first line, by induction on that text. -/
theorem exists_lines_append {front : Text} (unbroken : '\n' ∉ front) (rest : Text)
    : ∃ first more,
        lines rest = first :: more
        ∧ lines (front ++ rest) = (front ++ first) :: more := by
  obtain ⟨first, more, split⟩ := List.exists_cons_of_ne_nil (lines_ne_nil rest)
  refine ⟨first, more, split, ?_⟩
  induction front with
  | nil => exact split
  | cons c front ih =>
      rw [List.mem_cons, not_or] at unbroken
      rw [List.cons_append, lines_cons (Ne.symm unbroken.1), ih unbroken.2, consFirst,
        List.cons_append]

/-- Joined lines are split again, by induction on the lines. -/
theorem lines_unlines {parts : List Text} (nonempty : parts ≠ [])
    (unbroken : ∀ part ∈ parts, '\n' ∉ part)
    : lines (unlines parts) = parts := by
  induction parts with
  | nil => contradiction
  | cons part rest ih =>
      rw [List.forall_mem_cons] at unbroken
      cases rest with
      | nil => exact lines_single unbroken.1
      | cons next rest =>
          have later := ih (by simp) unbroken.2
          have whole : unlines (part :: next :: rest) = part ++ '\n' :: unlines (next :: rest) := by
            simp [unlines, join]
          rw [whole, lines_append_feed unbroken.1, later]

/-- Joined parts hold the characters of the parts and of the separator, by induction on the
parts. -/
theorem mem_join {separator : Text} {parts : List Text} {c : Char}
    (member : c ∈ join separator parts)
    : c ∈ separator ∨ ∃ part ∈ parts, c ∈ part := by
  induction parts with
  | nil => simp [join] at member
  | cons part rest ih =>
      cases rest with
      | nil => exact .inr ⟨part, List.mem_cons_self, by simpa [join] using member⟩
      | cons next rest =>
          have shape : join separator (part :: next :: rest)
              = part ++ (separator ++ join separator (next :: rest)) := by
            simp [join]
          rw [shape, List.mem_append, List.mem_append] at member
          rcases member with inside | between | later
          · exact .inr ⟨part, List.mem_cons_self, inside⟩
          · exact .inl between
          · rcases ih later with between | ⟨line, among, inside⟩
            · exact .inl between
            · exact .inr ⟨line, List.mem_cons_of_mem part among, inside⟩

/-- Joined lines hold the characters of the lines and line feeds. -/
theorem mem_unlines {parts : List Text} {c : Char} (member : c ∈ unlines parts)
    : c = '\n' ∨ ∃ part ∈ parts, c ∈ part := by
  rcases mem_join member with feed | inside
  · exact .inl (List.mem_singleton.mp feed)
  · exact .inr inside

/-- No Unicode line holds a line boundary, by induction along the splitting. -/
theorem inner_of_mem_unicodeLines {text line : Text} (member : line ∈ unicodeLines text)
    : ∀ c ∈ line, isLineBoundary c = false := by
  fun_induction unicodeLines text generalizing line with
  | case1 => contradiction
  | case2 rest ih =>
      rcases List.mem_cons.mp member with rfl | later
      · simp
      · exact ih later
  | case3 c rest _ _ ih =>
      rcases List.mem_cons.mp member with rfl | later
      · simp
      · exact ih later
  | case4 c rest _ inner ih =>
      have plain : isLineBoundary c = false := by simpa using inner
      cases split : unicodeLines rest with
      | nil =>
          rw [split, consFirst, List.mem_singleton] at member
          simpa [member] using plain
      | cons first more =>
          rw [split] at ih member
          rcases List.mem_cons.mp member with rfl | later
          · exact List.forall_mem_cons.mpr ⟨plain, ih List.mem_cons_self⟩
          · exact ih (List.mem_cons_of_mem first later)

/-- Where line feeds are the only boundaries, and none ends the text, the Unicode lines are the
lines between line feeds, by induction on the text. -/
theorem unicodeLines_eq_lines {text : Text}
    (feeds : ∀ c ∈ text, isLineBoundary c = true → c = '\n')
    (nonempty : text ≠ []) (last : text.getLast? ≠ some '\n')
    : unicodeLines text = lines text := by
  induction text with
  | nil => contradiction
  | cons c rest ih =>
      rw [List.forall_mem_cons] at feeds
      have carriage : c ≠ '\r' := by
        rintro rfl
        exact absurd (feeds.1 (by decide)) (by decide)
      have step : unicodeLines (c :: rest)
          = if isLineBoundary c then [] :: unicodeLines rest
            else consFirst c (unicodeLines rest) := by
        rw [unicodeLines]
        intro later same
        exact fun _ => carriage same
      cases rest with
      | nil =>
          have inner : c ≠ '\n' := by simpa using last
          have kept : isLineBoundary c = false := by
            simpa using fun boundary => inner (feeds.1 boundary)
          simp [step, kept, lines, splitOn, inner, unicodeLines]
          rfl
      | cons d rest =>
          have later := ih feeds.2 (by simp) (by simpa using last)
          by_cases feed : c = '\n'
          · subst feed
            rw [step, later, lines_feed]
            rfl
          · have kept : isLineBoundary c = false := by
              simpa using fun boundary => feed (feeds.1 boundary)
            rw [step, later, lines_cons feed, kept]
            rfl

/-- Without carriage returns there is nothing to normalise, by induction on the text. -/
theorem normaliseBreaks_of_not_mem {text : Text} (absent : '\r' ∉ text)
    : normaliseBreaks text = text := by
  induction text with
  | nil => rfl
  | cons c rest ih =>
      rw [List.mem_cons, not_or] at absent
      rw [normaliseBreaks, ih absent.2]
      rintro later rfl
      exact absurd rfl absent.1

end DocBlock.Text
