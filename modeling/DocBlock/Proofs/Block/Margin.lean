import DocBlock.Block.Render
import DocBlock.Proofs.Comment.Prose

/-! The margin of a block at an indentation of blanks. It is nothing but decoration to a reader, it
adds no comment end to the text behind it, and text behind it is read back line by line.
-/

namespace DocBlock.Block

open Comment (Closeless closeless_append_iff closeless_append_cons_iff)
open Documentation (Plain Hollow undecorated undecoratedLines)
open Text (isSpace isBlank)

namespace Margin

variable {style : Style} {indent : Text}

theorem space_ofStyle (style : Style) (indent : Text)
    : ∃ more, (ofStyle style indent).space = ' ' :: more ∧ ∀ c ∈ more, isBlank c = true := by
  unfold ofStyle
  dsimp only
  split
  · exact ⟨[' '], rfl, by simp [isBlank]⟩
  · exact ⟨[], rfl, by simp⟩

theorem lead_ofStyle (style : Style) (indent : Text)
    : ∃ front, (ofStyle style indent).lead = front ++ [' '] := by
  unfold lead ofStyle
  dsimp only
  split
  · exact ⟨indent ++ " * ".toList, by simp⟩
  · exact ⟨indent ++ " *".toList, by simp⟩

theorem decoration_ofStyle (blanks : ∀ c ∈ indent, isBlank c = true)
    : ∃ before, (ofStyle style indent).decoration = before ++ ['*']
        ∧ ∀ c ∈ before, isBlank c = true :=
  ⟨indent ++ [' '], by simp [ofStyle], List.forall_mem_append.mpr ⟨blanks, by simp [isBlank]⟩⟩

theorem hollow_decoration (blanks : ∀ c ∈ indent, isBlank c = true)
    : Hollow (ofStyle style indent).decoration := by
  obtain ⟨before, shape, wider⟩ := @decoration_ofStyle style indent blanks
  rw [shape]
  exact Hollow.starred wider (by simp)

theorem hollow_lead (blanks : ∀ c ∈ indent, isBlank c = true)
    : Hollow (ofStyle style indent).lead := by
  obtain ⟨before, shape, wider⟩ := @decoration_ofStyle style indent blanks
  obtain ⟨more, space, behind⟩ := space_ofStyle style indent
  have pad : ∀ c ∈ ' ' :: more, isBlank c = true := List.forall_mem_cons.mpr ⟨by decide, behind⟩
  rw [lead, shape, space, List.append_assoc, List.singleton_append]
  exact Hollow.starred wider pad

/-- Lines behind the decoration hold nothing but decoration and their text. -/
theorem mem_continueLines (blanks : ∀ c ∈ indent, isBlank c = true) {lines : List Text} {c : Char}
    (member : c ∈ (ofStyle style indent).continueLines lines)
    : isBlank c = true ∨ c = '*' ∨ c = '\n' ∨ ∃ line ∈ lines, c ∈ line := by
  have margin (inside : c ∈ (ofStyle style indent).lead)
      : isBlank c = true ∨ c = '*' ∨ c = '\n' :=
    (hollow_lead blanks).inner c inside
  have line {text : Text} (inside : c ∈ (ofStyle style indent).continuation text)
      : isBlank c = true ∨ c = '*' ∨ c = '\n' ∨ c ∈ text := by
    rw [lead, List.mem_append] at margin
    by_cases empty : text.isEmpty = true
    · simp only [continuation, empty, if_true, List.mem_cons] at inside
      grind
    · simp only [continuation, empty, Bool.false_eq_true, if_false, List.mem_cons,
        List.cons_append, List.mem_append] at inside
      grind
  cases lines with
  | nil => simp [continueLines] at member
  | cons first rest =>
      rw [continueLines, List.mem_append, List.mem_flatMap] at member
      rcases member with member | ⟨text, among, inside⟩
      · exact .inr (.inr (.inr ⟨first, List.mem_cons_self, member⟩))
      · rcases line inside with blank | star | feed | member
        · exact .inl blank
        · exact .inr (.inl star)
        · exact .inr (.inr (.inl feed))
        · exact .inr (.inr (.inr ⟨text, List.mem_cons_of_mem first among, member⟩))

/-- A further line has no comment end exactly if its text has none: a blank stands between the star
and the text. -/
theorem closeless_continuation_iff (blanks : ∀ c ∈ indent, isBlank c = true) {line : Text}
    : Closeless ((ofStyle style indent).continuation line) ↔ Closeless line := by
  have free : Closeless (ofStyle style indent).decoration :=
    Closeless.of_no_slash ((hollow_decoration blanks).not_mem (by decide))
  obtain ⟨more, space, behind⟩ := space_ofStyle style indent
  have pad : '*' ∉ more := fun star => absurd (behind _ star) (by decide)
  have feed (text : Text) : Closeless ('\n' :: text) ↔ Closeless text :=
    @Comment.closeless_append_of_no_star ['\n'] text (by decide)
  unfold continuation
  split
  · next empty =>
    obtain rfl : line = [] := by simpa using empty
    simpa using (feed _).mpr free
  · have last : more.getLast? ≠ some '*' := fun star => pad (List.mem_of_getLast? star)
    have shape : '\n' :: (ofStyle style indent).decoration ++ (ofStyle style indent).space ++ line
        = '\n' :: ((ofStyle style indent).decoration ++ ' ' :: (more ++ line)) := by
      simp [space]
    rw [shape, feed, closeless_append_cons_iff (by decide), closeless_append_iff]
    simp [free, Closeless.of_no_star pad, last]

theorem head?_continuations (margin : Margin) (lines : List Text)
    : (lines.flatMap margin.continuation).head? ≠ some '/' := by
  cases lines with
  | nil => simp
  | cons line rest =>
      by_cases empty : line.isEmpty = true <;> simp [continuation, empty]

/-- Lines behind the decoration have no comment end exactly if no line has one. -/
theorem closeless_continueLines_iff (blanks : ∀ c ∈ indent, isBlank c = true) {lines : List Text}
    : Closeless ((ofStyle style indent).continueLines lines)
      ↔ ∀ line ∈ lines, Closeless line := by
  have further (rest : List Text)
      : Closeless (rest.flatMap (ofStyle style indent).continuation)
        ↔ ∀ line ∈ rest, Closeless line := by
    induction rest with
    | nil => simp
    | cons line rest ih =>
        rw [List.flatMap_cons, closeless_append_iff, closeless_continuation_iff blanks, ih,
          List.forall_mem_cons]
        simp [head?_continuations]
  cases lines with
  | nil => simp [continueLines]
  | cons first rest =>
      rw [continueLines, closeless_append_iff, further, List.forall_mem_cons]
      simp [head?_continuations]

/-- A further line is read as a line of text from behind its decoration. -/
def ReadsAs (margin : Margin) (line text : Text) : Prop :=
  ∃ shown,
    margin.continuation line = '\n' :: shown
      ∧ (∀ c ∈ shown, c ≠ '\r' ∧ c ≠ '\n')
      ∧ Text.trimEnd (undecorated shown) = text

/-- Of the white space behind the star one blank is decoration; the rest is read as part of the
line. -/
theorem readsAs_line (blanks : ∀ c ∈ indent, isBlank c = true) {line more : Text}
    (space : (ofStyle style indent).space = ' ' :: more) (pad : ∀ c ∈ more, isBlank c = true)
    (nonempty : line ≠ []) (unbroken : ∀ c ∈ line, c ≠ '\r' ∧ c ≠ '\n')
    (last : ∀ c ∈ line.getLast?, isSpace c = false)
    : (ofStyle style indent).ReadsAs line (more ++ line) := by
  obtain ⟨before, shape, wider⟩ := @decoration_ofStyle style indent blanks
  have blankless {text : Text} (all : ∀ c ∈ text, isBlank c = true)
      : ∀ c ∈ text, c ≠ '\r' ∧ c ≠ '\n' := by
    intro c member
    constructor <;> (rintro rfl; exact absurd (all _ member) (by decide))
  refine ⟨before ++ '*' :: ' ' :: (more ++ line), ?_, ?_, ?_⟩
  · simp [continuation, shape, space, nonempty]
  · refine List.forall_mem_append.mpr ⟨blankless wider, ?_⟩
    refine List.forall_mem_cons.mpr ⟨by decide, List.forall_mem_cons.mpr ⟨by decide, ?_⟩⟩
    exact List.forall_mem_append.mpr ⟨blankless pad, unbroken⟩
  · rw [Documentation.undecorated_star_blank wider (by decide)]
    obtain ⟨c, final⟩ := Option.ne_none_iff_exists'.mp (mt List.getLast?_eq_none_iff.mp nonempty)
    have ends : (more ++ line).getLast? = some c := by
      rw [List.getLast?_append, final]
      rfl
    exact Text.dropEndWhile_of_last ends (last c final)

theorem readsAs_empty (blanks : ∀ c ∈ indent, isBlank c = true)
    : (ofStyle style indent).ReadsAs [] [] := by
  obtain ⟨before, shape, wider⟩ := @decoration_ofStyle style indent blanks
  refine ⟨before ++ ['*'], by simp [continuation, shape], ?_, ?_⟩
  · refine List.forall_mem_append.mpr ⟨fun c member => ?_, by decide⟩
    constructor <;> (rintro rfl; exact absurd (wider _ member) (by decide))
  · rw [Documentation.undecorated_star wider]
    simp [Text.trimEnd, Text.dropEndWhile]

/-- Where the description does not share the opening line, a further plain line is read back. -/
theorem readsAs_plain (blanks : ∀ c ∈ indent, isBlank c = true)
    (block : style.firstLineInline = false) {line : Text} (ordinary : line = [] ∨ Plain line)
    : (ofStyle style indent).ReadsAs line line := by
  rcases ordinary with rfl | plain
  · exact readsAs_empty blanks
  · have space : (ofStyle style indent).space = [' '] := by simp [ofStyle, block]
    exact readsAs_line blanks space (by simp) plain.nonempty plain.no_break plain.last

/-- Lines behind the decoration are read one by one. Witness: induction on the further lines, each
ended by the line feed of the next.
-/
theorem undecoratedLines_continued {margin : Margin} {lines : Text → Text} {rest : List Text}
    (each : ∀ line ∈ rest, margin.ReadsAs line (lines line)) {first : Text}
    (inner : ∀ c ∈ first, c ≠ '\r' ∧ c ≠ '\n') (gap : Text)
    : undecoratedLines (first ++ (rest.flatMap margin.continuation ++ '\n' :: gap))
      = Text.trimEnd (undecorated first) :: rest.map lines ++ undecoratedLines gap := by
  have plain {text : Text} (free : ∀ c ∈ text, c ≠ '\r' ∧ c ≠ '\n') : '\r' ∉ text :=
    fun member => (free _ member).1 rfl
  induction rest generalizing first with
  | nil =>
      rw [List.flatMap_nil, List.nil_append,
        Documentation.undecoratedLines_append_feed (plain inner),
        Documentation.undecoratedLines_single inner, List.map_nil]
  | cons line rest ih =>
      rw [List.forall_mem_cons] at each
      obtain ⟨shown, written, free, same⟩ := each.1
      rw [List.flatMap_cons, written, List.cons_append, List.cons_append,
        Documentation.undecoratedLines_append_feed (plain inner),
        Documentation.undecoratedLines_single inner, List.append_assoc, ih each.2 free, same,
        List.map_cons]
      rfl

end Margin

end DocBlock.Block
