import DocBlock.Comment.Source
import DocBlock.Proofs.Text.Scanning
import DocBlock.Proofs.Text.Search

/-! Where comments start and end. Text that opens no comment is kept by masking and by deleting
comments, and a block comment is masked or deleted as a whole.
-/

namespace DocBlock.Comment

open Text (isSpace)

--------------------------------------------------------------------------------
-- Text that opens no comment
--------------------------------------------------------------------------------

/-- No comment starts in the text, whatever follows it. -/
structure OpensNone (text : Text) : Prop where
  block : ¬ "/*".toList <:+: text
  line : ¬ "//".toList <:+: text
  last : text.getLast? ≠ some '/'

/-- Text without slashes opens no comment. -/
theorem OpensNone.of_not_mem {text : Text} (absent : '/' ∉ text) : OpensNone text where
  block := fun inside => absent (inside.subset (by simp))
  line := fun inside => absent (inside.subset (by simp))
  last := fun last => absent (List.mem_of_getLast? last)

theorem OpensNone.of_plain {text : Text} {p : Char → Prop} (plain : ∀ c ∈ text, p c ∧ c ≠ '/')
    : OpensNone text :=
  .of_not_mem fun slash => (plain _ slash).2 rfl

/-- At no position of a text that opens none does a slash with a star or a slash behind it
stand. -/
theorem OpensNone.not_isPrefix {text later : Text} {c d : Char} (clean : OpensNone text)
    (position : c :: later <:+ text) (second : d = '*' ∨ d = '/') (rest : Text)
    : ¬ ['/', d] <+: c :: later ++ rest := by
  rintro ⟨more, whole⟩
  obtain ⟨rfl, whole⟩ : '/' = c ∧ d :: more = later ++ rest := by simpa using whole
  cases later with
  | nil => exact clean.last (by obtain ⟨front, rfl⟩ := position; simp)
  | cons e later =>
      obtain ⟨rfl, -⟩ : d = e ∧ more = later ++ rest := by simpa using whole
      have inside : ['/', d] <:+: text :=
        List.IsInfix.trans ⟨[], later, rfl⟩ position.isInfix
      rcases second with rfl | rfl
      · exact clean.block inside
      · exact clean.line inside

theorem OpensNone.block?_eq_none {text later : Text} {c : Char} (clean : OpensNone text)
    (position : c :: later <:+ text) (rest : Text)
    : block? (c :: later ++ rest) = none := by
  have unopened : Text.after? "/*".toList (c :: later ++ rest) = none := by
    have missing := clean.not_isPrefix position (.inl rfl) rest
    exact Option.not_isSome_iff_eq_none.mp (mt Text.startsWith_iff.mp missing)
  rw [block?, unopened]
  rfl

theorem OpensNone.line?_eq_none {text later : Text} {c : Char} (clean : OpensNone text)
    (position : c :: later <:+ text) (rest : Text)
    : line? (c :: later ++ rest) = none := by
  have unopened : Text.after? "//".toList (c :: later ++ rest) = none := by
    have missing := clean.not_isPrefix position (.inr rfl) rest
    exact Option.not_isSome_iff_eq_none.mp (mt Text.startsWith_iff.mp missing)
  rw [line?, unopened]
  rfl

--------------------------------------------------------------------------------
-- Masking
--------------------------------------------------------------------------------

/-- Text that opens no comment is not masked. -/
theorem mask_append {front : Text} (clean : OpensNone front) (rest : Text)
    : mask (front ++ rest) = front ++ mask rest := by
  refine Text.replaceAll_append fun c later position => ?_
  rw [comment?, clean.block?_eq_none position rest, clean.line?_eq_none position rest]
  rfl

theorem mask_eq_self {text : Text} (clean : OpensNone text) : mask text = text := by
  have whole := mask_append clean []
  rw [List.append_nil] at whole
  exact whole.trans (List.append_nil text)

theorem block?_append {body : Text} (free : ¬ "*/".toList <:+: body) (rest : Text)
    : block? ("/*".toList ++ body ++ "*/".toList ++ rest)
      = some ("/*".toList ++ body ++ "*/".toList, rest) := by
  have opened : Text.after? "/*".toList ("/*".toList ++ body ++ "*/".toList ++ rest)
      = some (body ++ '*' :: '/' :: rest) :=
    Text.after?_eq_some_iff.mpr (by simp)
  have closed : Text.cut? "*/".toList (body ++ '*' :: '/' :: rest) = some (body, rest) :=
    Text.cut?_pair (by decide) free rest
  simp only [block?, opened, closed, Option.bind_eq_bind, Option.bind_some]

/-- A block comment is masked as a whole. -/
theorem mask_block_append {body : Text} (free : ¬ "*/".toList <:+: body) (rest : Text)
    : mask ("/*".toList ++ body ++ "*/".toList ++ rest)
      = blankOut ("/*".toList ++ body ++ "*/".toList) ++ mask rest := by
  refine Text.replaceAll_of_some ?_ (by simp)
  rw [comment?, block?_append free rest]
  rfl

theorem mem_blankOut {text : Text} {c : Char} (member : c ∈ blankOut text)
    : c = ' ' ∨ c = '\n' := by
  obtain ⟨d, -, rfl⟩ := List.mem_map.mp member
  split
  · exact .inr rfl
  · exact .inl rfl

--------------------------------------------------------------------------------
-- Deleting
--------------------------------------------------------------------------------

/-- Text that opens no comment is not deleted. -/
theorem delete_block_append {front : Text} (clean : OpensNone front) (rest : Text)
    : delete block? (front ++ rest) = front ++ delete block? rest :=
  Text.replaceAll_append fun c later position => by
    rw [clean.block?_eq_none position rest, Option.map_none]

theorem delete_block_eq_self {text : Text} (clean : OpensNone text)
    : delete block? text = text := by
  have whole := delete_block_append clean []
  rw [List.append_nil] at whole
  exact whole.trans (List.append_nil text)

/-- A block comment is deleted as a whole. -/
theorem delete_block_comment {body : Text} (free : ¬ "*/".toList <:+: body) (rest : Text)
    : delete block? ("/*".toList ++ body ++ "*/".toList ++ rest) = delete block? rest := by
  have deleted : delete block? ("/*".toList ++ body ++ "*/".toList ++ rest)
      = [] ++ delete block? rest := by
    refine Text.replaceAll_of_some ?_ (by simp)
    rw [block?_append free rest, Option.map_some]
  simpa using deleted

theorem delete_line_eq_self {text : Text} (clean : OpensNone text) : delete line? text = text := by
  refine Text.replaceAll_eq_self fun c later position => ?_
  have unread := clean.line?_eq_none position []
  rw [List.append_nil] at unread
  rw [unread, Option.map_none]

theorem withoutDirective_of_not_mem {text : Text} (absent : '#' ∉ text)
    : withoutDirective text = text := by
  unfold withoutDirective
  split
  · simp at absent
  · rfl

--------------------------------------------------------------------------------
-- Text that shows nothing outside comments
--------------------------------------------------------------------------------

/-- Masking and deleting comments leave only white space of the text, whatever follows it. -/
structure Hidden (text : Text) : Prop where
  masked : ∀ rest, ∃ blank,
    mask (text ++ rest) = blank ++ mask rest ∧ ∀ c ∈ blank, isSpace c = true
  deleted : ∀ rest, ∃ left,
    delete block? (text ++ rest) = left ++ delete block? rest ∧ ∀ c ∈ left, isSpace c = true

/-- White space shows nothing else. -/
theorem Hidden.of_space {text : Text} (space : ∀ c ∈ text, isSpace c = true) : Hidden text := by
  have clean : OpensNone text :=
    OpensNone.of_not_mem fun slash => absurd (space _ slash) (by decide)
  exact ⟨fun rest => ⟨text, mask_append clean rest, space⟩,
    fun rest => ⟨text, delete_block_append clean rest, space⟩⟩

theorem Hidden.block {body : Text} (free : ¬ "*/".toList <:+: body)
    : Hidden ("/*".toList ++ body ++ "*/".toList) where
  masked := by
    intro rest
    refine ⟨_, mask_block_append free rest, fun c member => ?_⟩
    rcases mem_blankOut member with rfl | rfl <;> decide
  deleted := fun rest => ⟨[], delete_block_comment free rest, by simp⟩

theorem Hidden.append {first second : Text} (one : Hidden first) (two : Hidden second)
    : Hidden (first ++ second) where
  masked := by
    intro rest
    obtain ⟨blank, maskedFirst, spaceFirst⟩ := one.masked (second ++ rest)
    obtain ⟨more, maskedSecond, spaceSecond⟩ := two.masked rest
    refine ⟨blank ++ more, ?_, List.forall_mem_append.mpr ⟨spaceFirst, spaceSecond⟩⟩
    rw [List.append_assoc, maskedFirst, maskedSecond, List.append_assoc]
  deleted := by
    intro rest
    obtain ⟨left, deletedFirst, spaceFirst⟩ := one.deleted (second ++ rest)
    obtain ⟨more, deletedSecond, spaceSecond⟩ := two.deleted rest
    refine ⟨left ++ more, ?_, List.forall_mem_append.mpr ⟨spaceFirst, spaceSecond⟩⟩
    rw [List.append_assoc, deletedFirst, deletedSecond, List.append_assoc]

/-- Stripping leaves white space in place of a hidden stretch behind a plain front, and of the rest
what is left without its block comments, if that is plain. -/
theorem Hidden.exists_strip {front above rest kept : Text} (hidden : Hidden above)
    (plainFront : ∀ c ∈ front, c ≠ '#' ∧ c ≠ '/') (uncommented : delete block? rest = kept)
    (plainKept : ∀ c ∈ kept, c ≠ '#' ∧ c ≠ '/')
    : ∃ left,
        strip (front ++ above ++ rest) = front ++ left ++ kept ∧ ∀ c ∈ left, isSpace c = true := by
  obtain ⟨left, deleted, spaces⟩ := hidden.deleted rest
  refine ⟨left, ?_, spaces⟩
  have plain : ∀ c ∈ front ++ left ++ kept, c ≠ '#' ∧ c ≠ '/' := by
    refine List.forall_mem_append.mpr ⟨List.forall_mem_append.mpr ⟨plainFront, ?_⟩, plainKept⟩
    intro c member
    constructor
    all_goals
      rintro rfl
      exact absurd (spaces _ member) (by decide)
  have blocks : delete block? (front ++ above ++ rest) = front ++ left ++ kept := by
    rw [List.append_assoc, delete_block_append (.of_plain plainFront), deleted, uncommented,
      List.append_assoc]
  rw [strip, blocks, delete_line_eq_self (.of_plain plain)]
  exact withoutDirective_of_not_mem fun directive => (plain _ directive).1 rfl

--------------------------------------------------------------------------------
-- Delimiters
--------------------------------------------------------------------------------

theorem isDelimiter_of_isSpace {c : Char} (space : isSpace c = true) : isDelimiter c = false := by
  have differs {d : Char} (other : isSpace d = false) : c ≠ d := by
    rintro rfl
    exact absurd space (by simp [other])
  have brace : c ≠ '{' := differs (by decide)
  have closing : c ≠ '}' := differs (by decide)
  have semicolon : c ≠ ';' := differs (by decide)
  have directive : c ≠ '#' := differs (by decide)
  simp [isDelimiter, brace, closing, semicolon, directive]

/-- Cutting at the last delimiter leaves an end of the text, by induction on the text. -/
theorem fromLastDelimiter?_isSuffix {text masked found : Text}
    (cut : fromLastDelimiter? text masked = some found)
    : found <:+ text := by
  induction text generalizing masked with
  | nil => simp [fromLastDelimiter?] at cut
  | cons c text ih =>
      cases masked with
      | nil => simp [fromLastDelimiter?] at cut
      | cons m masked =>
          cases later : fromLastDelimiter? text masked with
          | some rest =>
              simp only [fromLastDelimiter?, later, Option.some.injEq] at cut
              subst cut
              exact (ih later).trans (List.suffix_cons c text)
          | none =>
              simp only [fromLastDelimiter?, later, Option.ite_none_right_eq_some,
                Option.some.injEq] at cut
              rw [← cut.2]

theorem sinceLastDelimiter_isSuffix (text : Text) : sinceLastDelimiter text <:+ text := by
  rw [sinceLastDelimiter]
  cases cut : fromLastDelimiter? text (mask text) with
  | none => exact List.suffix_rfl
  | some found => exact fromLastDelimiter?_isSuffix cut

theorem fromLastDelimiter?_eq_none {text masked : Text}
    (undelimited : ∀ c ∈ masked, isDelimiter c = false)
    : fromLastDelimiter? text masked = none := by
  induction text generalizing masked with
  | nil => rfl
  | cons c text ih =>
      cases masked with
      | nil => rfl
      | cons m masked =>
          obtain ⟨here, behind⟩ := List.forall_mem_cons.mp undelimited
          simp [fromLastDelimiter?, ih behind, here]

/-- A delimiter is the last one if the masked text shows none behind it, by induction on the text
in front. -/
theorem fromLastDelimiter?_append {d : Char} {text masked : Text} (delimits : isDelimiter d = true)
    (undelimited : ∀ c ∈ masked, isDelimiter c = false) (front : Text)
    : fromLastDelimiter? (front ++ d :: text) (front ++ d :: masked) = some (d :: text) := by
  induction front with
  | nil => simp [fromLastDelimiter?, fromLastDelimiter?_eq_none undelimited, delimits]
  | cons c front ih => simp [fromLastDelimiter?, ih]

/-- Code that ends with a delimiter is left out but for this delimiter, and a text without
delimiters is kept. -/
theorem sinceLastDelimiter_append {code text : Text} (clean : OpensNone code)
    (delimited : ∀ d, code.getLast? = some d → isDelimiter d = true)
    (undelimited : ∀ c ∈ mask text, isDelimiter c = false)
    : sinceLastDelimiter (code ++ text) = code.getLast?.toList ++ text := by
  rw [sinceLastDelimiter, mask_append clean]
  rcases List.eq_nil_or_concat code with rfl | ⟨front, d, rfl⟩
  · simp [fromLastDelimiter?_eq_none undelimited]
  · have delimits : isDelimiter d = true := delimited d (by simp)
    have cut := @fromLastDelimiter?_append d text _ delimits undelimited front
    simp [cut]

end DocBlock.Comment
