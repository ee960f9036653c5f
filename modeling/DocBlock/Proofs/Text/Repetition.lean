import DocBlock.Text.Scan

/-! Reading as often as possible, as a sequence of single reads that ends where nothing is read.
The limit on the number of reads does not show: every read takes a character.
-/

namespace DocBlock.Text

variable {α : Type} {read : Reader α}

/-- Reads follow each other from the first text to the last. -/
inductive Reads (read : Reader α) : Text → List α → Text → Prop where
  | done (text : Text) : Reads read text [] text
  | next {text later rest : Text} {value : α} {values : List α}
    (found : read text = some (value, later)) (more : Reads read later values rest)
    : Reads read text (value :: values) rest

/-- Every success takes at least one character. -/
def Consumes (read : Reader α) : Prop :=
  ∀ text value later, read text = some (value, later) → later.length < text.length

/-- A sequence of reads splits where its values split. -/
theorem Reads.split {text rest : Text} {first second : List α}
    (reads : Reads read text (first ++ second) rest)
    : ∃ middle, Reads read text first middle ∧ Reads read middle second rest := by
  induction first generalizing text with
  | nil => exact ⟨text, .done text, reads⟩
  | cons value first ih =>
      cases reads with
      | next found more =>
          obtain ⟨middle, front, tail⟩ := ih more
          exact ⟨middle, .next found front, tail⟩

/-- Sequences of reads follow each other, by induction on the first. -/
theorem Reads.append {text middle rest : Text} {first second : List α}
    (front : Reads read text first middle) (tail : Reads read middle second rest)
    : Reads read text (first ++ second) rest := by
  induction front with
  | done => exact tail
  | next found more ih => exact .next found (ih tail)

/-- Reading leaves no more text than there was, by induction on the reads. -/
theorem Reads.length_le (consumes : Consumes read) {text rest : Text} {values : List α}
    (reads : Reads read text values rest)
    : rest.length ≤ text.length := by
  induction reads with
  | done => exact Nat.le_refl _
  | next found more ih => exact Nat.le_trans ih (Nat.le_of_lt (consumes _ _ _ found))

/-- Reading with any limit is a sequence of reads, and only the limit stops it early. Witness:
induction on the limit.
-/
theorem manyUpTo_reads (consumes : Consumes read) {limit : Nat} {text : Text}
    (enough : text.length ≤ limit)
    : Reads read text (manyUpTo read limit text).1 (manyUpTo read limit text).2
      ∧ read (manyUpTo read limit text).2 = none := by
  induction limit generalizing text with
  | zero =>
      refine ⟨.done text, ?_⟩
      cases found : read text with
      | none => simpa [manyUpTo] using found
      | some result =>
          have shorter := consumes text result.1 result.2 found
          omega
  | succ limit ih =>
      cases found : read text with
      | none => simpa [manyUpTo, found] using Reads.done text
      | some result =>
          obtain ⟨value, later⟩ := result
          have shorter := consumes text value later found
          obtain ⟨reads, stop⟩ := ih (by omega : later.length ≤ limit)
          simp only [manyUpTo, found]
          exact ⟨.next found reads, stop⟩

/-- Reading as often as possible is a sequence of reads that ends where nothing is read. -/
theorem many_reads (consumes : Consumes read) (text : Text)
    : Reads read text (many read text).1 (many read text).2 ∧ read (many read text).2 = none :=
  manyUpTo_reads consumes (Nat.le_refl _)

/-- Two sequences of reads from one text that cannot go on are the same, by induction on the
first. -/
theorem Reads.unique {text rest other : Text} {values others : List α}
    (reads : Reads read text values rest) (stop : read rest = none)
    (again : Reads read text others other) (last : read other = none)
    : values = others ∧ rest = other := by
  induction reads generalizing others with
  | done text =>
      cases again with
      | done => exact ⟨rfl, rfl⟩
      | next found more => simp [stop] at found
  | next found more ih =>
      cases again with
      | done => simp [last] at found
      | next same further =>
          obtain ⟨rfl, rfl⟩ := Prod.mk.inj (Option.some.inj (found.symm.trans same))
          obtain ⟨rfl, rfl⟩ := ih stop further
          exact ⟨rfl, rfl⟩

/-- A sequence of reads that cannot go on is what reading as often as possible gives. -/
theorem many_eq (consumes : Consumes read) {text rest : Text} {values : List α}
    (reads : Reads read text values rest) (stop : read rest = none)
    : many read text = (values, rest) := by
  obtain ⟨again, last⟩ := many_reads consumes text
  obtain ⟨rfl, rfl⟩ := reads.unique stop again last
  rfl

end DocBlock.Text
