import DocBlock.Proofs.Signature.Spacing
import Mathlib.Data.List.Infix

/-! Text in which every opened bracket is closed and every comma stands inside brackets. A list of
such texts, separated by commas, is split into them.
-/

namespace DocBlock.Signature.Brackets

/-- Every bracket that is opened is closed again, and every comma stands inside brackets. -/
structure Balanced (text : Text) : Prop where
  closed : stackAfter text = []
  enclosed : ∀ before, before ++ [','] <+: text → stackAfter before ≠ []

instance (text : Text) : Decidable (Balanced text) :=
  decidable_of_iff
    (stackAfter text = []
      ∧ ∀ before ∈ text.inits, before ++ [','] <+: text → stackAfter before ≠ [])
    ⟨
      fun ⟨closed, enclosed⟩ => ⟨closed, fun before comma =>
        enclosed before ((List.mem_inits _ _).mpr ((List.prefix_append _ _).trans comma)) comma⟩,
      fun balanced => ⟨balanced.closed, fun before _ => balanced.enclosed before⟩
    ⟩

theorem stackAfter_append (front rest : Text)
    : stackAfter (front ++ rest) = rest.foldl step (stackAfter front) :=
  List.foldl_append

/-- Closers awaited further out do not matter while the innermost of them does not come. -/
theorem step_append {stack outer : List Char} {c : Char} (other : outer.head? ≠ some c)
    : step (stack ++ outer) c = step stack c ++ outer := by
  unfold step
  cases closer? c with
  | some closer => rfl
  | none => cases stack <;> grind

theorem foldl_step_append {outer : List Char} {text : Text}
    (other : ∀ c ∈ text, outer.head? ≠ some c) (stack : List Char)
    : text.foldl step (stack ++ outer) = text.foldl step stack ++ outer := by
  induction text generalizing stack with
  | nil => rfl
  | cons c rest ih =>
      obtain ⟨here, behind⟩ := List.forall_mem_cons.mp other
      rw [List.foldl_cons, step_append here, ih behind]
      rfl

/-- A square bracket in a text that closes its brackets is closed further on. -/
theorem close_mem_of_closed {before behind : Text}
    (closed : stackAfter (before ++ '[' :: behind) = [])
    : ']' ∈ behind := by
  by_contra absent
  have other : ∀ c ∈ behind, (']' :: stackAfter before).head? ≠ some c := by
    rintro c member ⟨⟩
    exact absent member
  have awaited := foldl_step_append other []
  rw [List.nil_append] at awaited
  rw [stackAfter_append, List.foldl_cons] at closed
  simp [step, closer?, awaited] at closed

namespace Balanced

theorem append {front rest : Text} (first : Balanced front) (second : Balanced rest)
    : Balanced (front ++ rest) where
  closed := by
    rw [stackAfter_append, first.closed]
    exact second.closed
  enclosed := by
    rintro before ⟨behind, whole⟩
    rw [List.append_assoc, List.singleton_append] at whole
    rcases List.append_eq_append_iff.mp whole with ⟨inner, rfl, shape⟩ | ⟨inner, rfl, shape⟩
    · cases inner with
      | nil => exact absurd rfl (second.enclosed [] ⟨behind, by simpa using shape⟩)
      | cons c inner =>
          obtain ⟨rfl, -⟩ := List.cons.inj shape
          exact first.enclosed before ⟨inner, by simp⟩
    · rw [stackAfter_append, first.closed]
      exact second.enclosed inner ⟨behind, by simp [shape]⟩

theorem flatMap {α : Type} {items : List α} {write : α → Text}
    (each : ∀ item ∈ items, Balanced (write item))
    : Balanced (items.flatMap write) := by
  induction items with
  | nil => exact ⟨rfl, by simp⟩
  | cons item items ih =>
      obtain ⟨here, behind⟩ := List.forall_mem_cons.mp each
      exact here.append (ih behind)

/-- Text of a class without commas and opening brackets is balanced. -/
theorem of_class {p : Char → Bool} (outside : ∀ c ∈ ['(', '[', '{', '<', ','], p c = false)
    {text : Text} (inside : ∀ c ∈ text, p c = true)
    : Balanced text := by
  have absent (c : Char) (member : c ∈ text) : c ∉ ['(', '[', '{', '<', ','] := fun listed =>
    absurd ((inside c member).symm.trans (outside c listed)) (by decide)
  have unopened (c : Char) (member : c ∈ text) : closer? c = none := by
    unfold closer?
    split
    all_goals first | rfl | exact absurd (by decide) (absent _ member)
  refine ⟨?_, fun before comma => absurd (by decide) (absent ',' (comma.subset (by simp)))⟩
  clear inside absent
  unfold stackAfter
  induction text with
  | nil => rfl
  | cons c rest ih =>
      obtain ⟨here, behind⟩ := List.forall_mem_cons.mp unopened
      simpa [step, here] using ih behind

/-- Closed text in square brackets is balanced, whatever commas it has. -/
theorem bracketed {text : Text} (closed : stackAfter text = []) (flat : ']' ∉ text)
    : Balanced ('[' :: (text ++ [']'])) := by
  have inside {part : Text} (within : part <+: text)
      : stackAfter ('[' :: part) = stackAfter part ++ [']'] := by
    have other : ∀ c ∈ part, [']'].head? ≠ some c := by
      rintro c member ⟨⟩
      exact flat (within.subset member)
    exact foldl_step_append other []
  refine ⟨?_, ?_⟩
  · rw [← List.cons_append, stackAfter_append, inside List.prefix_rfl, closed]
    decide
  · rintro before ⟨behind, whole⟩
    cases before with
    | nil => simp at whole
    | cons c before =>
        obtain ⟨rfl, shape⟩ : c = '[' ∧ before ++ ',' :: behind = text ++ [']'] := by
          simpa using whole
        rcases List.append_eq_append_iff.mp shape with ⟨inner, rfl, -⟩ | ⟨inner, -, last⟩
        · simp [inside (List.prefix_append before inner)]
        · cases inner <;> simp at last

end Balanced

/-- Text whose commas stand inside brackets goes to the first segment as a whole, by induction on
the text. -/
theorem exists_splitFrom_enclosed {stack : List Char} {text : Text}
    (enclosed : ∀ before, before ++ [','] <+: text → before.foldl step stack ≠ []) (rest : Text)
    : ∃ first more,
        splitFrom (text.foldl step stack) rest = first :: more
        ∧ splitFrom stack (text ++ rest) = (text ++ first) :: more := by
  induction text generalizing stack with
  | nil =>
      obtain ⟨first, more, whole⟩ := List.exists_cons_of_ne_nil (splitFrom_ne_nil stack rest)
      exact ⟨first, more, whole, whole⟩
  | cons c text ih =>
      have later : ∀ before, before ++ [','] <+: text → before.foldl step (step stack c) ≠ [] :=
        fun before comma => enclosed (c :: before) (List.cons_prefix_cons.mpr ⟨rfl, comma⟩)
      obtain ⟨first, more, whole, split⟩ := ih later
      have kept : (c = ',' && stack.isEmpty) = false := by
        rw [Bool.and_eq_false_iff, decide_eq_false_iff_not, List.isEmpty_eq_false_iff]
        refine Decidable.not_or_of_imp fun comma => enclosed [] ?_
        subst comma
        simp
      refine ⟨first, more, whole, ?_⟩
      simp [splitFrom, kept, split, Text.consFirst]

/-- A list of balanced segments is split into them, by induction on the segments. -/
theorem splitAtCommas_join {segments : List Text} (nonempty : segments ≠ [])
    (balanced : ∀ segment ∈ segments, Balanced segment)
    : splitAtCommas (Text.join [','] segments) = segments := by
  have front {segment : Text} (here : Balanced segment) (rest : Text)
      : ∃ first more,
          splitFrom [] rest = first :: more
          ∧ splitAtCommas (segment ++ rest) = (segment ++ first) :: more := by
    have split := exists_splitFrom_enclosed here.enclosed rest
    have closed : segment.foldl step [] = [] := here.closed
    rwa [closed] at split
  induction segments with
  | nil => contradiction
  | cons segment segments ih =>
      obtain ⟨here, behind⟩ := List.forall_mem_cons.mp balanced
      cases segments with
      | nil =>
          obtain ⟨first, more, last, split⟩ := front here []
          obtain ⟨rfl, rfl⟩ : [] = first ∧ [] = more := by simpa [splitFrom] using last
          simpa [Text.join] using split
      | cons next segments =>
          have cut (text : Text) : splitFrom [] (',' :: text) = [] :: splitAtCommas text := rfl
          obtain ⟨first, more, rest, split⟩ :=
            front here (',' :: Text.join [','] (next :: segments))
          rw [cut, ih (List.cons_ne_nil next segments) behind] at rest
          obtain ⟨rfl, rfl⟩ := List.cons.inj rest
          simpa [Text.join] using split

end DocBlock.Signature.Brackets
