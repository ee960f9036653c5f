import DocBlock.Completion
import DocBlock.Proofs.Comment.Place
import Mathlib.Data.List.DropRight

/-! Whether an offset lies inside an open documentation comment is told from the last opening and
the last comment end in front of it. A reader that stands inside a documentation comment there is
always noticed, and the answer is that of the reader as long as it enters a comment at every opening
it passes.
-/

namespace DocBlock.Completion

open Comment (Closeless placeAfter)

--------------------------------------------------------------------------------
-- Last opening and last end
--------------------------------------------------------------------------------

/-- A text counts as open at its end exactly if a documentation comment opens in it with no comment
end behind. Witness: behind the last opening there is an end exactly if the last end stands there.
-/
theorem isOpenAtEnd_iff {text : Text}
    : isOpenAtEnd text = true
      ↔ ∃ front rest,
          text = front ++ ("/**".toList ++ rest) ∧ Closeless ("/**".toList ++ rest) := by
  constructor
  · intro opens
    cases opening : Text.lastIndexOf? "/**".toList text with
    | none => simp only [isOpenAtEnd, opening, Bool.false_eq_true] at opens
    | some i =>
        obtain ⟨front, rest, rfl, rfl⟩ := Text.lastIndexOf?_sound opening
        refine ⟨front, rest, List.append_assoc _ _ _, ?_⟩
        rintro ⟨inner, later, whole⟩
        rw [List.append_assoc front, ← whole, ← List.append_assoc, ← List.append_assoc]
          at opens opening
        cases closing : Text.lastIndexOf? "*/".toList (front ++ inner ++ "*/".toList ++ later) with
        | none =>
            obtain ⟨j, found⟩ := Text.lastIndexOf?_isSome
              (⟨front ++ inner, later, rfl⟩
                : "*/".toList <:+: front ++ inner ++ "*/".toList ++ later)
            exact absurd (closing.symm.trans found) (by simp)
        | some j =>
            have behind := Text.length_le_of_lastIndexOf? closing
            simp only [isOpenAtEnd, opening, closing, decide_eq_true_eq] at opens
            rw [List.length_append] at behind
            omega
  · rintro ⟨front, rest, rfl, free⟩
    rw [← List.append_assoc]
    obtain ⟨i, opening⟩ := Text.lastIndexOf?_isSome
      (⟨front, rest, rfl⟩ : "/**".toList <:+: front ++ "/**".toList ++ rest)
    have last := Text.length_le_of_lastIndexOf? opening
    cases closing : Text.lastIndexOf? "*/".toList (front ++ "/**".toList ++ rest) with
    | none => simp only [isOpenAtEnd, opening, closing]
    | some j =>
        obtain ⟨before, later, whole, rfl⟩ := Text.lastIndexOf?_sound closing
        have earlier : before.length < front.length := by
          by_contra behind
          rw [List.append_assoc, List.append_assoc] at whole
          obtain ⟨inner, rfl⟩ := List.prefix_of_prefix_length_le
            ⟨_, whole⟩ (List.prefix_append before ("*/".toList ++ later)) (Nat.not_lt.mp behind)
          rw [List.append_assoc, List.append_cancel_left_eq] at whole
          exact free ⟨inner, later, by rw [whole, List.append_assoc]⟩
        simp only [isOpenAtEnd, opening, closing, decide_eq_true_eq]
        omega

--------------------------------------------------------------------------------
-- The reader
--------------------------------------------------------------------------------

/-- A reader enters a comment wherever a documentation comment opens in the text. -/
def EntersOpenings (text : Text) : Prop :=
  ∀ i < text.length,
    Text.startsWith "/**".toList (text.drop i) = true → placeAfter (text.take i) = .code

instance : DecidablePred EntersOpenings :=
  fun text => inferInstanceAs
    (Decidable (∀ i < text.length,
      Text.startsWith "/**".toList (text.drop i) = true → placeAfter (text.take i) = .code))

/-- A reader stands inside a documentation comment if it met the opening in code and no end comes
behind. -/
theorem placeAfter_documentation {front rest : Text} (code : placeAfter front = .code)
    (free : Closeless ("/**".toList ++ rest))
    : placeAfter (front ++ ("/**".toList ++ rest)) = .documentation := by
  have body : Closeless ('*' :: rest) := free.of_isInfix ⟨"/*".toList, [], by simp⟩
  have inside : placeAfter (front ++ ("/*".toList ++ '*' :: rest)) = .documentation := by
    rw [Comment.placeAfter_append_open code, Comment.placeAfter_opening, List.head?_cons,
      if_pos rfl, Comment.placeFrom_closeless (by simp) body]
  exact inside

/-- A reader inside a documentation comment met its opening in code, and no end comes behind. -/
theorem exists_documentation {text : Text} (inside : placeAfter text = .documentation)
    : ∃ front rest,
        text = front ++ ("/**".toList ++ rest)
        ∧ placeAfter front = .code
        ∧ Closeless ("/**".toList ++ rest) := by
  have entered : placeAfter text ≠ .code := by simp [inside]
  obtain ⟨front, body, rfl, code, free⟩ := Comment.exists_open entered
  rw [Comment.placeAfter_append_open code, Comment.placeAfter_opening] at inside
  have starred : body.head? = some '*' := by
    by_contra other
    rw [if_neg other, Comment.placeFrom_closeless (by simp) free] at inside
    contradiction
  obtain ⟨rest, rfl⟩ := List.head?_eq_some_iff.mp starred
  refine ⟨front, rest, by simp, code, ?_⟩
  have opened : Closeless ("/*".toList ++ '*' :: rest) :=
    Closeless.append (by decide) free (by simp)
  exact opened

--------------------------------------------------------------------------------
-- Main statement
--------------------------------------------------------------------------------

/-- The text in front of an offset that is looked at: the line of the offset and a number of lines
before it. -/
def lookedAt (document : Text) (offset maxLines : Nat) : Text :=
  Text.unlines ((Text.lines (document.take offset)).rtake (maxLines + 1))

theorem inside_eq (document : Text) (offset maxLines : Nat)
    : inside document offset maxLines = isOpenAtEnd (lookedAt document offset maxLines) := by
  have front : Text.before offset document = document.take offset := by
    rw [Text.before, Text.position, if_neg (by omega), Int.toNat_natCast, List.take_eq_take_min,
      Nat.min_assoc, Nat.min_self, ← List.take_eq_take_min]
  have last (lines : List Text)
      : lastLines ((maxLines : Int) + 1) lines = lines.rtake (maxLines + 1) := by
    rw [lastLines, Text.position, if_pos (by omega), List.rtake]
    congr 1
    omega
  rw [inside, front, last, lookedAt]

/-- An offset at which a reader of the text looked at stands inside a documentation comment is found
to lie inside one. If the reader enters a comment at every opening, only such an offset is. -/
theorem inside_agrees_with_reader (document : Text) (offset maxLines : Nat)
    : let text := lookedAt document offset maxLines
      (placeAfter text = .documentation → inside document offset maxLines = true)
      ∧ (EntersOpenings text
        → inside document offset maxLines = true
        → placeAfter text = .documentation) := by
  intro text
  rw [inside_eq, isOpenAtEnd_iff]
  constructor
  · intro documented
    obtain ⟨front, rest, whole, -, free⟩ := exists_documentation documented
    exact ⟨front, rest, whole, free⟩
  · rintro entered ⟨front, rest, whole, free⟩
    have code : placeAfter front = .code := by
      have here := entered front.length
      rw [show text = front ++ ("/**".toList ++ rest) from whole, List.drop_left, List.take_left,
        Text.startsWith_iff] at here
      exact here (by simp) (List.prefix_append _ rest)
    exact (congrArg placeAfter whole).trans (placeAfter_documentation code free)

/-- Behind an empty comment, a documentation comment of one star and a plain comment on the lines
above, an open comment is found. With one line less its opening is not seen. -/
theorem inside_agrees_behind_comments
    : let document := "/**/ a /***/ b /* c */\n/** d\n * @".toList
      EntersOpenings (lookedAt document 33 2)
      ∧ inside document 33 2 = true
      ∧ placeAfter (lookedAt document 33 2) = .documentation
      ∧ inside document 33 0 = false
      ∧ placeAfter (lookedAt document 33 0) = .code := by
  intro document
  have entered : EntersOpenings (lookedAt document 33 2) := by decide +kernel
  have open_ : inside document 33 2 = true := by decide +kernel
  have unseen : inside document 33 0 = false := by decide +kernel
  refine ⟨entered, open_, (inside_agrees_with_reader document 33 2).2 entered open_, unseen, ?_⟩
  decide +kernel

end DocBlock.Completion
