import DocBlock.Proofs.Comment.Place
import DocBlock.Proofs.Document.Placement

/-! Whether a comment is inserted into another comment. A block goes to the start of the line on
which the signature of its declaration is last shown, and that line can start inside a comment:
behind a comment of several lines that ends in front of the declaration, or where the signature is
shown in a comment itself.
-/

namespace DocBlock.Document

open Comment (Closeless placeAfter)

/-- A comment that opens on an earlier line is still open where the line of an offset starts. -/
def CommentReaches (document : Text) (offset : Nat) : Prop :=
  ∃ front body text,
    document.take offset = front ++ ("/*".toList ++ body) ++ '\n' :: text
    ∧ placeAfter front = .code
    ∧ Closeless body
    ∧ '\n' ∉ text

/-- The line of an offset starts in code unless a comment reaches it. Witness: a comment that is
open at the start of a line ends with the line feed before it, as far as it is read.
-/
theorem placeAfter_lineStart_iff {document : Text} {offset : Nat} (bound : offset ≤ document.length)
    : placeAfter (document.take (offset - column document offset)) = .code
      ↔ ¬ CommentReaches document offset := by
  obtain ⟨lines, text, rest, rfl, rfl, ends, flat⟩ := exists_lineOf bound
  have start : (lines ++ text).length - text.length = lines.length := by
    rw [List.length_append, Nat.add_sub_cancel]
  have before : (lines ++ text ++ rest).take lines.length = lines := by
    rw [List.append_assoc, List.take_left]
  rw [column_append ends flat, start, before, CommentReaches, List.take_left]
  constructor
  · rintro code ⟨front, body, line, whole, opened, free, unbroken⟩
    have split : lines = front ++ ("/*".toList ++ body) ++ ['\n'] :=
      ends.unique (.inr List.getLast?_concat) flat unbroken (by simpa using whole)
    rw [split, List.append_assoc, List.append_assoc] at code
    have open_ : Closeless (body ++ ['\n']) :=
      (Comment.closeless_append_of_no_slash (by decide)).mpr free
    exact Comment.placeAfter_ne_code opened open_ code
  · intro unreached
    by_contra inside
    obtain ⟨front, body, rfl, opened, free⟩ := Comment.exists_open inside
    have last : (front ++ ("/*".toList ++ body)).getLast? = some '\n' := by
      rcases ends with empty | feed
      · simp at empty
      · exact feed
    have feed : body.getLast? = some '\n' := by
      cases body with
      | nil => simp at last
      | cons c body => simpa [List.getLast?_append] using last
    obtain ⟨inner, rfl⟩ := List.getLast?_eq_some_iff.mp feed
    apply unreached
    refine ⟨front, inner, text, by simp, opened, ?_, flat⟩
    exact (Comment.closeless_append_of_no_slash (by decide)).mp free

/-- An insertion from a cursor line outside comments stays outside comments exactly if no comment
reaches the line on which the declaration is taken to stand. Witness: a block goes to the start of
that line, and a bare block to the start of the cursor line.
-/
theorem insertion_outside_iff (style : Style) (document : Text) (line : Int)
    (inserts : (generate style document line).anchor.edit = .insert)
    (outside : placeAfter
        ((Text.normaliseBreaks document).take
          (startOfLine line.toNat (Text.normaliseBreaks document)))
      = .code)
    : placeAfter
          ((Text.normaliseBreaks document).take (generate style document line).anchor.start)
        = .code
      ↔ ∀ declaration ∈ (generate style document line).declaration,
          ¬ CommentReaches (Text.normaliseBreaks document)
            ((window style (Text.normaliseBreaks document) line).offsetOf declaration) := by
  revert inserts
  simp only [generate]
  generalize Text.normaliseBreaks document = document at outside ⊢
  intro inserts
  cases found : Text.findFirst? trailingComment?
      ((window style document line).target style.inferDirection).preceding with
  | some result =>
      obtain ⟨passed, indent, comment⟩ := result
      rw [generateAt_of_comment found] at inserts
      cases declared : ((window style document line).target style.inferDirection).declaration with
      | none => simp [declared, replaceComment, anchor] at inserts
      | some declaration => simp [declared, replaceComment, anchor] at inserts
  | none =>
      cases declared : ((window style document line).target style.inferDirection).declaration with
      | none =>
          rw [generateAt_bare found declared]
          constructor
          · intro _ declaration missing
            cases missing
          · intro _
            exact outside
      | some declaration =>
          rw [generateAt_of_declaration found declared]
          have bound := offsetOf_le_length style document line declaration
          have start := placeAfter_lineStart_iff bound
          constructor
          · intro code found same
            cases same
            exact start.mp code
          · intro free
            exact start.mpr (free declaration rfl)

/-- Below a comment of two lines no comment reaches the line of a function. -/
theorem insertion_outside_below_comment
    : let document := "/* one\n two */\nint f(void);\n".toList
      (generate .default document 0).anchor.edit = .insert
      ∧ ∀ declaration ∈ (generate .default document 0).declaration,
          ¬ CommentReaches (Text.normaliseBreaks document)
            ((window .default (Text.normaliseBreaks document) 0).offsetOf declaration) := by
  intro document
  have inserts : (generate .default document 0).anchor.edit = .insert := by decide +kernel
  refine ⟨inserts, ?_⟩
  exact (insertion_outside_iff .default document 0 inserts (by decide +kernel)).mp
    (by decide +kernel)

/-- A block lands inside a comment that ends in front of the function on its line, and inside a
comment that shows the signature, although the cursor line starts in code. -/
theorem insertion_inside_comment
    : let shared := "/* note\n */ int f(void);\n".toList
      let copied := "/*\nint f(void)\n*/\nint f(/* none */void);\n".toList
      (generate .default shared 0).anchor.edit = .insert
      ∧ placeAfter (shared.take (startOfLine 0 shared)) = .code
      ∧ placeAfter (shared.take (generate .default shared 0).anchor.start) = .plain
      ∧ (generate .default copied 3).anchor.edit = .insert
      ∧ placeAfter (copied.take (startOfLine 3 copied)) = .code
      ∧ placeAfter (copied.take (generate .default copied 3).anchor.start) = .plain := by
  decide +kernel

end DocBlock.Document
