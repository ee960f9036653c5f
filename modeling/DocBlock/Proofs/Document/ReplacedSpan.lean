import DocBlock.Proofs.Comment.Closing
import DocBlock.Proofs.Document.Target

/-! The span that a generated comment replaces is a stretch of the document from an opening to the
first comment end behind it. Where that opening is the `/**` of an empty comment `/**/`, the span
reaches on over code to the end of the next comment.
-/

namespace DocBlock.Document

/-- The text that an anchor covers. -/
def covered (document : Text) (anchor : Anchor) : Text :=
  Text.slice anchor.start anchor.stop document

/-- A comment shown in a window stands in the document where it is last shown. -/
theorem slice_lastShown {style : Style} {document comment : Text} {line : Int}
    (shown : comment <:+: (window style document line).shown)
    : Text.slice
        ((window style document line).start
          + (Text.lastIndexOf? comment (window style document line).shown).getD 0)
        ((window style document line).start
            + (Text.lastIndexOf? comment (window style document line).shown).getD 0
          + comment.length)
        document
      = comment := by
  obtain ⟨i, last⟩ := Text.lastIndexOf?_isSome shown
  obtain ⟨passed, later, stands, rfl⟩ := Text.lastIndexOf?_sound last
  obtain ⟨front, rest, whole, size⟩ := window_shown_shape style document line
  have split : document = (front ++ passed) ++ comment ++ (later ++ rest) := by
    rw [stands] at whole
    simpa using whole
  have place := slice_append (front ++ passed) comment (later ++ rest)
  rw [← split] at place
  rw [last, Option.getD_some, ← size, ← List.length_append]
  exact place

/-- A generated comment replaces a stretch of the document that starts with `/**` and reaches to
the first comment end behind that opening. Witness: the span is the trailing comment found before
the target, and it is put where it is last shown.
-/
theorem generateAt_replace {style : Style} {document : Text} {line : Int}
    (replaces : (generateAt style document line).anchor.edit = .replace)
    : ∃ body,
        covered document (generateAt style document line).anchor
          = "/**".toList ++ body ++ "*/".toList
        ∧ ¬ "*/".toList <:+: body := by
  cases found : Text.findFirst? trailingComment?
      ((window style document line).target style.inferDirection).preceding with
  | none =>
      cases declared : ((window style document line).target style.inferDirection).declaration with
      | none => simp [generateAt_bare found declared, insertBare, anchor] at replaces
      | some declaration =>
          simp [generateAt_of_declaration found declared, insertAbove, anchor] at replaces
  | some result =>
      obtain ⟨passed, indent, comment⟩ := result
      obtain ⟨rest, -, here⟩ := Text.findFirst?_sound found
      obtain ⟨body, -, -, rfl, -, free⟩ := trailingComment?_sound here
      refine ⟨body, ?_, free⟩
      have place := slice_lastShown (Window.comment_isInfix found)
      rw [generateAt_of_comment found]
      cases ((window style document line).target style.inferDirection).declaration with
      | none => exact place
      | some declaration => exact place

/-- A replaced span always starts with `/**` and ends with `*/`, and it is one comment exactly
unless it starts with an empty comment: the search for a comment above the target takes `/**/` for
an opening, so that the span goes on to the next comment end. Witness: the body behind the opening
holds no comment end, so only the second star of the opening can start one.
-/
theorem replaced_isDocBlock_iff (style : Style) (document : Text) (line : Int)
    (replaces : (generate style document line).anchor.edit = .replace)
    : let span := covered (Text.normaliseBreaks document) (generate style document line).anchor
      Text.startsWith "/**".toList span = true
      ∧ Text.endsWith "*/".toList span = true
      ∧ (Comment.isDocBlock span = true ↔ Text.startsWith "/**/".toList span = false) := by
  intro span
  obtain ⟨body, whole, free⟩ := generateAt_replace replaces
  have shape : span = "/**".toList ++ body ++ "*/".toList := whole
  have slashed : Text.startsWith "/**/".toList span = true ↔ body.head? = some '/' := by
    rw [shape, Text.startsWith_iff]
    cases body with
    | nil => decide
    | cons c body => simp [eq_comm]
  refine ⟨?_, ?_, ?_⟩
  · exact Text.startsWith_iff.mpr ⟨body ++ "*/".toList, by rw [shape, List.append_assoc]⟩
  · exact Text.endsWith_iff.mpr ⟨"/**".toList ++ body, shape.symm⟩
  · rw [← Bool.not_eq_true, slashed, shape, Comment.isDocBlock_iff, Comment.close_infix_cons_iff,
      not_or, and_iff_left free]

/-- A comment directly above a function is replaced as a whole. -/
theorem replaced_isDocBlock_above_function
    : (generate .default "/** Old. */\nint f(void);\n".toList 1).anchor.edit = .replace
      ∧ Comment.isDocBlock
          (covered "/** Old. */\nint f(void);\n".toList
            (generate .default "/** Old. */\nint f(void);\n".toList 1).anchor)
        = true := by
  have replaces : (generate .default "/** Old. */\nint f(void);\n".toList 1).anchor.edit
      = .replace := by
    decide +kernel
  refine ⟨replaces, ?_⟩
  exact (replaced_isDocBlock_iff .default _ 1 replaces).2.2.mpr (by decide +kernel)

/-- Behind an empty comment the replaced span covers code: a macro call between the comment above a
function and an empty comment is lost. -/
theorem replaced_covers_code
    : let document := "/**/ EXPORT(x) /* note */\nint f(void);\n".toList
      (generate .default document 1).anchor.edit = .replace
      ∧ covered document (generate .default document 1).anchor
        = "/**/ EXPORT(x) /* note */".toList
      ∧ Comment.isDocBlock (covered document (generate .default document 1).anchor) = false := by
  decide +kernel

end DocBlock.Document
