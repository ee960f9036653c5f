import DocBlock.Proofs.Document.DeclarationSite
import DocBlock.Proofs.Signature.ParameterList

/-! A function head with a comment in its parameter list. Deleting the comment leaves a head that
declares the same function, but the head that is left stands nowhere in the text: it is found only
where the comment, or the code in front, repeats it.
-/

namespace DocBlock.Document

open Comment (Closeless isDelimiter)
open Text (isBlank isSpace)

/-- A function head with one block comment in its parameter list, on one line and next to white
space: the text in front of the list, the list before and behind the comment, and between them the
text of the comment. -/
structure CommentedHead where
  callee : Text
  before : Text
  body : Text
  behind : Text
  flat : ∀ c ∈ callee ++ before ++ behind, c ≠ '(' ∧ c ≠ ')'
  closeless : Closeless body
  unbroken : '\n' ∉ body
  spaced : (∃ c, before.getLast? = some c ∧ isSpace c = true)
    ∨ ∃ c, behind.head? = some c ∧ isSpace c = true

namespace CommentedHead

variable (head : CommentedHead)

/-- The comment from its opening to its end. -/
def comment : Text :=
  "/*".toList ++ head.body ++ "*/".toList

/-- The head up to the comment. -/
def opening : Text :=
  head.callee ++ '(' :: head.before

/-- The head behind the comment. -/
def closing : Text :=
  head.behind ++ [')']

/-- The head as it stands in a document. -/
def written : Text :=
  head.opening ++ head.comment ++ head.closing

/-- The head with spaces in place of the comment. -/
def blanked : Text :=
  head.opening ++ List.replicate head.comment.length ' ' ++ head.closing

/-- The head without the comment. -/
def bare : Text :=
  head.opening ++ head.closing

/-- The comment holds the opening of a documentation comment, and only a gap stands between it and
the end of the list. -/
def endsDocumented : Prop :=
  "/**".toList <:+: "/*".toList ++ head.body ∧ IsGap head.behind

instance : Decidable head.endsDocumented :=
  inferInstanceAs (Decidable ("/**".toList <:+: "/*".toList ++ head.body ∧ IsGap head.behind))

theorem unbroken_comment : '\n' ∉ head.comment := by
  simp [comment, head.unbroken]

theorem opening_ne_nil : head.opening ≠ [] := by
  simp [opening]

theorem count_written : head.written.count '\n' = head.blanked.count '\n' := by
  have comment := List.count_eq_zero.mpr head.unbroken_comment
  have spaces : (List.replicate head.comment.length ' ').count '\n' = 0 :=
    List.count_eq_zero.mpr (by simp)
  simp only [written, blanked, List.count_append, comment, spaces]

--------------------------------------------------------------------------------
-- The function it declares
--------------------------------------------------------------------------------

variable {head} {inferDirection : Bool} {declaration : Declaration}

theorem flat_callee : ∀ c ∈ head.callee, c ≠ '(' ∧ c ≠ ')' :=
  fun c member => head.flat c (by simp [member])

theorem flat_list : ∀ c ∈ head.before ++ head.behind, c ≠ '(' ∧ c ≠ ')' :=
  fun c member => head.flat c (by simpa using .inr (List.mem_append.mp member))

theorem close_not_mem_opening : ')' ∉ head.opening := by
  intro inside
  rcases List.mem_append.mp inside with callee | list
  · exact (head.flat_callee _ callee).2 rfl
  · rcases List.mem_cons.mp list with same | before
    · exact absurd same (by decide)
    · exact (head.flat_list _ (List.mem_append_left _ before)).2 rfl

/-- Without the comment the head declares the same function. Witness: the list has white space next
to the comment, so the spaces in its place only widen a gap.
-/
theorem declares_bare (declares : Declares inferDirection head.blanked declaration)
    : Declares inferDirection head.bare { declaration with signature := head.bare } := by
  have spaces : ∀ c ∈ List.replicate head.comment.length ' ', c = ' ' :=
    fun c member => List.eq_of_mem_replicate member
  have plain : ∀ c ∈ head.bare, isDelimiter c = false ∧ c ≠ '/' := by
    intro c member
    refine declares.plain c ?_
    rcases List.mem_append.mp member with inside | inside
    all_goals simp [blanked, inside]
  refine ⟨?_, by simp [bare, closing], plain, ?_, rfl⟩
  · obtain ⟨c, first, word⟩ := declares.starts
    refine ⟨c, ?_, word⟩
    rw [blanked, List.append_assoc, List.head?_append_of_ne_nil _ head.opening_ne_nil] at first
    rw [bare, List.head?_append_of_ne_nil _ head.opening_ne_nil, first]
  · have list : head.blanked
        = head.callee
          ++ '(' :: (head.before ++ List.replicate head.comment.length ' ' ++ head.behind
            ++ [')']) := by
      simp [blanked, opening, closing]
    have bareList : head.bare = head.callee ++ '(' :: (head.before ++ head.behind ++ [')']) := by
      simp [bare, opening, closing]
    have flat : ∀ c ∈ head.before ++ List.replicate head.comment.length ' ' ++ head.behind,
        c ≠ '(' ∧ c ≠ ')' := by
      intro c member
      by_cases blank : c = ' '
      · subst blank
        decide
      · refine head.flat_list c ?_
        simpa [blank] using member
    have slashless : '/' ∉ head.bare := fun slash => (plain _ slash).2 rfl
    have declared := declares.declared
    have whole := declares.whole
    rw [list] at declared whole
    rw [bareList] at slashless ⊢
    refine Signature.lastFunction?_respaced (.widen (fun c member => ?_) head.spaced)
      (fun inside => (head.flat_callee _ inside).1 rfl) flat head.flat_list slashless declared whole
    rw [spaces c member]
    decide

--------------------------------------------------------------------------------
-- Where the head without the comment is found
--------------------------------------------------------------------------------

theorem slash_not_mem_bare (declares : Declares inferDirection head.bare declaration)
    : '/' ∉ head.opening ∧ '/' ∉ head.closing := by
  rw [← not_or, ← List.mem_append]
  exact declares.slash_not_mem

theorem bare_ne_nil : head.bare ≠ [] := by
  simp [bare, head.opening_ne_nil]

/-- Behind the opening of the comment the bare head is found where the text of the comment holds it.
Witness: it has no slash, and the list behind the comment opens no parenthesis.
-/
theorem lastIndexOf?_behind (declares : Declares inferDirection head.bare declaration)
    : Text.lastIndexOf? head.bare (head.body ++ '*' :: '/' :: head.closing)
      = Text.lastIndexOf? head.bare head.body := by
  have closing : Text.lastIndexOf? head.bare head.closing = none := by
    refine Text.lastIndexOf?_eq_none fun inside => ?_
    have opened : '(' ∈ head.closing := inside.subset (by simp [bare, opening])
    rcases List.mem_append.mp opened with inner | last
    · exact (head.flat_list _ (List.mem_append_right _ inner)).1 rfl
    · simp at last
  calc Text.lastIndexOf? head.bare (head.body ++ '*' :: '/' :: head.closing)
    _ = Text.lastIndexOf? head.bare ((head.body ++ ['*']) ++ '/' :: head.closing) := by simp
    _ = Text.lastIndexOf? head.bare (head.body ++ ['*']) := by
      rw [Text.lastIndexOf?_separated declares.slash_not_mem head.bare_ne_nil, closing,
        Option.map_none, Option.none_or]
    _ = Text.lastIndexOf? head.bare head.body :=
      Text.lastIndexOf?_append_right declares.ends (by decide) head.body

/-- A bare head in the comment is the last one that is shown. -/
theorem lastIndexOf?_repeated (declares : Declares inferDirection head.bare declaration)
    {part : Text} (found : Text.lastIndexOf? head.bare head.body = some part.length) (front : Text)
    : Text.lastIndexOf? head.bare (front ++ head.written)
      = some (front ++ head.opening ++ "/*".toList ++ part).length := by
  have behind := (lastIndexOf?_behind declares).trans found
  have whole : front ++ head.written
      = (front ++ head.opening ++ "/*".toList) ++ (head.body ++ '*' :: '/' :: head.closing) := by
    simp [written, comment]
  rw [whole, Text.lastIndexOf?_append_left behind, ← List.length_append]

/-- Text is cut in front of a bare head in the comment, inside the comment. -/
theorem beforeLast_repeated (declares : Declares inferDirection head.bare declaration)
    {part rest : Text} (body : head.body = part ++ rest)
    (found : Text.lastIndexOf? head.bare head.body = some part.length) (front : Text)
    : beforeLast head.bare (front ++ head.written)
      = front ++ head.opening ++ "/*".toList ++ part := by
  have whole : front ++ head.written
      = (front ++ head.opening ++ "/*".toList ++ part)
        ++ (rest ++ ("*/".toList ++ head.closing)) := by
    simp [written, comment, body]
  simp only [beforeLast, lastIndexOf?_repeated declares found front]
  rw [whole, List.take_left]

/-- Otherwise a bare head is shown only in front of the head. Witness: it cannot start at the star
of the comment's opening, nor end in front of the comment.
-/
theorem lastIndexOf?_unrepeated (declares : Declares inferDirection head.bare declaration)
    (absent : ¬ head.bare <:+: head.body) (front : Text)
    : Text.lastIndexOf? head.bare (front ++ head.written) = Text.lastIndexOf? head.bare front := by
  have behind : Text.lastIndexOf? head.bare (head.body ++ '*' :: '/' :: head.closing) = none :=
    (lastIndexOf?_behind declares).trans (Text.lastIndexOf?_eq_none absent)
  have star : Text.startsWith head.bare ('*' :: (head.body ++ '*' :: '/' :: head.closing))
      = false := by
    obtain ⟨c, first, word⟩ := declares.starts
    obtain ⟨rest, shape⟩ := List.head?_eq_some_iff.mp first
    rw [Bool.eq_false_iff, ne_eq, Text.startsWith_iff, shape, List.cons_prefix_cons]
    rintro ⟨rfl, -⟩
    exact absurd word (by decide)
  have right : Text.lastIndexOf? head.bare ('*' :: (head.body ++ '*' :: '/' :: head.closing))
      = none := by
    simp [Text.lastIndexOf?, behind, star]
  have whole : front ++ head.written
      = (front ++ head.opening) ++ '/' :: '*' :: (head.body ++ '*' :: '/' :: head.closing) := by
    simp [written, comment]
  rw [whole, Text.lastIndexOf?_separated declares.slash_not_mem head.bare_ne_nil, right,
    Option.map_none, Option.none_or,
    Text.lastIndexOf?_append_right declares.ends head.close_not_mem_opening]

/-- Text without a bare head is cut in front of the end of the list. -/
theorem beforeLast_unrepeated (declares : Declares inferDirection head.bare declaration)
    (absent : ¬ head.bare <:+: head.body) {front : Text} (unopened : '(' ∉ front)
    : beforeLast head.bare (front ++ head.written)
      = front ++ head.opening ++ (head.comment ++ head.behind) := by
  have missing : Text.lastIndexOf? head.bare (front ++ head.written) = none := by
    rw [lastIndexOf?_unrepeated declares absent]
    exact Text.lastIndexOf?_eq_none fun inside => unopened (inside.subset (by simp [bare, opening]))
  have whole : front ++ head.written
      = front ++ head.opening ++ (head.comment ++ head.behind) ++ [')'] := by
    simp [written, closing]
  simp only [beforeLast, missing]
  rw [whole, List.dropLast_concat]

--------------------------------------------------------------------------------
-- Documentation comments in front of a bare head, and of the end of the list
--------------------------------------------------------------------------------

/-- A trailing comment starts behind text without slashes. -/
theorem trailing_suffix {front rest passed indent comment : Text} (slashless : '/' ∉ front)
    (found : Text.findFirst? trailingComment? (front ++ rest) = some (passed, indent, comment))
    : ∃ body gap,
        "/**".toList ++ body ++ "*/".toList ++ gap <:+ rest ∧ IsGap gap := by
  obtain ⟨later, whole, here⟩ := Text.findFirst?_sound found
  obtain ⟨body, gap, rfl, rfl, -, -, isGap⟩ := trailingComment?_eq_some_iff.mp here
  refine ⟨body, gap, ?_, isGap⟩
  have position : "/**".toList ++ body ++ "*/".toList ++ gap <:+ front ++ rest :=
    ⟨passed ++ indent, by rw [whole]; simp⟩
  exact Text.suffix_of_not_mem_left slashless position

/-- A comment that is still open is no trailing comment. Witness: its opening is too short for an
end that stands in front of its text.
-/
theorem findFirst?_open {front part : Text} (slashless : '/' ∉ front) (free : Closeless part)
    : Text.findFirst? trailingComment? (front ++ '/' :: '*' :: part) = none := by
  rw [Option.eq_none_iff_forall_not_mem]
  rintro ⟨passed, indent, comment⟩ found
  obtain ⟨body, gap, suffix, -⟩ := trailing_suffix slashless found
  have size := suffix.length_le
  have close : "*/".toList ++ gap <:+ part := by
    refine List.suffix_of_suffix_length_le
      (List.IsSuffix.trans ⟨"/**".toList ++ body, by simp⟩ suffix) ⟨['/', '*'], rfl⟩ ?_
    have opening : "/**".toList.length = 3 := rfl
    simp only [List.length_append, List.length_cons, opening] at size ⊢
    omega
  exact free (List.IsInfix.trans ⟨[], gap, rfl⟩ close.isInfix)

/-- A trailing comment stands in front of the end of the list exactly if the comment holds the
opening of a documentation comment, with only a gap behind it. -/
theorem exists_trailing_iff {front : Text} (slashless : '/' ∉ front) (plain : '/' ∉ head.behind)
    : (∃ found,
        Text.findFirst? trailingComment? (front ++ (head.comment ++ head.behind)) = some found)
      ↔ head.endsDocumented := by
  constructor
  · rintro ⟨⟨passed, indent, comment⟩, found⟩
    obtain ⟨body, gap, ⟨skipped, whole⟩, isGap⟩ := trailing_suffix slashless found
    have unslashed : '/' ∉ gap := by
      intro slash
      rcases isGap.1 _ slash with blank | feed
      · exact absurd blank (by decide)
      · exact absurd feed (by decide)
    have split : (skipped ++ "/**".toList ++ body ++ ['*']) ++ '/' :: gap
        = ("/*".toList ++ head.body ++ ['*']) ++ '/' :: head.behind := by
      simpa [CommentedHead.comment] using whole
    obtain ⟨text, rfl⟩ := Text.append_cons_unique unslashed plain split
    exact ⟨⟨skipped, body, (List.append_left_inj ['*']).mp text⟩, isGap⟩
  · rintro ⟨⟨skipped, body, whole⟩, gap⟩
    have size := congrArg List.length whole
    have suffix : body <:+ head.body := by
      refine List.suffix_of_suffix_length_le ⟨skipped ++ "/**".toList, whole⟩
        (List.suffix_append "/*".toList head.body) ?_
      simp at size
      omega
    have free := head.closeless.of_isInfix suffix.isInfix
    have here : trailingComment? ([] ++ ("/**".toList ++ body ++ "*/".toList) ++ head.behind)
        = some ([], "/**".toList ++ body ++ "*/".toList) :=
      trailingComment?_eq_some_iff.mpr
        ⟨body, head.behind, rfl, rfl, by simp, free, gap⟩
    obtain ⟨found, later⟩ := Text.findFirst?_isSome here (front ++ skipped)
    refine ⟨found, later ▸ congrArg _ ?_⟩
    calc front ++ (head.comment ++ head.behind)
      _ = front ++ ("/*".toList ++ head.body ++ "*/".toList ++ head.behind) := rfl
      _ = front ++ skipped ++ ([] ++ ("/**".toList ++ body ++ "*/".toList) ++ head.behind) := by
        rw [← whole]
        simp

/-- What is cut off in front of a bare head, or of the end of the list, does not leave only a gap in
front of the head. Witness: a bare head is no start of the head, since no comment is opened in it.
-/
theorem cut_off_ne {gap rest indent : Text}
    (declares : Declares inferDirection head.bare declaration) (isGap : IsGap gap)
    (indented : ∀ c ∈ indent, isBlank c = true) (cut : head.bare <+: rest ∨ ∃ c, rest = [c])
    : gap ++ rest ≠ '\n' :: indent ++ head.written := by
  intro whole
  rcases cut with ⟨later, rfl⟩ | ⟨c, rfl⟩
  · have spaces : ∀ c ∈ gap, isSpace c = true := by
      intro c member
      rcases isGap.1 c member with blank | rfl
      · exact Text.isSpace_of_isBlank blank
      · decide
    have indentSpaces : ∀ c ∈ '\n' :: indent, isSpace c = true :=
      List.forall_mem_cons.mpr
        ⟨by decide, fun c member => Text.isSpace_of_isBlank (indented c member)⟩
    obtain ⟨w, first, word⟩ := declares.starts
    have stop (text : Text) : ∀ c, (head.opening ++ text).head? = some c → isSpace c = false := by
      intro c start
      rw [bare, List.head?_append_of_ne_nil _ head.opening_ne_nil] at first
      rw [List.head?_append_of_ne_nil _ head.opening_ne_nil, first] at start
      obtain rfl : w = c := Option.some.inj start
      exact Text.isSpace_of_isWord word
    have same : head.opening ++ (head.closing ++ later)
        = head.opening ++ (head.comment ++ head.closing) := by
      have dropped := congrArg (List.dropWhile isSpace) whole
      rw [bare, written, List.append_assoc, List.append_assoc head.opening,
        Text.dropWhile_run spaces (stop _), Text.dropWhile_run indentSpaces (stop _)] at dropped
      exact dropped
    have slash : '/' ∈ head.closing := by
      have behind := congrArg List.head? (List.append_cancel_left same)
      have nonempty : head.closing ≠ [] := by simp [closing]
      rw [List.head?_append_of_ne_nil _ nonempty] at behind
      exact List.mem_of_head? behind
    exact (head.slash_not_mem_bare declares).2 slash
  · have opened : '(' ∈ gap := by
      have front := congrArg List.dropLast whole
      have shape : '\n' :: indent ++ head.written
          = ('\n' :: indent ++ head.opening ++ head.comment ++ head.behind) ++ [')'] := by
        simp [written, closing]
      rw [List.dropLast_concat, shape, List.dropLast_concat] at front
      rw [front]
      simp [opening]
    rcases isGap.1 _ opened with blank | feed
    · exact absurd blank (by decide)
    · exact absurd feed (by decide)

end CommentedHead

end DocBlock.Document
