import DocBlock.Proofs.Comment.Masking
import DocBlock.Proofs.Document.Position
import DocBlock.Proofs.Text.Runs

/-! What precedes the target of a window. It is always a stretch of the text that the window shows,
so a comment found at its end stands in the document.
-/

namespace DocBlock.Document

open Text (isBlank isSpace)

/-- A front that is masked by itself, and ends no statement then, belongs to the first statement.
Witness: the search for a statement end passes over it.
-/
theorem firstStatement_masked {front masked rest : Text}
    (masks : Comment.mask (front ++ rest) = masked ++ Comment.mask rest)
    (size : masked.length = front.length)
    (unended : ∀ c later, c :: later <:+ masked
      → statementEnd? (c :: later ++ Comment.mask rest) = none)
    : firstStatement (front ++ rest) = front ++ firstStatement rest := by
  rw [firstStatement, masks, Text.findFirst?_append unended, firstStatement]
  cases Text.findFirst? statementEnd? (Comment.mask rest) with
  | none => rfl
  | some found =>
      obtain ⟨before, kept⟩ := found
      simp only [Option.map_some, List.length_append, size]
      rw [Nat.add_assoc, List.take_append, Nat.add_sub_cancel_left,
        List.take_of_length_le (Nat.le_add_right _ _)]

/-- A front that opens no comment and ends no statement belongs to the first statement. -/
theorem firstStatement_append {front rest : Text} (clean : Comment.OpensNone front)
    (unended : ∀ c later, c :: later <:+ front
      → statementEnd? (c :: later ++ Comment.mask rest) = none)
    : firstStatement (front ++ rest) = front ++ firstStatement rest :=
  firstStatement_masked (Comment.mask_append clean rest) rfl unended

theorem statementEnd?_eq_none {c : Char} (plain : c ≠ ';' ∧ c ≠ '#' ∧ c ≠ ')') (rest : Text)
    : statementEnd? (c :: rest) = none := by
  simp [statementEnd?, plain]

/-- A block comment belongs to the first statement. -/
theorem firstStatement_block {body : Text} (free : ¬ "*/".toList <:+: body) (rest : Text)
    : firstStatement ("/*".toList ++ body ++ "*/".toList ++ rest)
      = "/*".toList ++ body ++ "*/".toList ++ firstStatement rest := by
  refine firstStatement_masked (Comment.mask_block_append free rest) (List.length_map _)
    fun c later position => statementEnd?_eq_none ?_ _
  rcases Comment.mem_blankOut (position.subset List.mem_cons_self) with rfl | rfl <;> decide

/-- The blanks at the start of the first line belong to the first statement. -/
theorem indentation_prefix_firstStatement (text : Text)
    : Text.indentation (text.takeWhile (· ≠ '\n')) <+: firstStatement text := by
  have blanks {c : Char} (member : c ∈ text.takeWhile isBlank) : c = ' ' ∨ c = '\t' := by
    simpa [isBlank] using List.mem_takeWhile_imp member
  have line : Text.indentation (text.takeWhile (· ≠ '\n')) = text.takeWhile isBlank := by
    rw [Text.indentation, List.takeWhile_takeWhile]
    congr 1
    funext c
    by_cases feed : c = '\n'
    · subst feed
      decide
    · simp [feed]
  have clean : Comment.OpensNone (text.takeWhile isBlank) :=
    Comment.OpensNone.of_not_mem fun member => by simpa using blanks member
  have whole : firstStatement (text.takeWhile isBlank ++ text.dropWhile isBlank)
      = text.takeWhile isBlank ++ firstStatement (text.dropWhile isBlank) := by
    refine firstStatement_append clean fun c later position => ?_
    refine statementEnd?_eq_none ?_ _
    rcases blanks (position.subset List.mem_cons_self) with rfl | rfl <;> decide
  rw [List.takeWhile_append_dropWhile] at whole
  rw [line, whole]
  exact List.prefix_append _ _

theorem beforeLast_isPrefix (pattern text : Text) : beforeLast pattern text <+: text := by
  unfold beforeLast
  split
  · exact List.take_prefix _ text
  · exact List.dropLast_prefix text

/-- What is cut off a text starts with the pattern, or is its last character. -/
theorem exists_cut_off (pattern : Text) {text : Text} (nonempty : text ≠ [])
    : ∃ rest,
        text = beforeLast pattern text ++ rest
        ∧ (pattern <+: rest ∨ ∃ c, rest = [c]) := by
  unfold beforeLast
  split
  · next i found =>
    obtain ⟨front, later, rfl, rfl⟩ := Text.lastIndexOf?_sound found
    refine ⟨pattern ++ later, ?_, .inl (List.prefix_append _ _)⟩
    rw [List.append_assoc, List.take_left]
  · exact ⟨[text.getLast nonempty], (List.dropLast_concat_getLast nonempty).symm, .inr ⟨_, rfl⟩⟩

/-- What precedes the target is a stretch of what the window shows. Witness: it ends inside the
first statement, and it starts at a delimiter before the cursor.
-/
theorem Window.preceding_isInfix (window : Window) (inferDirection : Bool)
    : (window.target inferDirection).preceding <:+: window.shown := by
  have suffix := Comment.sinceLastDelimiter_isSuffix window.before
  have joined {front : Text} (start : front <+: firstStatement window.after)
      : Comment.sinceLastDelimiter window.before ++ front <:+: window.shown := by
    obtain ⟨earlier, whole⟩ := suffix
    obtain ⟨later, rest⟩ := start
    refine ⟨earlier, later, ?_⟩
    calc earlier ++ (Comment.sinceLastDelimiter window.before ++ front) ++ later
      _ = (earlier ++ Comment.sinceLastDelimiter window.before) ++ (front ++ later) := by simp
      _ = window.shown := by rw [whole, rest, Window.shown]
  have indented := joined (indentation_prefix_firstStatement window.after)
  simp only [Window.target]
  split
  · exact indented
  · split
    · exact (beforeLast_isPrefix _ _).isInfix.trans (joined List.prefix_rfl)
    · exact indented

/-- Blanks and at most one line feed: what may stand between a comment and what it documents. -/
def IsGap (text : Text) : Prop :=
  (∀ c ∈ text, isBlank c = true ∨ c = '\n') ∧ text.count '\n' ≤ 1

instance : DecidablePred IsGap :=
  fun text => inferInstanceAs
    (Decidable ((∀ c ∈ text, isBlank c = true ∨ c = '\n') ∧ text.count '\n' ≤ 1))

theorem IsGap.feed {text : Text} (blanks : ∀ c ∈ text, isBlank c = true)
    : IsGap ('\n' :: text) := by
  have unbroken : '\n' ∉ text := fun feed => absurd (blanks _ feed) (by decide)
  refine ⟨List.forall_mem_cons.mpr ⟨.inr rfl, fun c member => .inl (blanks c member)⟩, ?_⟩
  rw [List.count_cons_self, List.count_eq_zero.mpr unbroken]

/-- Blanks in front of a gap belong to it. -/
theorem isGap_append_blanks {blanks rest : Text} (inside : ∀ c ∈ blanks, isBlank c = true)
    : IsGap (blanks ++ rest) ↔ IsGap rest := by
  have unbroken : '\n' ∉ blanks := fun feed => absurd (inside _ feed) (by decide)
  rw [IsGap, IsGap, List.forall_mem_append, List.count_append, List.count_eq_zero.mpr unbroken,
    Nat.zero_add]
  exact and_congr_left' ⟨And.right, fun gap => ⟨fun c member => .inl (inside c member), gap⟩⟩

/-- Behind its blanks a gap is empty, or a line feed and more blanks. -/
theorem isGap_iff {rest : Text} (outside : ∀ c, rest.head? = some c → isBlank c = false)
    : IsGap rest ↔ ((Text.after? ['\n'] rest).getD rest).all isBlank = true := by
  cases rest with
  | nil => simp [IsGap, Text.after?]
  | cons c later =>
      have stop : isBlank c = false := outside c rfl
      by_cases feed : c = '\n'
      · subst feed
        have fed : Text.after? ['\n'] ('\n' :: later) = some later :=
          Text.after?_append ['\n'] later
        rw [fed, Option.getD_some, List.all_eq_true]
        refine ⟨fun gap d member => ?_, IsGap.feed⟩
        have alone : '\n' ∉ later := by
          have feeds := gap.2
          rw [List.count_cons_self] at feeds
          exact List.count_eq_zero.mp (by omega)
        rcases gap.1 d (List.mem_cons_of_mem _ member) with blank | rfl
        · exact blank
        · exact absurd member alone
      · have unfed : Text.after? ['\n'] (c :: later) = none := Text.after?_cons_of_ne feed [] later
        have foreign : ¬ IsGap (c :: later) := by
          intro gap
          rcases gap.1 c List.mem_cons_self with blank | same
          · simp [stop] at blank
          · exact feed same
        simp [foreign, unfed, stop]

/-- A trailing comment stands behind its blanks, reaches to the first comment end behind its
opening, and has only a gap behind it. -/
theorem trailingComment?_eq_some_iff {text indent comment : Text}
    : trailingComment? text = some (indent, comment)
      ↔ ∃ body rest,
          text = indent ++ comment ++ rest
          ∧ comment = "/**".toList ++ body ++ "*/".toList
          ∧ (∀ c ∈ indent, isBlank c = true)
          ∧ ¬ "*/".toList <:+: body
          ∧ IsGap rest := by
  have gap_iff (rest : Text) : IsGap rest
      ↔ ((Text.after? ['\n'] (rest.dropWhile isBlank)).getD (rest.dropWhile isBlank)).all isBlank
        = true := by
    have parts := @isGap_append_blanks (rest.takeWhile isBlank) (rest.dropWhile isBlank)
      (fun c member => List.mem_takeWhile_imp member)
    rw [List.takeWhile_append_dropWhile] at parts
    exact parts.trans (isGap_iff fun c first => Text.head?_dropWhile first)
  simp only [trailingComment?, Option.bind_eq_bind, Option.bind_eq_some_iff, Prod.exists,
    Option.ite_none_right_eq_some, Option.some.injEq, Prod.mk.injEq, ← gap_iff]
  constructor
  · rintro ⟨opened, start, body, later, cut, gap, rfl, rfl⟩
    obtain ⟨whole, free⟩ := @Text.cut?_pair_sound '*' '/' _ _ _ cut
    refine ⟨body, later, ?_, rfl, fun c member => List.mem_takeWhile_imp member, free, gap⟩
    calc text = text.takeWhile isBlank ++ text.dropWhile isBlank :=
        List.takeWhile_append_dropWhile.symm
      _ = text.takeWhile isBlank ++ ("/**".toList ++ opened) := by
        rw [Text.after?_eq_some_iff.mp start]
      _ = text.takeWhile isBlank ++ ("/**".toList ++ body ++ "*/".toList) ++ later := by
        rw [whole]
        simp
  · rintro ⟨body, rest, rfl, rfl, blanks, free, gap⟩
    have outside : ∀ c, ("/**".toList ++ body ++ "*/".toList ++ rest).head? = some c
        → isBlank c = false := by
      intro c first
      obtain rfl : '/' = c := by simpa using first
      decide
    rw [List.append_assoc indent, Text.takeWhile_run blanks outside,
      Text.dropWhile_run blanks outside]
    refine ⟨body ++ '*' :: '/' :: rest, Text.after?_eq_some_iff.mpr (by simp), body, rest, ?_, gap,
      rfl, rfl⟩
    exact Text.cut?_pair (by decide) free rest

/-- A trailing comment is read behind its blanks, up to the first comment end behind its
opening. -/
theorem trailingComment?_sound {text indent comment : Text}
    (found : trailingComment? text = some (indent, comment))
    : ∃ body rest,
        text = indent ++ comment ++ rest
        ∧ comment = "/**".toList ++ body ++ "*/".toList
        ∧ (∀ c ∈ indent, isBlank c = true)
        ∧ ¬ "*/".toList <:+: body := by
  obtain ⟨body, rest, whole, shape, blanks, free, -⟩ := trailingComment?_eq_some_iff.mp found
  exact ⟨body, rest, whole, shape, blanks, free⟩

/-- A comment found before the target is shown in the window. -/
theorem Window.comment_isInfix {window : Window} {inferDirection : Bool}
    {passed indent comment : Text}
    (found : Text.findFirst? trailingComment? (window.target inferDirection).preceding
      = some (passed, indent, comment))
    : comment <:+: window.shown := by
  obtain ⟨rest, whole, here⟩ := Text.findFirst?_sound found
  obtain ⟨body, later, shape, -⟩ := trailingComment?_sound here
  refine List.IsInfix.trans ⟨passed ++ indent, later, ?_⟩
    (window.preceding_isInfix inferDirection)
  rw [whole, shape]
  simp

/-- A declaration at the cursor is the last macro of the cursor line, or the function or
function-pointer type of a head. -/
theorem Window.declaration_source {window : Window} {inferDirection : Bool}
    {declaration : Declaration}
    (found : (window.target inferDirection).declaration = some declaration)
    : Signature.lastMacro? inferDirection window.line = some declaration
      ∨ ∃ head,
          Signature.lastFunction? inferDirection head = some declaration
          ∨ Signature.functionPointerType? inferDirection head = some declaration := by
  unfold Window.target at found
  dsimp only at found
  split at found
  · exact .inl found
  · split at found
    · next head _ =>
      rw [Option.orElse_eq_orElse, Option.orElse_eq_or, Option.or_eq_some_iff] at found
      exact .inr ⟨head, found.imp_right And.right⟩
    · contradiction

variable {style : Style} {document : Text} {line : Int}

/-- A comment before the target is replaced. -/
theorem generateAt_of_comment {passed indent comment : Text}
    (found : Text.findFirst? trailingComment?
        ((window style document line).target style.inferDirection).preceding
      = some (passed, indent, comment))
    : generateAt style document line
      = replaceComment style document
          ((window style document line).start
            + (Text.lastIndexOf? comment (window style document line).shown).getD 0)
          indent comment
          ((window style document line).target style.inferDirection).declaration := by
  simp only [generateAt, found]
  rfl

/-- Without a comment before the target a block goes above its declaration. -/
theorem generateAt_of_declaration {declaration : Declaration}
    (missing : Text.findFirst? trailingComment?
        ((window style document line).target style.inferDirection).preceding
      = none)
    (declared : ((window style document line).target style.inferDirection).declaration
      = some declaration)
    : generateAt style document line
      = insertAbove style document
          (match Text.lastIndexOf? declaration.signature (window style document line).shown with
            | some i => (window style document line).start + i
            | none => (window style document line).cursor)
          declaration := by
  simp only [generateAt, missing, declared]
  rfl

theorem generateAt_bare
    (missing : Text.findFirst? trailingComment?
        ((window style document line).target style.inferDirection).preceding
      = none)
    (undeclared : ((window style document line).target style.inferDirection).declaration = none)
    : generateAt style document line
      = insertBare document (window style document line).cursor
          (window style document line).line := by
  simp only [generateAt, missing, undeclared]

/-- A generated comment comes with the declaration at the cursor, merged with the comment before it
if there is one. -/
theorem exists_target_of_generate {declaration : Declaration}
    (found : (generate style document line).declaration = some declaration)
    : ∃ own,
        ((window style (Text.normaliseBreaks document) line).target
          style.inferDirection).declaration = some own
        ∧ (declaration = own
          ∨ ∃ comment,
              declaration = own.merge true (Documentation.read style.inferDirection comment)) := by
  rw [generate] at found
  generalize Text.normaliseBreaks document = document at found ⊢
  cases declared : ((window style document line).target
      style.inferDirection).declaration with
  | none =>
      cases before : Text.findFirst? trailingComment?
          ((window style document line).target style.inferDirection).preceding with
      | none =>
          rw [generateAt_bare before declared] at found
          cases found
      | some result =>
          rw [generateAt_of_comment before, declared] at found
          cases found
  | some own =>
      refine ⟨own, rfl, ?_⟩
      cases before : Text.findFirst? trailingComment?
          ((window style document line).target style.inferDirection).preceding with
      | none =>
          rw [generateAt_of_declaration before declared] at found
          exact .inl (Option.some.inj found).symm
      | some result =>
          rw [generateAt_of_comment before, declared] at found
          exact .inr ⟨result.2.2, (Option.some.inj found).symm⟩

end DocBlock.Document
