import DocBlock.Block.CommentField
import DocBlock.Proofs.Block.Layout
import DocBlock.Proofs.Comment.Closing
import DocBlock.Proofs.Text.Classes
import DocBlock.Proofs.Text.Scanning

/-! The body of a comment offered as one field. Moving its decoration behind another indentation
neither adds nor removes what follows a star, so the block is one comment.
-/

namespace DocBlock.Block

open Comment (Closeless closeless_append_cons_iff closeless_append_of_no_star
  closeless_append_of_no_slash)
open Snippet (expansion separated)
open Text (isSpace isBlank)

variable {indent : Text}

theorem commentBody_eq {body : Text} (free : Closeless body)
    : commentBody ("/**".toList ++ body ++ "*/".toList) = Text.trim body := by
  have opened : Text.cut? "/**".toList ("/**".toList ++ body ++ "*/".toList)
      = some ([], body ++ "*/".toList) := by
    rw [List.append_assoc]
    exact Text.cut?_append (by simp) _
  have closed : Text.cut? "*/".toList (body ++ "*/".toList) = some (body, []) :=
    @Text.cut?_pair '*' '/' body (by decide) free []
  rw [commentBody, opened]
  dsimp only
  rw [closed]

theorem replacement_eq_self {template : Text} (plain : '\\' ∉ template) (replaced : Text)
    : Text.replacement template replaced = template := by
  refine Text.replaceAll_eq_self fun c later position => ?_
  have other : c ≠ '\\' := by
    rintro rfl
    exact plain (position.subset List.mem_cons_self)
  unfold Text.escape?
  split
  · next same =>
    exact absurd (List.cons.inj same).1 other
  · rfl

/-- A break before decoration at an indentation of blanks holds neither backslashes nor slashes. -/
theorem template_plain (blanks : ∀ c ∈ indent, isBlank c = true) {decoration : Text} {c : Char}
    (outside : isBlank c = false ∧ c ≠ '\n' ∧ c ∉ decoration)
    : c ∉ '\n' :: indent ++ decoration := by
  rw [List.cons_append, List.mem_cons, List.mem_append, not_or, not_or]
  exact ⟨outside.2.1, fun member => by simpa [outside.1] using blanks c member, outside.2.2⟩

/-- A decorated break is a line feed, white space and a star. -/
theorem decoratedBreak?_eq_some_iff (blanks : ∀ c ∈ indent, isBlank c = true)
    {text star rest : Text}
    : decoratedBreak? indent text = some (star, rest)
      ↔ star = '\n' :: indent ++ " *".toList
        ∧ ∃ space, (∀ c ∈ space, isSpace c = true) ∧ text = '\n' :: space ++ '*' :: rest := by
  constructor
  · intro found
    unfold decoratedBreak? at found
    split at found
    · next later =>
      obtain ⟨behind, starred, same⟩ := Option.map_eq_some_iff.mp found
      obtain ⟨rfl, rfl⟩ := Prod.mk.inj same
      rw [Text.drop_length_takeWhile] at starred
      have whole : later.dropWhile isSpace = '*' :: behind := Text.after?_eq_some_iff.mp starred
      refine ⟨replacement_eq_self (template_plain blanks (by decide)) _,
        later.takeWhile isSpace, fun c => List.mem_takeWhile_imp, ?_⟩
      rw [List.cons_append, ← whole, List.takeWhile_append_dropWhile]
    · contradiction
  · rintro ⟨rfl, space, spaces, rfl⟩
    have run : (space ++ '*' :: rest).takeWhile isSpace = space :=
      Text.takeWhile_run spaces (by rintro c ⟨⟩; decide)
    have plain (replaced : Text)
        : Text.replacement ('\n' :: indent ++ " *".toList) replaced
          = '\n' :: indent ++ " *".toList :=
      replacement_eq_self (template_plain blanks (by decide)) replaced
    simp only [List.cons_append] at plain
    simp only [List.cons_append, decoratedBreak?, run, List.drop_left, Text.after?, if_true,
      Option.map_some, plain]

/-- The body with the decoration of every line behind an indentation. -/
def moved (indent body : Text) : Text :=
  Text.replaceAll (decoratedBreak? indent) body

theorem moved_of_none {c : Char} {rest : Text} (fails : decoratedBreak? indent (c :: rest) = none)
    : moved indent (c :: rest) = c :: moved indent rest :=
  Text.replaceAll_cons_of_none fails

theorem moved_break (blanks : ∀ c ∈ indent, isBlank c = true) {space : Text}
    (spaces : ∀ c ∈ space, isSpace c = true) (rest : Text)
    : moved indent ('\n' :: space ++ '*' :: rest)
      = '\n' :: (indent ++ [' ']) ++ '*' :: moved indent rest := by
  have shape : '\n' :: space ++ '*' :: rest = '\n' :: space ++ ['*'] ++ rest := by simp
  have found : decoratedBreak? indent ('\n' :: space ++ ['*'] ++ rest)
      = some ('\n' :: indent ++ " *".toList, rest) :=
    (decoratedBreak?_eq_some_iff blanks).mpr ⟨rfl, space, spaces, shape.symm⟩
  rw [moved, shape, Text.replaceAll_of_some found (by simp), moved]
  simp

/-- A text is read from the left: it is empty, or its first character stays, or it starts with a
decorated break. The induction is on the length of the text. -/
@[elab_as_elim]
theorem induction_on_breaks (blanks : ∀ c ∈ indent, isBlank c = true) {motive : Text → Prop}
    (text : Text) (empty : motive [])
    (other : ∀ c rest, decoratedBreak? indent (c :: rest) = none → motive rest → motive (c :: rest))
    (decorated : ∀ space rest,
      (∀ c ∈ space, isSpace c = true) → motive rest → motive ('\n' :: space ++ '*' :: rest))
    : motive text := by
  induction size : text.length using Nat.strong_induction_on generalizing text with
  | _ n ih =>
      cases text with
      | nil => exact empty
      | cons c rest =>
          cases read : decoratedBreak? indent (c :: rest) with
          | none => exact other c rest read (ih rest.length (by simp [← size]) rest rfl)
          | some result =>
              obtain ⟨-, space, spaces, shape⟩ := (decoratedBreak?_eq_some_iff blanks).mp read
              rw [shape] at size ⊢
              refine decorated space result.2 spaces (ih result.2.length ?_ result.2 rfl)
              simp [← size]
              omega

/-- Moving the decoration of every line adds no comment end, and no slash at the start: what follows
a star is what followed it before. -/
theorem closeless_moved (blanks : ∀ c ∈ indent, isBlank c = true) {text : Text}
    (free : Closeless text)
    : Closeless (moved indent text)
      ∧ ((moved indent text).head? = some '/' → text.head? = some '/') := by
  induction text using induction_on_breaks blanks with
  | empty => exact ⟨Closeless.nil, by simp [moved]⟩
  | other c rest fails ih =>
      obtain ⟨tail, start⟩ := ih (free.of_isInfix (List.suffix_cons c rest).isInfix)
      rw [moved_of_none fails]
      refine ⟨?_, by simp⟩
      rw [← List.singleton_append, Comment.closeless_append_iff] at free ⊢
      exact ⟨free.1, tail, fun joint => free.2.2 ⟨joint.1, start joint.2⟩⟩
  | decorated space rest spaces ih =>
      have split (front later : Text) : front ++ '*' :: later = front ++ ['*'] ++ later := by simp
      rw [split] at free
      obtain ⟨-, behind, joint⟩ := Comment.closeless_append_iff.mp free
      obtain ⟨tail, start⟩ := ih behind
      have slash : '/' ∉ '\n' :: (indent ++ [' ']) ++ ['*'] := by
        simpa using template_plain blanks (by decide : _ ∧ _ ∧ '/' ∉ " *".toList)
      rw [moved_break blanks spaces, split, Comment.closeless_append_iff]
      refine ⟨⟨Closeless.of_no_slash slash, tail, fun arises => ?_⟩, by simp⟩
      exact joint ⟨List.getLast?_concat, start arises.2⟩

/-- A leading star stands behind white space, and the white space behind it belongs to it. -/
theorem leadingStar?_eq_some_iff (blanks : ∀ c ∈ indent, isBlank c = true) {body star rest : Text}
    : leadingStar? indent body = some (star, rest)
      ↔ star = '\n' :: indent ++ " * ".toList
        ∧ (∀ c, rest.head? = some c → isSpace c = false)
        ∧ ∃ before behind,
            (∀ c ∈ before ++ behind, isSpace c = true)
            ∧ body = before ++ '*' :: (behind ++ rest) := by
  have plain (replaced : Text)
      : Text.replacement ('\n' :: indent ++ " * ".toList) replaced
        = '\n' :: indent ++ " * ".toList :=
    replacement_eq_self (template_plain blanks (by decide)) replaced
  constructor
  · intro found
    obtain ⟨later, starred, same⟩ := Option.map_eq_some_iff.mp found
    obtain ⟨rfl, rfl⟩ := Prod.mk.inj same
    rw [Text.drop_length_takeWhile] at starred ⊢
    have whole : body.dropWhile isSpace = '*' :: later := Text.after?_eq_some_iff.mp starred
    refine ⟨plain _, fun c => Text.head?_dropWhile, body.takeWhile isSpace,
      later.takeWhile isSpace, ?_, ?_⟩
    · exact List.forall_mem_append.mpr
        ⟨fun c => List.mem_takeWhile_imp, fun c => List.mem_takeWhile_imp⟩
    · rw [List.takeWhile_append_dropWhile, ← whole, List.takeWhile_append_dropWhile]
  · rintro ⟨rfl, start, before, behind, spaces, rfl⟩
    obtain ⟨left, right⟩ := List.forall_mem_append.mp spaces
    have front : (before ++ '*' :: (behind ++ rest)).takeWhile isSpace = before :=
      Text.takeWhile_run left (by rintro c ⟨⟩; decide)
    have middle : (behind ++ rest).takeWhile isSpace = behind := Text.takeWhile_run right start
    simp only [leadingStar?, front, List.drop_left, Text.after?, if_true, Option.map_some, middle,
      plain]

theorem closeless_redecorated (blanks : ∀ c ∈ indent, isBlank c = true) {body : Text}
    (free : Closeless body)
    : Closeless (redecorated indent body) := by
  obtain ⟨inside, -⟩ := closeless_moved blanks free
  unfold redecorated
  dsimp only
  rw [← moved]
  generalize moved indent body = body at inside
  split
  · next star rest found =>
    obtain ⟨rfl, -, before, behind, -, whole⟩ := (leadingStar?_eq_some_iff blanks).mp found
    have tail : rest <:+ body := ⟨before ++ '*' :: behind, by simp [whole]⟩
    have template : '/' ∉ '\n' :: indent ++ " *".toList := template_plain blanks (by decide)
    have shape : '\n' :: indent ++ " * ".toList ++ rest
        = '\n' :: indent ++ " *".toList ++ ' ' :: rest := by
      simp
    rw [shape, closeless_append_cons_iff (by decide)]
    exact ⟨Closeless.of_no_slash template, inside.of_isInfix tail.isInfix⟩
  · exact inside

theorem separated_commentField (indent lead comment : Text) (rest : Snippet)
    : separated (commentField indent lead comment ++ rest) = separated rest := by
  unfold commentField
  dsimp only
  split <;> simp [separated, Snippet.opensWithDigit]

/-- What stands between the body and the end of its block: a line feed and the indentation if the
body has several lines, and a space. -/
def closingGap (indent contents : Text) : Text :=
  (if Text.contains ['\n'] contents then '\n' :: indent else []) ++ [' ']

theorem spaces_closingGap (blanks : ∀ c ∈ indent, isBlank c = true) (contents : Text)
    : ∀ c ∈ closingGap indent contents, isSpace c = true := by
  unfold closingGap
  split
  · refine List.forall_mem_append.mpr ⟨List.forall_mem_cons.mpr ⟨by decide, ?_⟩, by decide⟩
    exact fun c member => Text.isSpace_of_isBlank (blanks c member)
  · decide

/-- The text of the block of a comment. -/
theorem expansion_commentField (indent lead comment : Text)
    : expansion (commentField indent lead comment)
      = lead
        ++ ("/**".toList
          ++ (' ' :: (redecorated indent (commentBody comment)
            ++ closingGap indent (redecorated indent (commentBody comment))))
          ++ "*/".toList) := by
  simp [commentField, closingGap]

theorem commentField_ends (indent lead comment : Text)
    : ∃ text, expansion (commentField indent lead comment) = text ++ "*/".toList := by
  rw [expansion_commentField, ← List.append_assoc]
  exact ⟨_, rfl⟩

/-- The text in front of the end of a block has no comment end. -/
theorem closeless_contents (blanks : ∀ c ∈ indent, isBlank c = true) {contents : Text}
    (free : Closeless contents)
    : Closeless (' ' :: (contents ++ closingGap indent contents)) := by
  have slash : '/' ∉ closingGap indent contents :=
    fun member => absurd (spaces_closingGap blanks contents _ member) (by decide)
  rw [← List.singleton_append, closeless_append_of_no_star (by decide),
    closeless_append_of_no_slash slash]
  exact free

/-- The block of a comment is one comment if the body of the comment has no comment end. -/
theorem isDocBlock_commentField (blanks : ∀ c ∈ indent, isBlank c = true) {lead comment : Text}
    (before : ∀ c ∈ lead, isBlank c = true) (free : Closeless (commentBody comment))
    : Comment.isDocBlock
        ((expansion (commentField indent lead comment)).dropWhile isBlank) = true := by
  have contents := closeless_contents blanks (closeless_redecorated blanks free)
  have opened (rest : Text) : (lead ++ ("/**".toList ++ rest ++ "*/".toList)).dropWhile isBlank
      = "/**".toList ++ rest ++ "*/".toList :=
    Text.dropWhile_run before (by rintro c ⟨⟩; decide)
  rw [expansion_commentField, opened, Comment.isDocBlock_iff, Comment.close_infix_cons_iff, not_or]
  exact ⟨by simp, contents⟩

end DocBlock.Block
