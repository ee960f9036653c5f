import DocBlock.Proofs.Text.Runs
import DocBlock.Proofs.Text.Search

/-! One documentation comment as a reader of source text meets it: the first `*/` that starts at
least two characters after the opening closes it.
-/

namespace DocBlock.Comment

/-- The text is one documentation comment: it starts with `/**`, and the first `*/` from the second
star on ends the text. -/
def isDocBlock (text : Text) : Bool :=
  match Text.after? "/*".toList text with
  | some rest =>
    Text.startsWith ['*'] rest
      && ((Text.cut? "*/".toList rest).map fun (_, later) => later.isEmpty) = some true
  | none => false

/-- A text between an opening and an end is one comment exactly if no end stands in it, not even
one that the second star of the opening starts. -/
theorem isDocBlock_iff (body : Text)
    : isDocBlock ("/**".toList ++ body ++ "*/".toList) = true
      ↔ ¬ "*/".toList <:+: '*' :: body := by
  have opened : Text.after? "/*".toList ("/**".toList ++ body ++ "*/".toList)
      = some ('*' :: body ++ "*/".toList) :=
    Text.after?_eq_some_iff.mpr (by simp)
  have starred : Text.startsWith ['*'] ('*' :: body ++ "*/".toList) = true :=
    Text.startsWith_iff.mpr ⟨_, rfl⟩
  simp only [isDocBlock, opened, starred, Bool.true_and, decide_eq_true_eq]
  constructor
  · intro closed inside
    obtain ⟨⟨before, later⟩, cut, empty⟩ := Option.map_eq_some_iff.mp closed
    obtain ⟨whole, free⟩ := @Text.cut?_pair_sound '*' '/' _ _ _ cut
    obtain rfl : later = [] := by simpa using empty
    obtain rfl : '*' :: body = before := List.append_inj_left' whole rfl
    exact free inside
  · intro free
    have cut := @Text.cut?_pair '*' '/' _ (by decide) free []
    rw [Option.map_eq_some_iff]
    exact ⟨('*' :: body, []), cut, rfl⟩

/-- The second star of an opening starts an end only if a slash follows it. -/
theorem close_infix_cons_iff {body : Text}
    : "*/".toList <:+: '*' :: body ↔ body.head? = some '/' ∨ "*/".toList <:+: body := by
  have joint := @Text.pair_infix_append '*' '/' ['*'] body
  have single : ¬ ['*', '/'] <:+: ['*'] := by decide
  simpa [single, or_comm] using joint

/-- No comment end occurs in the text. -/
def Closeless (text : Text) : Prop :=
  ¬ "*/".toList <:+: text

instance : DecidablePred Closeless :=
  fun text => inferInstanceAs (Decidable (¬ "*/".toList <:+: text))

@[simp]
theorem Closeless.nil : Closeless [] := by
  simp [Closeless]

/-- A part of a text without a comment end has none. -/
theorem Closeless.of_isInfix {part text : Text} (free : Closeless text) (inside : part <:+: text)
    : Closeless part :=
  fun close => free (close.trans inside)

theorem Closeless.of_no_star {text : Text} (absent : '*' ∉ text) : Closeless text :=
  fun close => absent (close.subset (by simp))

theorem Closeless.of_no_slash {text : Text} (absent : '/' ∉ text) : Closeless text :=
  fun close => absent (close.subset (by simp))

/-- A joined text has no comment end exactly if neither part has one and none arises at the
joint. -/
theorem closeless_append_iff {left right : Text}
    : Closeless (left ++ right)
      ↔ Closeless left
        ∧ Closeless right
        ∧ ¬ (left.getLast? = some '*' ∧ right.head? = some '/') := by
  have joint := not_congr (@Text.pair_infix_append '*' '/' left right)
  rwa [not_or, not_or] at joint

theorem Closeless.append {left right : Text} (first : Closeless left) (second : Closeless right)
    (start : right.head? ≠ some '/')
    : Closeless (left ++ right) :=
  closeless_append_iff.mpr ⟨first, second, fun joint => start joint.2⟩

/-- A separator between two texts keeps a star from a slash. -/
theorem closeless_append_cons_iff {left right : Text} {c : Char} (separator : c ≠ '*' ∧ c ≠ '/')
    : Closeless (left ++ c :: right) ↔ Closeless left ∧ Closeless right := by
  have single : Closeless (c :: right) ↔ Closeless right := by
    rw [← List.singleton_append, closeless_append_iff]
    have alone : Closeless [c] :=
      Closeless.of_no_star (by simpa using separator.1.symm)
    simp [alone, separator.1]
  rw [closeless_append_iff, single]
  simp [separator.2]

/-- Text without stars in front starts no comment end. -/
theorem closeless_append_of_no_star {left right : Text} (absent : '*' ∉ left)
    : Closeless (left ++ right) ↔ Closeless right := by
  have last : left.getLast? ≠ some '*' := fun star => absent (List.mem_of_getLast? star)
  rw [closeless_append_iff]
  simp [Closeless.of_no_star absent, last]

/-- Text without slashes behind completes no comment end. -/
theorem closeless_append_of_no_slash {left right : Text} (absent : '/' ∉ right)
    : Closeless (left ++ right) ↔ Closeless left := by
  have start : right.head? ≠ some '/' := fun slash => absent (List.mem_of_head? slash)
  rw [closeless_append_iff]
  simp [Closeless.of_no_slash absent, start]

/-- Behind a text without a comment end there is one place for a comment end. -/
theorem Closeless.eq_nil_of_close {text before later : Text} (free : Closeless text)
    (whole : text ++ "*/".toList = before ++ "*/".toList ++ later)
    : later = [] := by
  by_contra nonempty
  obtain ⟨inner, last, rfl⟩ := (List.eq_nil_or_concat later).resolve_left nonempty
  have split : text ++ ['*'] ++ ['/'] = before ++ "*/".toList ++ inner ++ [last] := by
    simpa using whole
  have earlier := (@closeless_append_of_no_slash text ['*'] (by decide)).mpr free
  exact earlier ⟨before, inner, (List.append_inj_left' split rfl).symm⟩

/-- Joining by a separator neither adds nor hides a comment end, by induction on the parts. -/
theorem closeless_join_iff {c : Char} (separator : c ≠ '*' ∧ c ≠ '/') (parts : List Text)
    : Closeless (Text.join [c] parts) ↔ ∀ part ∈ parts, Closeless part := by
  induction parts with
  | nil => simp [Text.join]
  | cons part rest ih =>
      cases rest with
      | nil => simp [Text.join]
      | cons next rest =>
          have whole : Text.join [c] (part :: next :: rest)
              = part ++ c :: Text.join [c] (next :: rest) := by
            simp [Text.join]
          rw [whole, closeless_append_cons_iff separator, ih]
          simp only [List.forall_mem_cons]

/-- White space around a text holds no part of a comment end. -/
theorem closeless_trim_iff {text : Text} : Closeless (Text.trim text) ↔ Closeless text := by
  have ordinary {c : Char} (space : Text.isSpace c = true) : c ≠ '*' ∧ c ≠ '/' := by
    constructor <;> (rintro rfl; exact absurd space (by decide))
  obtain ⟨tail, whole, spaces⟩ :=
    Text.exists_dropEndWhile Text.isSpace (text.dropWhile Text.isSpace)
  have front : Closeless text ↔ Closeless (text.dropWhile Text.isSpace) := by
    conv_lhs => rw [← @List.takeWhile_append_dropWhile _ Text.isSpace text]
    rw [closeless_append_iff]
    have run {c : Char} (member : c ∈ text.takeWhile Text.isSpace) : c ≠ '*' ∧ c ≠ '/' :=
      ordinary (List.mem_takeWhile_imp member)
    have free : Closeless (text.takeWhile Text.isSpace) :=
      Closeless.of_no_star fun member => (run member).1 rfl
    have last : (text.takeWhile Text.isSpace).getLast? ≠ some '*' :=
      fun star => (run (List.mem_of_getLast? star)).1 rfl
    simp [free, last]
  have free : Closeless tail := Closeless.of_no_star fun star => (ordinary (spaces _ star)).1 rfl
  have start : tail.head? ≠ some '/' :=
    fun slash => (ordinary (spaces _ (List.mem_of_head? slash))).2 rfl
  rw [front, whole, closeless_append_iff]
  simp [Text.trim, Text.trimBy, free, start]

end DocBlock.Comment
