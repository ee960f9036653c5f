import DocBlock.Text.Basic
import Mathlib.Data.List.TakeWhile

/-! Maximal runs of a class of characters at either end of a text. -/

namespace DocBlock.Text

/-- Whether all characters of a text have a property is decided by going through the text, and not
through all characters there are. -/
instance (priority := high) decidableForallMem {property : Char → Prop} [DecidablePred property]
    (text : Text)
    : Decidable (∀ c ∈ text, property c) :=
  List.decidableBAll property text

instance (priority := high) decidableForallMemOption {property : Char → Prop}
    [DecidablePred property] (found : Option Char)
    : Decidable (∀ c ∈ found, property c) :=
  Option.decidableForallMem found

variable {p : Char → Bool}

/-- A run ends where the next character lies outside its class. -/
theorem takeWhile_run {front rest : Text} (inside : ∀ c ∈ front, p c = true)
    (outside : ∀ c, rest.head? = some c → p c = false)
    : (front ++ rest).takeWhile p = front := by
  rw [List.takeWhile_append_of_pos inside]
  cases rest with
  | nil => simp
  | cons c rest => simp [outside c rfl]

/-- Dropping a run leaves what follows it. -/
theorem dropWhile_run {front rest : Text} (inside : ∀ c ∈ front, p c = true)
    (outside : ∀ c, rest.head? = some c → p c = false)
    : (front ++ rest).dropWhile p = rest := by
  rw [List.dropWhile_append_of_pos inside]
  cases rest with
  | nil => simp
  | cons c rest => simp [outside c rfl]

/-- A character outside the class stops a run, by induction on the text in front of it. -/
theorem dropWhile_append_stop {c : Char} (outside : p c = false) (front rest : Text)
    : (front ++ c :: rest).dropWhile p = front.dropWhile p ++ c :: rest := by
  induction front with
  | nil => simp [outside]
  | cons d front ih =>
      by_cases inside : p d = true
      · simpa [inside] using ih
      · simp [inside]

theorem takeWhile_append_stop {c : Char} (outside : p c = false) (front rest : Text)
    : (front ++ c :: rest).takeWhile p = front.takeWhile p := by
  induction front with
  | nil => simp [outside]
  | cons d front ih =>
      by_cases inside : p d = true
      · simpa [inside] using ih
      · simp [inside]

/-- A text that ends outside the class stops a run. -/
theorem exists_dropWhile_append {text : Text} (ends : text.getLast?.any (!p ·)) (rest : Text)
    : ∃ c behind,
        text.dropWhile p = c :: behind
        ∧ (text ++ rest).dropWhile p = c :: (behind ++ rest) := by
  cases left : text.dropWhile p with
  | nil =>
      rcases List.eq_nil_or_concat text with rfl | ⟨front, last, rfl⟩
      · simp at ends
      · have inside := List.dropWhile_eq_nil_iff.mp left last (by simp)
        simp [inside] at ends
  | cons c behind => exact ⟨c, behind, rfl, by simp [List.dropWhile_append, left]⟩

theorem drop_length_takeWhile (p : Char → Bool) (text : Text)
    : text.drop (text.takeWhile p).length = text.dropWhile p := by
  have whole := @List.takeWhile_append_dropWhile _ p text
  calc text.drop (text.takeWhile p).length
    _ = (text.takeWhile p ++ text.dropWhile p).drop (text.takeWhile p).length := by rw [whole]
    _ = text.dropWhile p := List.drop_left

theorem head?_dropWhile {text : Text} {c : Char} (first : (text.dropWhile p).head? = some c)
    : p c = false := by
  have stop := List.head?_dropWhile_not p text
  rw [first] at stop
  simpa using stop

/-- A larger class drops more. -/
theorem dropWhile_isSuffix {q : Char → Bool} (larger : ∀ c, q c = true → p c = true) (text : Text)
    : text.dropWhile p <:+ text.dropWhile q := by
  have run : ∀ c ∈ text.takeWhile q, p c = true := fun c member =>
    larger c (List.mem_takeWhile_imp member)
  have rest := @List.dropWhile_append_of_pos _ p _ (text.dropWhile q) run
  rw [List.takeWhile_append_dropWhile] at rest
  rw [rest]
  exact List.dropWhile_suffix p

/-- An item outside the class is not dropped. -/
theorem mem_dropWhile {α : Type} {p : α → Bool} {items : List α} {item : α} (member : item ∈ items)
    (outside : p item = false)
    : item ∈ items.dropWhile p := by
  rw [← @List.takeWhile_append_dropWhile _ p items, List.mem_append] at member
  refine member.resolve_left fun dropped => ?_
  exact absurd ((List.mem_takeWhile_imp dropped).symm.trans outside) (by decide)

/-- Nothing is dropped from a text that ends outside the class. -/
theorem dropEndWhile_of_last {text : Text} {c : Char} (last : text.getLast? = some c)
    (outside : p c = false)
    : dropEndWhile p text = text := by
  obtain ⟨front, rfl⟩ := List.getLast?_eq_some_iff.mp last
  simp [dropEndWhile, outside]

/-- What is left ends outside the class. -/
theorem getLast?_dropEndWhile {text : Text} {c : Char}
    (last : (dropEndWhile p text).getLast? = some c)
    : p c = false := by
  rw [dropEndWhile, List.getLast?_reverse] at last
  exact head?_dropWhile last

theorem dropEndWhile_append {text tail : Text} (inside : ∀ c ∈ tail, p c = true)
    : dropEndWhile p (text ++ tail) = dropEndWhile p text := by
  simp only [dropEndWhile, List.reverse_append]
  rw [List.dropWhile_append_of_pos fun c member => inside c (List.mem_reverse.mp member)]

/-- What is dropped from the end lies inside the class. -/
theorem exists_dropEndWhile (p : Char → Bool) (text : Text)
    : ∃ tail, text = dropEndWhile p text ++ tail ∧ ∀ c ∈ tail, p c = true := by
  refine ⟨(text.reverse.takeWhile p).reverse, ?_, ?_⟩
  · rw [dropEndWhile, ← List.reverse_append, List.takeWhile_append_dropWhile,
      List.reverse_reverse]
  · intro c member
    exact List.mem_takeWhile_imp (List.mem_reverse.mp member)

theorem dropEndWhile_append_of_mem {p : Char → Bool} {tail : Text}
    (member : ∃ c ∈ tail, p c = false) (text : Text)
    : dropEndWhile p (text ++ tail) = text ++ dropEndWhile p tail := by
  obtain ⟨removed, shape, inside⟩ := exists_dropEndWhile p tail
  have nonempty : dropEndWhile p tail ≠ [] := by
    intro none
    obtain ⟨c, among, outside⟩ := member
    rw [none, List.nil_append] at shape
    exact absurd (inside c (shape ▸ among)) (by simp [outside])
  have last := List.getLast?_eq_some_getLast nonempty
  have kept : dropEndWhile p (text ++ dropEndWhile p tail)
      = text ++ dropEndWhile p tail :=
    dropEndWhile_of_last (by rw [List.getLast?_append, last]; rfl) (getLast?_dropEndWhile last)
  calc dropEndWhile p (text ++ tail)
    _ = dropEndWhile p (text ++ dropEndWhile p tail ++ removed) := by
        rw [List.append_assoc, ← shape]
    _ = text ++ dropEndWhile p tail := by rw [dropEndWhile_append inside, kept]

theorem dropEndWhile_isPrefix (p : Char → Bool) (text : Text) : dropEndWhile p text <+: text := by
  obtain ⟨tail, whole, -⟩ := exists_dropEndWhile p text
  exact ⟨tail, whole.symm⟩

theorem trimBy_isInfix (p : Char → Bool) (text : Text) : trimBy p text <:+: text :=
  (dropEndWhile_isPrefix p _).isInfix.trans (List.dropWhile_suffix p).isInfix

/-- What is trimmed off lies inside the class. -/
theorem exists_trimBy (p : Char → Bool) (text : Text)
    : ∃ before behind,
        text = before ++ (trimBy p text ++ behind)
          ∧ (∀ c ∈ before, p c = true)
          ∧ ∀ c ∈ behind, p c = true := by
  obtain ⟨behind, whole, right⟩ := exists_dropEndWhile p (text.dropWhile p)
  refine ⟨text.takeWhile p, behind, ?_, fun c member => List.mem_takeWhile_imp member, right⟩
  rw [trimBy, ← whole, List.takeWhile_append_dropWhile]

/-- Nothing is trimmed from a text that starts and ends outside the class. -/
theorem trimBy_of_ends {text : Text} (first : ∀ c, text.head? = some c → p c = false)
    (last : ∀ c, text.getLast? = some c → p c = false)
    : trimBy p text = text := by
  cases text with
  | nil => rfl
  | cons c rest =>
      obtain ⟨d, ends⟩ : ∃ d, (c :: rest).getLast? = some d :=
        ⟨_, List.getLast?_eq_some_getLast (List.cons_ne_nil c rest)⟩
      rw [trimBy, List.dropWhile_cons_of_neg (by simp [first c rfl]),
        dropEndWhile_of_last ends (last d ends)]

/-- A trimmed text starts and ends outside the class. -/
theorem ends_trimBy {text : Text} {c : Char}
    (outer : (trimBy p text).head? = some c ∨ (trimBy p text).getLast? = some c)
    : p c = false := by
  rcases outer with first | last
  · obtain ⟨rest, whole⟩ := dropEndWhile_isPrefix p (text.dropWhile p)
    refine @head?_dropWhile p text c ?_
    rw [← whole, List.head?_append, ← trimBy, first]
    rfl
  · exact getLast?_dropEndWhile last

/-- Characters of the class around a text are trimmed away. -/
theorem trimBy_surrounded {before behind : Text} (left : ∀ c ∈ before, p c = true)
    (right : ∀ c ∈ behind, p c = true) (text : Text)
    : trimBy p (before ++ (text ++ behind)) = trimBy p text := by
  rw [trimBy, trimBy, List.dropWhile_append_of_pos left, List.dropWhile_append]
  cases inner : text.dropWhile p with
  | nil => simp [List.dropWhile_eq_nil_iff.mpr right]
  | cons c rest =>
      simp only [List.isEmpty_cons, Bool.false_eq_true, if_false, dropEndWhile_append right]

theorem trimBy_trimBy (text : Text) : trimBy p (trimBy p text) = trimBy p text :=
  trimBy_of_ends (fun _ first => ends_trimBy (.inl first)) fun _ last => ends_trimBy (.inr last)

end DocBlock.Text
