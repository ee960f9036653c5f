import DocBlock.Text.Lines

/-! How the classes of characters lie to each other: blanks are white space, and no word
character is white space.
-/

namespace DocBlock.Text

/-- The code points of white space. -/
def spaceCodes : List Nat :=
  [
    0x09, 0x0A, 0x0B, 0x0C, 0x0D, 0x1C, 0x1D, 0x1E, 0x1F, 0x20, 0x85, 0xA0, 0x1680, 0x2000, 0x2001,
    0x2002, 0x2003, 0x2004, 0x2005, 0x2006, 0x2007, 0x2008, 0x2009, 0x200A, 0x2028, 0x2029, 0x202F,
    0x205F, 0x3000
  ]

theorem toNat_mem_spaceCodes {c : Char} (space : isSpace c = true) : c.toNat ∈ spaceCodes := by
  simp only [isSpace, Bool.or_eq_true, Bool.and_eq_true, decide_eq_true_eq] at space
  simp only [spaceCodes, List.mem_cons, List.not_mem_nil, or_false]
  omega

/-- No white space is part of a word, by checking every white-space character. -/
theorem isWord_of_isSpace {c : Char} (space : isSpace c = true) : isWord c = false := by
  have checked : ∀ n ∈ spaceCodes, isWord (Char.ofNat n) = false := by decide +kernel
  have outside := checked c.toNat (toNat_mem_spaceCodes space)
  rwa [Char.ofNat_toNat] at outside

theorem isSpace_of_isWord {c : Char} (word : isWord c = true) : isSpace c = false := by
  cases space : isSpace c with
  | false => rfl
  | true => exact absurd (word.symm.trans (isWord_of_isSpace space)) (by decide)

theorem isWord_of_isIdentifierStart {c : Char} (start : isIdentifierStart c = true)
    : isWord c = true := by
  rw [isIdentifierStart, Bool.or_eq_true] at start
  rw [isWord, Bool.or_eq_true]
  refine start.imp_left fun alpha => ?_
  have ascii : c.toNat < 0x80 := by
    have ranges : (decide ('A'.val ≤ c.val ∧ c.val ≤ 'Z'.val)
        || decide ('a'.val ≤ c.val) && decide (c.val ≤ 'z'.val)) = true := alpha
    simp only [Bool.or_eq_true, Bool.and_eq_true, decide_eq_true_eq,
      UInt32.le_iff_toNat_le] at ranges
    have value : c.toNat = c.val.toNat := rfl
    rw [value]
    rcases ranges with ⟨_, upper⟩ | ⟨_, lower⟩
    · exact Nat.lt_of_le_of_lt upper (by decide)
    · exact Nat.lt_of_le_of_lt lower (by decide)
  rw [Unicode.isAlphanumeric, if_pos ascii, Char.isAlphanum, alpha, Bool.true_or]

theorem isSpace_of_mem_nil : ∀ c ∈ ([] : Text), isSpace c = true := by
  simp

theorem isSpace_of_mem_space : ∀ c ∈ " ".toList, isSpace c = true := by
  decide

theorem isSpace_of_mem_feed : ∀ c ∈ "\n".toList, isSpace c = true := by
  decide

theorem isSpace_of_isBlank {c : Char} (blank : isBlank c = true) : isSpace c = true := by
  simp only [isBlank, Bool.or_eq_true, decide_eq_true_eq] at blank
  rcases blank with rfl | rfl <;> decide

theorem isBlank_of_isSpace_eq_false {c : Char} (outside : isSpace c = false)
    : isBlank c = false := by
  cases blank : isBlank c with
  | false => rfl
  | true => exact absurd (isSpace_of_isBlank blank) (by simp [outside])

theorem isSpace_of_isSpaceOrStar {c : Char} (outside : isSpaceOrStar c = false)
    : isSpace c = false := by
  rw [isSpaceOrStar, Bool.or_eq_false_iff] at outside
  exact outside.1

theorem isBlank_of_isWord {c : Char} (word : isWord c = true) : isBlank c = false := by
  cases blank : isBlank c with
  | false => rfl
  | true =>
      have space := isSpace_of_isBlank blank
      exact absurd (word.symm.trans (isWord_of_isSpace space)) (by decide)

theorem isSpaceOrStar_of_isWord {c : Char} (word : isWord c = true) : isSpaceOrStar c = false := by
  have star : c ≠ '*' := by
    rintro rfl
    exact absurd word (by decide)
  simp [isSpaceOrStar, isSpace_of_isWord word, star]

end DocBlock.Text
