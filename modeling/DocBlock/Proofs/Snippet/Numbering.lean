import DocBlock.Proofs.Snippet.Reading

/-! What an editor reads of any sequence of pieces. An empty field has no closing character, so that
it takes the digits directly behind it into its number; apart from this every piece is read as it
was written. The pieces are read back exactly if no empty field stands directly before a digit.
-/

namespace DocBlock.Snippet

--------------------------------------------------------------------------------
-- Digits among the tokens
--------------------------------------------------------------------------------

/-- The digits at the front of the tokens, and the tokens behind them. -/
def leadingDigits : List Token → Text × List Token
  | .char c :: rest =>
    if c.isDigit then (c :: (leadingDigits rest).1, (leadingDigits rest).2)
    else ([], .char c :: rest)
  | tokens => ([], tokens)

/-- What is seen of tokens if every empty field takes the digits directly behind it into its
number. -/
def absorbed : List Token → List Token
  | [] => []
  | .char c :: rest => .char c :: absorbed rest
  | .field n value :: rest =>
    if value.isEmpty then
      .field (number (Nat.toDigits 10 n ++ (leadingDigits (absorbed rest)).1)) []
        :: (leadingDigits (absorbed rest)).2
    else .field n value :: absorbed rest

theorem absorbed_chars_append (text : Text) (tokens : List Token)
    : absorbed (text.map .char ++ tokens) = text.map .char ++ absorbed tokens := by
  induction text with
  | nil => rfl
  | cons c text ih => exact congrArg (.char c :: ·) ih

theorem isSpecial_of_isDigit {c : Char} (digit : c.isDigit = true) : isSpecial c = false := by
  by_contra special
  have listed : isSpecial c = true := eq_true_of_ne_false special
  simp only [isSpecial, Bool.or_eq_true, decide_eq_true_eq] at listed
  rcases listed with (rfl | rfl) | rfl
  all_goals exact absurd digit (by decide)

/-- What is read behind a `$` is a field. -/
theorem field?_isField {text : Text} {token : Token} {size : Nat}
    (found : field? text = some (token, size))
    : ∃ n value, token = .field n value := by
  unfold field? at found
  split at found
  · dsimp only at found
    split at found
    · obtain ⟨-, fields⟩ := Option.ite_none_left_eq_some.mp found
      obtain ⟨⟨value, length⟩, -, same⟩ := Option.map_eq_some_iff.mp fields
      exact ⟨_, value, (Prod.mk.inj same).1.symm⟩
    · contradiction
  · obtain ⟨-, same⟩ := Option.ite_none_left_eq_some.mp found
    exact ⟨_, [], (Prod.mk.inj (Option.some.inj same)).1.symm⟩

/-- The first token is a field, or the first character or the special one behind its backslash. -/
theorem read_cons_cases (c : Char) (rest : Text)
    : (∃ d later, read (c :: rest) = .char d :: later ∧ (d = c ∨ isSpecial d = true))
      ∨ ∃ n value later, read (c :: rest) = .field n value :: later := by
  unfold read readFrom
  split
  · split
    · next d later =>
      split
      · next special => exact .inl ⟨d, _, rfl, .inr special⟩
      · exact .inl ⟨c, _, rfl, .inl rfl⟩
    · exact .inl ⟨c, _, rfl, .inl rfl⟩
  · split
    · split
      · next token size found =>
        obtain ⟨n, value, rfl⟩ := field?_isField found
        exact .inr ⟨n, value, _, rfl⟩
      · exact .inl ⟨c, _, rfl, .inl rfl⟩
    · exact .inl ⟨c, _, rfl, .inl rfl⟩

/-- A text that starts with no digit is read as tokens that start with none. -/
theorem leadingDigits_read_of_other {c : Char} (other : c.isDigit = false) (rest : Text)
    : leadingDigits (read (c :: rest)) = ([], read (c :: rest)) := by
  rcases read_cons_cases c rest with ⟨d, later, shape, first⟩ | ⟨n, value, later, shape⟩
  · have undigit : d.isDigit = false := by
      rcases first with rfl | special
      · exact other
      · by_contra digit
        simp [isSpecial_of_isDigit (eq_true_of_ne_false digit)] at special
    simp [shape, leadingDigits, undigit]
  · rw [shape]
    rfl

/-- The digits that are read first are those the text starts with, by induction on the text. -/
theorem leadingDigits_read (text : Text)
    : leadingDigits (read text)
      = (text.takeWhile Char.isDigit, read (text.dropWhile Char.isDigit)) := by
  induction text with
  | nil => rfl
  | cons c rest ih =>
      cases digit : c.isDigit with
      | true => simp [read_plain (isSpecial_of_isDigit digit), leadingDigits, digit, ih]
      | false => simp [leadingDigits_read_of_other digit, digit]

--------------------------------------------------------------------------------
-- Fields
--------------------------------------------------------------------------------

/-- A field with a default text is read whatever follows it. -/
theorem read_filled_field (n : Nat) {value : Text} (filled : ¬ value.isEmpty = true) (rest : Text)
    : read (fieldText n value ++ rest) = .field n value :: read rest :=
  read_fieldText n fun empty => absurd empty filled

/-- An empty field is read with all digits behind it. -/
theorem read_empty_field (n : Nat) (rest : Text)
    : read (fieldText n [] ++ rest)
      = .field (number (Nat.toDigits 10 n ++ rest.takeWhile Char.isDigit)) []
        :: read (rest.dropWhile Char.isDigit) := by
  have inside : ∀ c ∈ Nat.toDigits 10 n ++ rest.takeWhile Char.isDigit, c.isDigit = true := by
    intro c member
    rcases List.mem_append.mp member with own | taken
    · exact isDigit_of_mem_digits own
    · exact List.mem_takeWhile_imp taken
  have outside (c : Char) (first : (rest.dropWhile Char.isDigit).head? = some c)
      : c.isDigit = false := by
    have stop := List.head?_dropWhile_not Char.isDigit rest
    rw [first] at stop
    simpa using stop
  have nonempty : Nat.toDigits 10 n ++ rest.takeWhile Char.isDigit ≠ [] := by simp
  have text : fieldText n [] ++ rest
      = '$' :: (Nat.toDigits 10 n ++ rest.takeWhile Char.isDigit
        ++ rest.dropWhile Char.isDigit) := by
    simp [fieldText, List.takeWhile_append_dropWhile]
  rw [text]
  exact read_field (field?_run nonempty inside outside)

/-- The text of any pieces is read as the pieces, with the digits behind an empty field taken into
its number. Witness: induction on the pieces with any first number.
-/
theorem read_renderFrom_absorbed (snippet : Snippet) (n : Nat)
    : read (renderFrom n snippet) = absorbed (tokensFrom n snippet) := by
  induction snippet generalizing n with
  | nil => rfl
  | cons piece rest ih =>
      cases piece with
      | literal text =>
          rw [renderFrom, tokensFrom, read_escape_append, absorbed_chars_append, ih n]
      | field value =>
          by_cases empty : value.isEmpty = true
          · obtain rfl : value = [] := by simpa using empty
            have digits := leadingDigits_read (renderFrom (n + 1) rest)
            rw [ih (n + 1)] at digits
            simp [renderFrom, tokensFrom, absorbed, read_empty_field, digits]
          · simp [renderFrom, tokensFrom, absorbed, empty, read_filled_field n empty, ih (n + 1)]

--------------------------------------------------------------------------------
-- Numbers that grow
--------------------------------------------------------------------------------

/-- A number grows with the digits written behind it. -/
theorem lt_number_append {n : Nat} {digits : Text} (positive : 0 < n) (nonempty : digits ≠ [])
    : n < number (Nat.toDigits 10 n ++ digits) := by
  have grows (later : Text) (value : Nat)
      : value ≤ later.foldl (fun value digit => 10 * value + (digit.toNat - '0'.toNat)) value := by
    induction later generalizing value with
    | nil => exact le_rfl
    | cons d later ih => exact le_trans (by omega) (ih (10 * value + (d.toNat - '0'.toNat)))
  obtain ⟨d, later, rfl⟩ := List.exists_cons_of_ne_nil nonempty
  have value : number (Nat.toDigits 10 n ++ d :: later)
      = later.foldl (fun value digit => 10 * value + (digit.toNat - '0'.toNat))
        (10 * n + (d.toNat - '0'.toNat)) := by
    rw [number, List.foldl_append, ← number, number_toDigits, List.foldl_cons]
  rw [value]
  exact lt_of_lt_of_le (by omega) (grows later _)

/-- Pieces that open with a digit are written so, by following the empty literals in front. -/
theorem exists_digit_of_opensWithDigit {snippet : Snippet} (opens : opensWithDigit snippet = true)
    (n : Nat)
    : ∃ c later, renderFrom n snippet = c :: later ∧ c.isDigit = true := by
  induction snippet with
  | nil => contradiction
  | cons piece rest ih =>
      cases piece with
      | field value => contradiction
      | literal text =>
          cases text with
          | nil => exact ih opens
          | cons c text =>
              refine ⟨c, escape text ++ renderFrom n rest, ?_, opens⟩
              simp [renderFrom, escape, isSpecial_of_isDigit opens]

/-- Pieces that are read back are separated. Witness: induction on the pieces; an empty field before
a digit would be read with a greater number than its own.
-/
theorem separated_of_read {snippet : Snippet} {n : Nat} (positive : 0 < n)
    (same : read (renderFrom n snippet) = tokensFrom n snippet)
    : separated snippet = true := by
  induction snippet generalizing n with
  | nil => rfl
  | cons piece rest ih =>
      cases piece with
      | literal text =>
          rw [renderFrom, tokensFrom, read_escape_append] at same
          exact ih positive (List.append_cancel_left same)
      | field value =>
          by_cases empty : value.isEmpty = true
          · obtain rfl : value = [] := by simpa using empty
            rw [renderFrom, tokensFrom, read_empty_field] at same
            obtain ⟨first, behind⟩ := List.cons.inj same
            have unextended : (renderFrom (n + 1) rest).takeWhile Char.isDigit = [] := by
              by_contra extended
              exact absurd (Token.field.inj first).1 (lt_number_append positive extended).ne'
            have closed : opensWithDigit rest = false := by
              by_contra opens
              obtain ⟨c, later, text, digit⟩ :=
                exists_digit_of_opensWithDigit (eq_true_of_ne_false opens) (n + 1)
              simp [text, digit] at unextended
            have whole := List.takeWhile_append_dropWhile
              (p := Char.isDigit) (l := renderFrom (n + 1) rest)
            rw [unextended, List.nil_append] at whole
            rw [whole] at behind
            simp [separated, closed, ih (Nat.succ_pos n) behind]
          · rw [renderFrom, tokensFrom, read_filled_field n empty] at same
            simp [separated, empty, ih (Nat.succ_pos n) (List.cons.inj same).2]

--------------------------------------------------------------------------------
-- Main statement
--------------------------------------------------------------------------------

/-- An editor reads the pieces put behind a start text as they were put there, with each field
numbered in order, except that an empty field takes the digits directly behind it into its number.
So it reads exactly the pieces if and only if no empty field stands directly before a digit.
-/
theorem pieces_read_back_iff (start : Text) (pieces : Snippet)
    : let snippet : Snippet := .literal start :: pieces
      read snippet.render = absorbed (tokensFrom 1 snippet)
      ∧ (read snippet.render = tokensFrom 1 snippet ↔ separated pieces = true) := by
  intro snippet
  refine ⟨read_renderFrom_absorbed snippet 1, ?_, ?_⟩
  · exact @separated_of_read snippet 1 Nat.one_pos
  · exact fun apart => @read_renderFrom snippet apart 1

/-- The first field and the digit behind it are read as a fifteenth field. -/
theorem digit_joins_number
    : let snippet : Snippet := [.literal [], .field [], .literal "5".toList]
      snippet.render = "$15".toList
      ∧ read snippet.render = [.field 15 []]
      ∧ tokensFrom 1 snippet = [.field 1 [], .char '5'] := by
  decide +kernel

end DocBlock.Snippet
