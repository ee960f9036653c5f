import DocBlock.Proofs.Text.Runs
import DocBlock.Snippet.Reader

/-! An editor reads back the pieces a snippet was written from: escaping hides every special
character, and a field ends where it was closed. An empty field has no closing character, so it
must not stand directly before a digit.
-/

namespace DocBlock.Snippet

/-- The tokens of the pieces, with fields numbered from `number` on. -/
def tokensFrom (number : Nat) : Snippet → List Token
  | [] => []
  | .literal text :: rest => text.map .char ++ tokensFrom number rest
  | .field value :: rest => .field number value :: tokensFrom (number + 1) rest

/-- The text of the pieces starts with a digit. -/
def opensWithDigit : Snippet → Bool
  | .literal [] :: rest => opensWithDigit rest
  | .literal (c :: _) :: _ => c.isDigit
  | _ => false

/-- No empty field stands directly before a digit, which would become part of its number. -/
def separated : Snippet → Bool
  | [] => true
  | .literal _ :: rest => separated rest
  | .field value :: rest => (!value.isEmpty || !opensWithDigit rest) && separated rest

/-- Skipping characters is reading the text without them, by induction on the text. -/
theorem readFrom_eq_drop (skip : Nat) (text : Text)
    : readFrom skip text = read (text.drop skip) := by
  induction text generalizing skip with
  | nil => simp [read, readFrom]
  | cons c rest ih =>
      cases skip with
      | zero => rfl
      | succ skip => simpa [readFrom] using ih skip

theorem read_escaped {c : Char} (special : isSpecial c = true) (rest : Text)
    : read ('\\' :: c :: rest) = .char c :: read rest := by
  simp [read, readFrom, special]

theorem read_plain {c : Char} (plain : isSpecial c = false) (rest : Text)
    : read (c :: rest) = .char c :: read rest := by
  have facts : c ≠ '$' ∧ c ≠ '}' ∧ c ≠ '\\' := by
    simpa [isSpecial, not_or, and_assoc] using plain
  simp [read, readFrom, facts.1, facts.2.2]

/-- Escaped text is read back as its characters, by induction on the text. -/
theorem read_escape_append (text rest : Text)
    : read (escape text ++ rest) = text.map .char ++ read rest := by
  induction text with
  | nil => rfl
  | cons c text ih =>
      by_cases special : isSpecial c = true
      · simp [escape, special, read_escaped special, ih]
      · simp only [Bool.not_eq_true] at special
        simp [escape, special, read_plain special, ih]

/-- A default text is read back up to its brace, with all its characters counted. Witness:
induction on the default text; no character of it closes the field, because braces are escaped.
-/
theorem fieldValue?_escape (value rest : Text)
    : fieldValue? (escape value ++ '}' :: rest) = some (value, (escape value).length + 1) := by
  induction value with
  | nil => cases rest <;> simp [escape, fieldValue?]
  | cons c value ih =>
      by_cases special : isSpecial c = true
      · simp [escape, special, fieldValue?, ih]
      · simp only [Bool.not_eq_true] at special
        have facts : c ≠ '$' ∧ c ≠ '}' ∧ c ≠ '\\' := by
          simpa [isSpecial, not_or, and_assoc] using special
        obtain ⟨d, later, next⟩ : ∃ d later, escape value ++ '}' :: rest = d :: later :=
          List.exists_cons_of_ne_nil (by simp)
        rw [next] at ih
        simp [escape, special, next, fieldValue?, facts, ih]

theorem number_toDigits (n : Nat) : number (Nat.toDigits 10 n) = n := by
  rw [number, ← Nat.ofDigitChars_eq_foldl]
  exact Nat.ofDigitChars_ten_toDigits

theorem isDigit_of_mem_digits {n : Nat} {c : Char} (member : c ∈ Nat.toDigits 10 n)
    : c.isDigit = true :=
  Nat.isDigit_of_mem_toDigits (by omega) (by omega) member

/-- A run of digits behind a `$` is the number of an empty field. -/
theorem field?_run {digits rest : Text} (nonempty : digits ≠ [])
    (inside : ∀ c ∈ digits, c.isDigit = true)
    (outside : ∀ c, rest.head? = some c → c.isDigit = false)
    : field? (digits ++ rest) = some (.field (number digits) [], digits.length) := by
  have run : (digits ++ rest).takeWhile Char.isDigit = digits := Text.takeWhile_run inside outside
  obtain ⟨d, digits, rfl⟩ := List.exists_cons_of_ne_nil nonempty
  have first : d ≠ '{' := by
    rintro rfl
    exact absurd (inside '{' List.mem_cons_self) (by decide)
  simp only [List.cons_append] at run ⊢
  unfold field?
  split
  · next heq => exact absurd (List.cons.inj heq).1 first
  · simp [run]

theorem field?_empty (n : Nat) {rest : Text}
    (outside : ∀ c, rest.head? = some c → c.isDigit = false)
    : field? (Nat.toDigits 10 n ++ rest) = some (.field n [], (Nat.toDigits 10 n).length) := by
  have inside : ∀ c ∈ Nat.toDigits 10 n, c.isDigit = true := fun _ => isDigit_of_mem_digits
  have found := field?_run Nat.toDigits_ne_nil inside outside
  rwa [number_toDigits] at found

/-- A field with a default text is read back up to its brace. -/
theorem field?_default (n : Nat) (value rest : Text)
    : field? ('{' :: (Nat.toDigits 10 n ++ ':' :: (escape value ++ '}' :: rest)))
      = some
          (
            .field n value,
            (Nat.toDigits 10 n).length + ((escape value).length + 1) + 2
          ) := by
  have run : (Nat.toDigits 10 n ++ ':' :: (escape value ++ '}' :: rest)).takeWhile Char.isDigit
      = Nat.toDigits 10 n :=
    Text.takeWhile_run (fun c member => isDigit_of_mem_digits member)
      (by rintro c ⟨⟩; decide)
  simp [field?, run, fieldValue?_escape, number_toDigits, Nat.toDigits_ne_nil]

/-- A `$` before a field is read with it, and reading goes on behind the field. -/
theorem read_field {front later : Text} {token : Token}
    (found : field? (front ++ later) = some (token, front.length))
    : read ('$' :: (front ++ later)) = token :: read later := by
  have step : read ('$' :: (front ++ later)) = token :: readFrom front.length (front ++ later) := by
    simp [read, readFrom, found]
  rw [step, readFrom_eq_drop, List.drop_left]

/-- The written text starts with a digit exactly where the pieces do, by following the empty
literals in front. -/
theorem head?_renderFrom {number : Nat} {snippet : Snippet} {c : Char}
    (digit : opensWithDigit snippet = false)
    (first : (renderFrom number snippet).head? = some c)
    : c.isDigit = false := by
  induction snippet with
  | nil => simp [renderFrom] at first
  | cons piece rest ih =>
      cases piece with
      | field value =>
          have dollar : c = '$' := by
            by_cases empty : value.isEmpty = true
            · simpa [renderFrom, fieldText, empty, eq_comm] using first
            · simpa [renderFrom, fieldText, empty, eq_comm] using first
          subst dollar
          decide
      | literal text =>
          cases text with
          | nil => exact ih digit (by simpa [renderFrom, escape] using first)
          | cons d text =>
              by_cases special : isSpecial d = true
              · have backslash : c = '\\' := by
                  simpa [renderFrom, escape, special, eq_comm] using first
                subst backslash
                decide
              · have same : d = c := by simpa [renderFrom, escape, special] using first
                subst same
                simpa [opensWithDigit] using digit

/-- A field is read back as one token if it is separated from what follows. -/
theorem read_fieldText (n : Nat) {value rest : Text}
    (outside : value.isEmpty = true → ∀ c, rest.head? = some c → c.isDigit = false)
    : read (fieldText n value ++ rest) = .field n value :: read rest := by
  by_cases empty : value.isEmpty = true
  · obtain rfl : value = [] := by simpa using empty
    exact read_field (field?_empty n (outside empty))
  · have found := field?_default n value rest
    have text : '{' :: (Nat.toDigits 10 n ++ ':' :: (escape value ++ '}' :: rest))
        = '{' :: Nat.toDigits 10 n ++ ':' :: escape value ++ ['}'] ++ rest := by
      simp
    have size : (Nat.toDigits 10 n).length + ((escape value).length + 1) + 2
        = ('{' :: Nat.toDigits 10 n ++ ':' :: escape value ++ ['}']).length := by
      simp only [List.length_append, List.length_cons, List.length_nil]
      omega
    rw [text, size] at found
    simpa [fieldText, empty] using read_field found

/-- A separated snippet is read back as its pieces. Witness: induction on the pieces with any
first number.
-/
theorem read_renderFrom {snippet : Snippet} (apart : separated snippet = true) (number : Nat)
    : read (renderFrom number snippet) = tokensFrom number snippet := by
  induction snippet generalizing number with
  | nil => rfl
  | cons piece rest ih =>
      cases piece with
      | literal text =>
          simp [renderFrom, tokensFrom, read_escape_append, ih (by simpa [separated] using apart)]
      | field value =>
          simp only [separated, Bool.and_eq_true, Bool.or_eq_true, Bool.not_eq_true'] at apart
          have outside (empty : value.isEmpty = true) (c : Char)
              (first : (renderFrom (number + 1) rest).head? = some c)
              : c.isDigit = false :=
            head?_renderFrom (apart.1.resolve_left (by simp [empty])) first
          simp [renderFrom, tokensFrom, read_fieldText number outside, ih apart.2]

/-- Replacing every field of the written text by its default gives the expansion of the
pieces. -/
theorem expand_render {snippet : Snippet} (apart : separated snippet = true)
    : expand snippet.render = expansion snippet := by
  rw [expand, render, read_renderFrom apart]
  clear apart
  suffices general : ∀ shown : Token → Text,
      (∀ c, shown (.char c) = [c]) → (∀ number value, shown (.field number value) = value)
      → ∀ number, (tokensFrom number snippet).flatMap shown = expansion snippet from
    general _ (fun _ => rfl) (fun _ _ => rfl) 1
  intro shown char field number
  induction snippet generalizing number with
  | nil => rfl
  | cons piece rest ih =>
      cases piece with
      | literal text => simp [tokensFrom, expansion, ih, char, List.flatMap_map]
      | field value => simp [tokensFrom, expansion, ih, field]

end DocBlock.Snippet
