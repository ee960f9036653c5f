import DocBlock.Comment.Scanner
import DocBlock.Proofs.Comment.Closing

/-! Where a left-to-right reader of comments stands. It leaves code at the first opening and comes
back at the first end behind it, so it stands inside a comment exactly behind an opening met in code
with no end after it.
-/

namespace DocBlock.Comment

--------------------------------------------------------------------------------
-- Steps of the reader
--------------------------------------------------------------------------------

/-- Skipping characters is reading the text without them, by induction on the text. -/
theorem placeFrom_eq_drop (place : Place) (skip : Nat) (text : Text)
    : placeFrom place skip text = placeFrom place 0 (text.drop skip) := by
  induction text generalizing skip with
  | nil => simp [placeFrom]
  | cons c rest ih =>
      cases skip with
      | zero => rfl
      | succ skip => simpa [placeFrom] using ih skip

/-- In code a character that opens no comment is passed over. -/
theorem placeAfter_cons {c : Char} {rest : Text} (unopened : ¬ "/*".toList <+: c :: rest)
    : placeAfter (c :: rest) = placeAfter rest := by
  have plain : ¬ Text.startsWith "/*".toList (c :: rest) = true :=
    mt Text.startsWith_iff.mp unopened
  have documentation : ¬ Text.startsWith "/**".toList (c :: rest) = true := by
    intro opens
    exact unopened (List.IsPrefix.trans ⟨['*'], rfl⟩ (Text.startsWith_iff.mp opens))
  rw [placeAfter, placeFrom, if_neg documentation, if_neg plain, placeAfter]

/-- An opening leads into a documentation comment if another star follows it, and else into a plain
one. -/
theorem placeAfter_opening (rest : Text)
    : placeAfter ("/*".toList ++ rest)
      = placeFrom (if rest.head? = some '*' then .documentation else .plain) 0 rest := by
  have plain : Text.startsWith "/*".toList ('/' :: '*' :: rest) = true :=
    Text.startsWith_iff.mpr ⟨rest, rfl⟩
  have starred : Text.startsWith "/**".toList ('/' :: '*' :: rest) = true
      ↔ rest.head? = some '*' := by
    rw [Text.startsWith_iff]
    cases rest <;> simp [eq_comm]
  have opened : placeAfter ('/' :: '*' :: rest)
      = if Text.startsWith "/**".toList ('/' :: '*' :: rest) then placeFrom .documentation 0 rest
        else placeFrom .plain 0 rest := by
    rw [placeAfter, placeFrom, if_pos plain, placeFrom_eq_drop .documentation,
      placeFrom_eq_drop .plain]
    rfl
  simp only [starred] at opened
  rw [apply_ite (placeFrom · 0 rest)]
  exact opened

/-- An opening leaves code. -/
theorem placeAfter_open (rest : Text)
    : ∃ place, place ≠ .code ∧ placeAfter ("/*".toList ++ rest) = placeFrom place 0 rest := by
  refine ⟨_, ?_, placeAfter_opening rest⟩
  split <;> simp

section Inside

variable {place : Place} {body : Text}

/-- Inside a comment a character is passed over unless it starts an end. -/
theorem placeFrom_cons (inside : place ≠ .code) (c : Char) (rest : Text)
    : placeFrom place 0 (c :: rest)
      = if Text.startsWith "*/".toList (c :: rest) then placeAfter (rest.drop 1)
        else placeFrom place 0 rest := by
  cases place with
  | code => contradiction
  | documentation =>
      rw [placeFrom, placeFrom_eq_drop .code 1, placeAfter]
      exact inside
  | plain =>
      rw [placeFrom, placeFrom_eq_drop .code 1, placeAfter]
      exact inside

/-- Without an end the reader stays inside, by induction on the text. -/
theorem placeFrom_closeless (inside : place ≠ .code) (free : Closeless body)
    : placeFrom place 0 body = place := by
  induction body with
  | nil => cases place <;> rfl
  | cons c rest ih =>
      have unclosed : ¬ Text.startsWith "*/".toList (c :: rest) = true := by
        intro closes
        exact free (Text.startsWith_iff.mp closes).isInfix
      rw [placeFrom_cons inside, if_neg unclosed]
      exact ih (free.of_isInfix (List.suffix_cons c rest).isInfix)

/-- The first end leads back to code. Witness: induction on the text in front of the end; the star
of the end is not the slash of an earlier one.
-/
theorem placeFrom_close (inside : place ≠ .code) (free : Closeless body) (rest : Text)
    : placeFrom place 0 (body ++ ("*/".toList ++ rest)) = placeAfter rest := by
  induction body with
  | nil =>
      have closes : Text.startsWith "*/".toList ('*' :: '/' :: rest) = true :=
        Text.startsWith_iff.mpr ⟨rest, rfl⟩
      have step := placeFrom_cons inside '*' ('/' :: rest)
      rw [if_pos closes] at step
      exact step
  | cons c body ih =>
      have unclosed
          : ¬ Text.startsWith "*/".toList (c :: (body ++ ("*/".toList ++ rest))) = true := by
        intro closes
        obtain ⟨later, whole⟩ := Text.startsWith_iff.mp closes
        obtain ⟨rfl, tail⟩ := List.cons.inj whole
        cases body with
        | nil => cases tail
        | cons d body =>
            obtain ⟨rfl, -⟩ := List.cons.inj tail
            exact free ⟨[], body, rfl⟩
      rw [List.cons_append, placeFrom_cons inside, if_neg unclosed]
      exact ih (free.of_isInfix (List.suffix_cons c body).isInfix)

end Inside

/-- Code without an opening is passed over, unless it ends in the slash of one. Witness: induction
on the code in front.
-/
theorem placeAfter_append {front rest : Text} (unopened : ¬ "/*".toList <:+: front)
    (start : rest.head? ≠ some '*')
    : placeAfter (front ++ rest) = placeAfter rest := by
  induction front with
  | nil => rfl
  | cons c front ih =>
      have here : ¬ "/*".toList <+: c :: (front ++ rest) := by
        rintro ⟨later, whole⟩
        obtain ⟨rfl, tail⟩ := List.cons.inj whole
        cases front with
        | nil =>
            rw [List.nil_append] at tail
            exact start (by rw [← tail]; rfl)
        | cons d front =>
            obtain ⟨rfl, -⟩ := List.cons.inj tail
            exact unopened ⟨[], front, rfl⟩
      rw [List.cons_append, placeAfter_cons here]
      apply ih
      intro inside
      exact unopened (inside.trans (List.suffix_cons c front).isInfix)

--------------------------------------------------------------------------------
-- Texts as sequences of comments
--------------------------------------------------------------------------------

/-- A text as a reader meets it: code without openings, at last maybe a comment without an end, and
before it comments that are closed. -/
inductive Commented : Text → Prop where
  | code {text : Text} (unopened : ¬ "/*".toList <:+: text) : Commented text
  | unclosed {front body : Text} (unopened : ¬ "/*".toList <:+: front) (free : Closeless body)
    : Commented (front ++ ("/*".toList ++ body))
  | comment {front body later : Text} (unopened : ¬ "/*".toList <:+: front)
    (free : Closeless body) (rest : Commented later)
    : Commented (front ++ ("/*".toList ++ (body ++ ("*/".toList ++ later))))

/-- Every text is such a sequence, by induction on its length: it is cut at the first opening, and
the rest at the first end. -/
theorem commented (text : Text) : Commented text := by
  induction size : text.length using Nat.strong_induction_on generalizing text with
  | _ size ih =>
      cases opening : Text.cut? "/*".toList text with
      | none => exact .code (Text.cut?_eq_none opening)
      | some parts =>
          obtain ⟨front, rest⟩ := parts
          obtain ⟨rfl, unopened⟩ := @Text.cut?_pair_sound '/' '*' _ _ _ opening
          cases closing : Text.cut? "*/".toList rest with
          | none => exact .unclosed unopened (Text.cut?_eq_none closing)
          | some parts =>
              obtain ⟨body, later⟩ := parts
              obtain ⟨rfl, free⟩ := @Text.cut?_pair_sound '*' '/' _ _ _ closing
              refine .comment unopened free (ih later.length ?_ later rfl)
              simp at size
              omega

theorem placeAfter_code {text : Text} (unopened : ¬ "/*".toList <:+: text)
    : placeAfter text = .code := by
  have whole := @placeAfter_append text [] unopened (by simp)
  rwa [List.append_nil] at whole

theorem placeAfter_comment {front body : Text} (unopened : ¬ "/*".toList <:+: front)
    (free : Closeless body) (later : Text)
    : placeAfter (front ++ ("/*".toList ++ (body ++ ("*/".toList ++ later))))
      = placeAfter later := by
  obtain ⟨place, inside, opened⟩ := placeAfter_open (body ++ ("*/".toList ++ later))
  rw [placeAfter_append unopened (by simp), opened, placeFrom_close inside free]

theorem placeAfter_unclosed {front body : Text} (unopened : ¬ "/*".toList <:+: front)
    (free : Closeless body)
    : placeAfter (front ++ ("/*".toList ++ body)) ≠ .code := by
  obtain ⟨place, inside, opened⟩ := placeAfter_open body
  rw [placeAfter_append unopened (by simp), opened, placeFrom_closeless inside free]
  exact inside

/-- Behind code a reader goes on as at the start, if an opening follows. Witness: induction on the
comments of the text in front; none of them is left open.
-/
theorem placeAfter_append_open {front : Text} (code : placeAfter front = .code) (rest : Text)
    : placeAfter (front ++ ("/*".toList ++ rest)) = placeAfter ("/*".toList ++ rest) := by
  induction commented front with
  | code unopened => exact placeAfter_append unopened (by simp)
  | unclosed unopened none => exact absurd code (placeAfter_unclosed unopened none)
  | @comment before inner later unopened closed behind ih =>
      rw [placeAfter_comment unopened closed] at code
      have whole := placeAfter_comment unopened closed (later ++ ("/*".toList ++ rest))
      simp only [List.append_assoc] at whole ⊢
      rw [whole]
      exact ih code

/-- An opening that is met in code, with no end after it, leaves the reader inside a comment. -/
theorem placeAfter_ne_code {front body : Text} (code : placeAfter front = .code)
    (free : Closeless body)
    : placeAfter (front ++ ("/*".toList ++ body)) ≠ .code := by
  rw [placeAfter_append_open code]
  exact @placeAfter_unclosed [] body (by simp) free

/-- A reader inside a comment has met its opening in code, with no end after it. Witness: induction
on the comments of the text; only the last one can be open.
-/
theorem exists_open {text : Text} (inside : placeAfter text ≠ .code)
    : ∃ front body,
        text = front ++ ("/*".toList ++ body) ∧ placeAfter front = .code ∧ Closeless body := by
  induction commented text with
  | code unopened => exact absurd (placeAfter_code unopened) inside
  | @unclosed front body unopened free =>
      exact ⟨front, body, rfl, placeAfter_code unopened, free⟩
  | @comment before inner later unopened closed rest ih =>
      rw [placeAfter_comment unopened closed] at inside
      obtain ⟨front, body, rfl, code, free⟩ := ih inside
      refine ⟨before ++ ("/*".toList ++ (inner ++ ("*/".toList ++ front))), body, by simp, ?_, free⟩
      rw [placeAfter_comment unopened closed, code]

end DocBlock.Comment
