import DocBlock.Proofs.Signature.Lexemes
import DocBlock.Proofs.Text.Words

/-! Return types as they are written: words and stars with white space behind them, and at least
some of it between two words. They are read back as they are written, whatever follows them, and
what they say about the result is seen from their words and stars.
-/

namespace DocBlock.Text

/-- A text contains a character exactly if the character is one of the text. -/
theorem contains_singleton {c : Char} {text : Text} : contains [c] text = true ↔ c ∈ text := by
  unfold contains
  induction text with
  | nil => simp [cut?, after?]
  | cons d rest ih =>
      by_cases same : c = d
      · simp [cut?, after?, same]
      · simpa [cut?, after?, same] using ih

/-- A text starts as its front does. -/
theorem mem_head?_of_prefix {front text : Text} {c : Char} (starts : front <+: text)
    (first : c ∈ front.head?)
    : c ∈ text.head? := by
  obtain ⟨rest, rfl⟩ := starts
  rw [List.head?_append, Option.mem_def.mp first]
  rfl

end DocBlock.Text

namespace DocBlock.Signature

open Text (Reads Reader Consumes isSpace isWord)

--------------------------------------------------------------------------------
-- Words and stars
--------------------------------------------------------------------------------

/-- An identifier as it is written: an ASCII letter or `_`, and then word characters. -/
def IsIdentifier : Text → Prop
  | [] => False
  | c :: rest => Text.isIdentifierStart c = true ∧ ∀ d ∈ rest, isWord d = true

instance : DecidablePred IsIdentifier
  | [] => inferInstanceAs (Decidable False)
  | c :: rest =>
    inferInstanceAs (Decidable (Text.isIdentifierStart c = true ∧ ∀ d ∈ rest, isWord d = true))

theorem lexemesText_cons (lexeme : Lexeme) (more : List Lexeme)
    : lexemesText (lexeme :: more) = lexeme.text ++ lexemesText more := rfl

/-- Lexemes as they can be written in front of a text. A word has white space behind it unless what
follows is no word. -/
inductive Spaced : List Lexeme → Text → Prop where
  | none (later : Text) : Spaced [] later
  | star {gap later : Text} {more : List Lexeme} (space : ∀ c ∈ gap, isSpace c = true)
    (rest : Spaced more later)
    : Spaced (⟨.star, gap⟩ :: more) later
  | word {name gap later : Text} {more : List Lexeme} (identifier : IsIdentifier name)
    (space : ∀ c ∈ gap, isSpace c = true)
    (apart : ∀ c ∈ (gap ++ (lexemesText more ++ later)).head?, isWord c = false)
    (rest : Spaced more later)
    : Spaced (⟨.word name, gap⟩ :: more) later

/-- A return type in front of a text: its first word with the white space behind it, and more words
and stars. -/
structure ReturnType (later : Text) where
  first : Text
  gap : Text
  more : List Lexeme
  spaced : Spaced (⟨.word first, gap⟩ :: more) later

namespace ReturnType

variable {later : Text} (returnType : ReturnType later)

/-- All words and stars, with the white space behind them. -/
def lexemes : List Lexeme :=
  ⟨.word returnType.first, returnType.gap⟩ :: returnType.more

/-- All words and stars. -/
def tokens : List Token :=
  returnType.lexemes.map (·.token)

/-- The source text. -/
def text : Text :=
  lexemesText returnType.lexemes

/-- The return type is `void` and no pointer. -/
def IsVoid : Prop :=
  .word "void".toList ∈ returnType.tokens ∧ .star ∉ returnType.tokens

instance : Decidable returnType.IsVoid :=
  inferInstanceAs (Decidable (_ ∧ _))

end ReturnType

--------------------------------------------------------------------------------
-- Reading lexemes
--------------------------------------------------------------------------------

namespace IsIdentifier

variable {name : Text}

theorem ne_nil (identifier : IsIdentifier name) : name ≠ [] := by
  rintro rfl
  exact identifier

theorem word (identifier : IsIdentifier name) : ∀ c ∈ name, isWord c = true := by
  cases name with
  | nil => simp
  | cons c rest =>
      exact List.forall_mem_cons.mpr ⟨Text.isWord_of_isIdentifierStart identifier.1, identifier.2⟩

/-- An identifier is read in front of a text that does not continue it. -/
theorem identifier?_append (identifier : IsIdentifier name) {rest : Text}
    (ended : ∀ c ∈ rest.head?, isWord c = false)
    : Text.identifier? (name ++ rest) = some (name, rest) := by
  cases name with
  | nil => exact absurd rfl identifier.ne_nil
  | cons c letters =>
      have taken := Text.takeWhile_run identifier.2 ended
      have left := Text.dropWhile_run identifier.2 ended
      simp [Text.identifier?, identifier.1, taken, left]

end IsIdentifier

namespace IsName

variable {name gap : Text}

theorem unspaced (named : IsName name gap) (tail : Text)
    : ∀ c ∈ (name ++ tail).head?, isSpace c = false := by
  obtain ⟨c, letters, rfl⟩ := List.exists_cons_of_ne_nil named.nonempty
  rintro d ⟨⟩
  exact Text.isSpace_of_isWord (named.word c List.mem_cons_self)

/-- A name ends where its white space starts, or else what follows it. -/
theorem ended (named : IsName name gap) {stop : Char} (outside : isWord stop = false) (rest : Text)
    : ∀ c ∈ (gap ++ stop :: rest).head?, isWord c = false := by
  cases gap with
  | nil =>
      rintro c ⟨⟩
      exact outside
  | cons d gap =>
      rintro c ⟨⟩
      exact Text.isWord_of_isSpace (named.space d List.mem_cons_self)

theorem wordRun?_append (named : IsName name gap) {rest : Text}
    (ended : ∀ c ∈ rest.head?, isWord c = false)
    : Text.wordRun? (name ++ rest) = some (name, rest) := by
  obtain ⟨c, letters, rfl⟩ := List.exists_cons_of_ne_nil named.nonempty
  simp only [Text.wordRun?, Text.takeWhile_run named.word ended,
    Text.dropWhile_run named.word ended]

end IsName

section Lexeme

variable {word? : Reader Text} {name gap rest : Text}

theorem lexeme?_star (space : ∀ c ∈ gap, isSpace c = true)
    (unspaced : ∀ c ∈ rest.head?, isSpace c = false)
    : lexeme? word? ('*' :: (gap ++ rest)) = some (⟨.star, gap⟩, rest) := by
  simp [lexeme?, Text.takeWhile_run space unspaced, Text.dropWhile_run space unspaced]

/-- A word that is read is a lexeme with the white space behind it. -/
theorem lexeme?_word (named : IsName name gap) (unspaced : ∀ c ∈ rest.head?, isSpace c = false)
    (read : word? (name ++ (gap ++ rest)) = some (name, gap ++ rest))
    : lexeme? word? (name ++ (gap ++ rest)) = some (⟨.word name, gap⟩, rest) := by
  obtain ⟨c, letters, rfl⟩ := List.exists_cons_of_ne_nil named.nonempty
  have star : c ≠ '*' := by
    rintro rfl
    exact absurd (named.word '*' List.mem_cons_self) (by decide)
  rw [List.cons_append] at read ⊢
  simp [lexeme?, star, read, Text.takeWhile_run named.space unspaced,
    Text.dropWhile_run named.space unspaced]

/-- A lexeme takes at least one character if a word does. -/
theorem consumes_lexeme_of (consumes : Consumes word?) : Consumes (lexeme? word?) := by
  intro text lexeme later found
  have shorter {tail : Text} := (List.dropWhile_suffix isSpace (l := tail)).length_le
  cases text with
  | nil => simp [lexeme?] at found
  | cons c rest =>
      by_cases star : c = '*'
      · obtain ⟨-, rfl⟩ := by simpa [lexeme?, star] using found
        exact Nat.lt_succ_of_le shorter
      · cases read : word? (c :: rest) with
        | none => simp [lexeme?, star, read] at found
        | some result =>
            obtain ⟨-, rfl⟩ := by simpa [lexeme?, star, read] using found
            exact Nat.lt_of_le_of_lt shorter (consumes _ _ _ read)

theorem consumes_wordRun : Consumes Text.wordRun? := by
  intro text word rest found
  obtain ⟨rfl, rfl, nonempty⟩ := Text.wordRun?_sound found
  have whole := congrArg List.length (@List.takeWhile_append_dropWhile _ isWord text)
  have positive := List.length_pos_iff.mpr nonempty
  rw [List.length_append] at whole
  omega

/-- No lexeme starts with a character that is neither a star nor a word character. -/
theorem lexeme?_eq_none {c : Char} (star : c ≠ '*') (letter : isWord c = false) (rest : Text)
    : lexeme? Text.identifier? (c :: rest) = none := by
  have start : Text.isIdentifierStart c ≠ true := fun start => by
    simp [Text.isWord_of_isIdentifierStart start] at letter
  simp [lexeme?, star, Text.identifier?, start]

end Lexeme

namespace Spaced

variable {lexemes : List Lexeme} {later : Text}

/-- Lexemes start with no white space, and neither does what follows them. -/
theorem unspaced (spaced : Spaced lexemes later) (outside : ∀ c ∈ later.head?, isSpace c = false)
    : ∀ c ∈ (lexemesText lexemes ++ later).head?, isSpace c = false := by
  cases spaced with
  | none => exact outside
  | star space rest =>
      rintro c ⟨⟩
      decide
  | @word name gap later more identifier space apart rest =>
      obtain ⟨c, letters, rfl⟩ := List.exists_cons_of_ne_nil identifier.ne_nil
      rintro d ⟨⟩
      exact Text.isSpace_of_isWord (identifier.word c List.mem_cons_self)

/-- More text behind what follows changes nothing, by induction on the lexemes. -/
theorem append (spaced : Spaced lexemes later) (nonempty : later ≠ []) (tail : Text)
    : Spaced lexemes (later ++ tail) := by
  induction spaced with
  | none later => exact .none _
  | star space rest ih => exact .star space (ih nonempty)
  | @word name gap later more identifier space apart rest ih =>
      refine .word identifier space ?_ (ih nonempty)
      intro c first
      have here : gap ++ (lexemesText more ++ later) ≠ [] := by simp [nonempty]
      rw [← List.append_assoc, ← List.append_assoc, List.append_assoc gap,
        List.head?_append_of_ne_nil _ here] at first
      exact apart c first

/-- Lexemes are read back as they are written. Witness: induction on the lexemes; no white space
follows that a lexeme would still take, and no word that would continue another.
-/
theorem reads (spaced : Spaced lexemes later) (outside : ∀ c ∈ later.head?, isSpace c = false)
    : Reads (lexeme? Text.identifier?) (lexemesText lexemes ++ later) lexemes later := by
  induction spaced with
  | none later => exact .done later
  | @star gap later more space rest ih =>
      have read := @lexeme?_star Text.identifier? gap _ space (rest.unspaced outside)
      refine .next ?_ (ih outside)
      simpa [lexemesText, Lexeme.text, Token.text] using read
  | @word name gap later more identifier space apart rest ih =>
      have named : IsName name gap := ⟨identifier.ne_nil, identifier.word, space⟩
      have read := lexeme?_word named (rest.unspaced outside) (identifier.identifier?_append apart)
      refine .next ?_ (ih outside)
      simpa [lexemesText, Lexeme.text, Token.text] using read

end Spaced

--------------------------------------------------------------------------------
-- What a return type says
--------------------------------------------------------------------------------

namespace Spaced

variable {lexemes : List Lexeme} {later : Text}

/-- The words of a text of lexemes are those of the lexemes, by induction on the lexemes. -/
theorem mem_wordRuns (spaced : Spaced lexemes later) {name : Text}
    : name ∈ Text.wordRuns (lexemesText lexemes) ↔ .word name ∈ lexemes.map (·.token) := by
  have skipped {gap : Text} (space : ∀ c ∈ gap, isSpace c = true)
      : ∀ c ∈ gap, (!isWord c) = true := fun c member => by
    simp [Text.isWord_of_isSpace (space c member)]
  unfold Text.wordRuns
  induction spaced with
  | none later => simp [lexemesText, Text.runsFrom]
  | @star gap later more space rest ih =>
      have passed : ∀ c ∈ '*' :: gap, (!isWord c) = true :=
        List.forall_mem_cons.mpr ⟨by decide, skipped space⟩
      have runs := Text.runsFrom_skip passed (lexemesText more)
      rw [lexemesText_cons, Lexeme.text, Token.text, List.singleton_append, runs]
      simpa using ih
  | @word first gap later more identifier space apart rest ih =>
      have ended : ∀ c ∈ (gap ++ lexemesText more).head?, (!isWord c) = true := by
        intro c start
        have front : gap ++ lexemesText more <+: gap ++ (lexemesText more ++ later) :=
          ⟨later, by simp⟩
        simp [apart c (Text.mem_head?_of_prefix front start)]
      have letters : ∀ c ∈ first, (!isWord c) = false := fun c member => by
        simp [identifier.word c member]
      have runs := Text.runsFrom_first identifier.ne_nil letters ended
      rw [Text.runsFrom_skip (skipped space)] at runs
      rw [lexemesText_cons, Lexeme.text, Token.text, List.append_assoc, runs, List.mem_cons]
      simpa [eq_comm] using or_congr_right ih

/-- The stars of a text of lexemes are those of the lexemes, by induction on the lexemes. -/
theorem mem_star (spaced : Spaced lexemes later)
    : '*' ∈ lexemesText lexemes ↔ .star ∈ lexemes.map (·.token) := by
  have unstarred {gap : Text} (space : ∀ c ∈ gap, isSpace c = true) : '*' ∉ gap := fun member =>
    absurd (space '*' member) (by decide)
  induction spaced with
  | none later => simp [lexemesText]
  | star space rest ih => simp [lexemesText_cons, Lexeme.text, Token.text]
  | @word name gap later more identifier space apart rest ih =>
      have letters : '*' ∉ name := fun member => absurd (identifier.word '*' member) (by decide)
      rw [lexemesText_cons, Lexeme.text, Token.text, List.mem_append, List.mem_append]
      simpa [letters, unstarred space] using ih

end Spaced

/-- A return type yields a value unless it is `void` and no pointer. -/
theorem ReturnType.yieldsValue_text {later : Text} (returnType : ReturnType later)
    : yieldsValue returnType.text = !decide returnType.IsVoid := by
  have void : "void".toList ∈ Text.wordRuns returnType.text
      ↔ .word "void".toList ∈ returnType.tokens :=
    returnType.spaced.mem_wordRuns
  have star : Text.contains ['*'] returnType.text = true ↔ .star ∈ returnType.tokens :=
    Text.contains_singleton.trans returnType.spaced.mem_star
  rw [Bool.eq_iff_iff, Bool.not_eq_true', decide_eq_false_iff_not, ReturnType.IsVoid, not_and,
    not_not, yieldsValue, Bool.or_eq_true, Bool.not_eq_true', List.contains_eq_mem,
    decide_eq_false_iff_not, void, star]
  exact imp_iff_not_or.symm

end DocBlock.Signature
