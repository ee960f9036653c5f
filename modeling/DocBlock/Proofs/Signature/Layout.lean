import DocBlock.Proofs.Signature.Prototypes
import DocBlock.Signature.FunctionPointer

/-! The layout of a text does not matter for what it declares. Two texts that differ in nothing but
the width and the kind of their white space declare the same function, the same function-pointer
type and the same parameters, and that holds of every text, declaration or not.
-/

namespace DocBlock.Text

variable {first second : Text}

--------------------------------------------------------------------------------
-- Runs of white space
--------------------------------------------------------------------------------

/-- The text with one space for every run of white space. -/
def squeezed : Text → Text
  | [] => []
  | c :: rest =>
    if isSpace c then
      if (squeezed rest).head? = some ' ' then squeezed rest else ' ' :: squeezed rest
    else c :: squeezed rest

theorem squeezed_letter {c : Char} (outside : isSpace c = false) (rest : Text)
    : squeezed (c :: rest) = c :: squeezed rest := by
  simp [squeezed, outside]

/-- A run of white space is squeezed as a whole, by induction on what follows its first
character. -/
theorem squeezed_space {c : Char} (space : isSpace c = true) (rest : Text)
    : squeezed (c :: rest) = ' ' :: squeezed (rest.dropWhile isSpace) := by
  induction rest generalizing c with
  | nil => simp [squeezed, space]
  | cons d rest ih =>
      by_cases here : isSpace d = true
      · rw [squeezed, if_pos space, ih here, List.dropWhile_cons_of_pos here]
        rfl
      · have other : d ≠ ' ' := by
          rintro rfl
          exact here (by decide)
        rw [List.dropWhile_cons_of_neg here]
        simp [squeezed, space, here, other]

theorem squeezed_ne_nil (c : Char) (rest : Text) : squeezed (c :: rest) ≠ [] := by
  by_cases space : isSpace c = true
  · rw [squeezed_space space]
    exact List.cons_ne_nil _ _
  · rw [squeezed_letter (by simpa using space)]
    exact List.cons_ne_nil _ _

theorem Respaced.squeezed_eq (same : Respaced first second) : squeezed first = squeezed second := by
  have alone {gap : Text} (nonempty : gap ≠ []) (spaces : ∀ c ∈ gap, isSpace c = true) (rest : Text)
      : squeezed (gap ++ rest) = squeezed (' ' :: rest) := by
    obtain ⟨c, gap, rfl⟩ := List.exists_cons_of_ne_nil nonempty
    obtain ⟨here, behind⟩ := List.forall_mem_cons.mp spaces
    rw [List.cons_append, squeezed_space here, List.dropWhile_append_of_pos behind,
      squeezed_space (by decide)]
  induction same with
  | nil => rfl
  | letter outside more ih => rw [squeezed_letter outside, squeezed_letter outside, ih]
  | gap leftNonempty rightNonempty leftSpace rightSpace more ih =>
      rw [alone leftNonempty leftSpace, alone rightNonempty rightSpace, squeezed, squeezed, ih]

/-- Respaced texts are those that differ in nothing but their runs of white space. Witness:
induction on the length of the first text; a run is taken off both texts as a whole.
-/
theorem respaced_iff_squeezed : Respaced first second ↔ squeezed first = squeezed second := by
  refine ⟨Respaced.squeezed_eq, fun same => ?_⟩
  have run {c : Char} (space : isSpace c = true) (rest : Text)
      : ∀ d ∈ c :: rest.takeWhile isSpace, isSpace d = true :=
    List.forall_mem_cons.mpr ⟨space, fun d member => List.mem_takeWhile_imp member⟩
  induction size : first.length using Nat.strongRecOn generalizing first second with
  | ind size ih =>
      subst size
      match first, second with
      | [], [] => exact .nil
      | [], d :: right => exact absurd same.symm (squeezed_ne_nil d right)
      | c :: left, [] => exact absurd same (squeezed_ne_nil c left)
      | c :: left, d :: right =>
          cases here : isSpace c with
          | true =>
              cases there : isSpace d with
              | true =>
                  rw [squeezed_space here, squeezed_space there] at same
                  have shorter := (List.dropWhile_suffix isSpace (l := left)).length_le
                  have more := ih _ (Nat.lt_succ_of_le shorter) (List.cons.inj same).2 rfl
                  have gap := Respaced.gap (List.cons_ne_nil c _) (List.cons_ne_nil d _)
                    (run here left) (run there right) more
                  simpa using gap
              | false =>
                  rw [squeezed_space here, squeezed_letter there] at same
                  obtain ⟨rfl, -⟩ := List.cons.inj same
                  exact absurd there (by decide)
          | false =>
              cases there : isSpace d with
              | true =>
                  rw [squeezed_letter here, squeezed_space there] at same
                  obtain ⟨rfl, -⟩ := List.cons.inj same
                  exact absurd here (by decide)
              | false =>
                  rw [squeezed_letter here, squeezed_letter there] at same
                  obtain ⟨rfl, rest⟩ := List.cons.inj same
                  exact .letter here (ih _ (Nat.lt_succ_self _) rest rfl)

instance : Decidable (Respaced first second) :=
  decidable_of_iff (squeezed first = squeezed second) respaced_iff_squeezed.symm

namespace Respaced

theorem mem_iff (same : Respaced first second) {c : Char} (outside : isSpace c = false)
    : c ∈ first ↔ c ∈ second := by
  have kept {text : Text} : c ∈ Text.withoutSpace text ↔ c ∈ text := by
    simp [Text.withoutSpace, outside]
  rw [← kept, same.withoutSpace, kept]

/-- Whether all characters belong to a class that holds all white space does not depend on the
white space. -/
theorem all {p : Char → Bool} (spaces : ∀ c, isSpace c = true → p c = true)
    (same : Respaced first second)
    : first.all p = second.all p := by
  have shown {one two : Text} (alike : Respaced one two) (all : ∀ c ∈ one, p c = true)
      : ∀ c ∈ two, p c = true := by
    intro c member
    by_cases space : isSpace c = true
    · exact spaces c space
    · exact all c ((alike.mem_iff (by simpa using space)).mpr member)
  rw [Bool.eq_iff_iff, List.all_eq_true, List.all_eq_true]
  exact ⟨shown same, shown same.symm⟩

/-- A pattern without white space is found at the front of both texts or of none, by induction on
the pattern. -/
theorem after? {pattern : Text} (unspaced : ∀ c ∈ pattern, isSpace c = false)
    (same : Respaced first second)
    : Option.Rel Respaced (Text.after? pattern first) (Text.after? pattern second) := by
  induction pattern generalizing first second with
  | nil => exact .some same
  | cons p pattern ih =>
      obtain ⟨here, behind⟩ := List.forall_mem_cons.mp unspaced
      have missing {gap : Text} (nonempty : gap ≠ []) (spaces : ∀ c ∈ gap, isSpace c = true)
          (rest : Text)
          : Text.after? (p :: pattern) (gap ++ rest) = none := by
        obtain ⟨c, gap, rfl⟩ := List.exists_cons_of_ne_nil nonempty
        refine after?_cons_of_ne ?_ pattern (gap ++ rest)
        rintro rfl
        rw [spaces c List.mem_cons_self] at here
        contradiction
      cases same with
      | nil => exact .none
      | @letter c first second outside more =>
          by_cases equal : p = c
          · simp only [Text.after?, equal, if_true]
            exact ih behind more
          · simp only [Text.after?, equal, if_false]
            exact .none
      | gap leftNonempty rightNonempty leftSpace rightSpace more =>
          rw [missing leftNonempty leftSpace, missing rightNonempty rightSpace]
          exact .none

end Respaced

/-- What follows the last occurrence of a pattern. -/
def afterLast? (pattern text : Text) : Option Text :=
  (lastIndexOf? pattern text).map fun i => text.drop (i + pattern.length)

/-- The last occurrence is the last one behind the first character, or else the one there. -/
theorem afterLast?_cons (pattern : Text) (c : Char) (rest : Text)
    : afterLast? pattern (c :: rest)
      = (afterLast? pattern rest <|> after? pattern (c :: rest)) := by
  simp only [afterLast?, lastIndexOf?]
  cases lastIndexOf? pattern rest with
  | some i =>
      have shifted : i + 1 + pattern.length = i + pattern.length + 1 := by omega
      simp [shifted]
  | none =>
      cases here : after? pattern (c :: rest) with
      | none => simp [startsWith, here]
      | some later =>
          simp only [startsWith, here, Option.isSome_some, if_true, Option.map_some]
          rw [after?_eq_some_iff.mp here]
          simp

/-- The last occurrence of a pattern without white space is the same in respaced texts, by induction
on the texts. -/
theorem afterLast?_respaced {pattern : Text} (unspaced : ∀ c ∈ pattern, isSpace c = false)
    (nonempty : pattern ≠ []) (same : Respaced first second)
    : Option.Rel Respaced (afterLast? pattern first) (afterLast? pattern second) := by
  obtain ⟨p, pattern, rfl⟩ := List.exists_cons_of_ne_nil nonempty
  have passed {gap : Text} (spaces : ∀ c ∈ gap, isSpace c = true) (rest : Text)
      : afterLast? (p :: pattern) (gap ++ rest) = afterLast? (p :: pattern) rest := by
    induction gap with
    | nil => rfl
    | cons c gap ih =>
        obtain ⟨here, behind⟩ := List.forall_mem_cons.mp spaces
        have other : c ≠ p := by
          rintro rfl
          rw [unspaced c List.mem_cons_self] at here
          contradiction
        rw [List.cons_append, afterLast?_cons, after?_cons_of_ne other, ih behind]
        simp
  induction same with
  | nil => exact .none
  | letter outside more ih =>
      rw [afterLast?_cons, afterLast?_cons]
      exact rel_orElse ih (Respaced.after? unspaced (.letter outside more))
  | gap leftNonempty rightNonempty leftSpace rightSpace more ih =>
      rwa [passed leftSpace, passed rightSpace]

--------------------------------------------------------------------------------
-- Reading respaced texts
--------------------------------------------------------------------------------

section

variable {α : Type} {alike : α → α → Prop}

theorem rel_getLast? {items others : List α} (same : List.Forall₂ alike items others)
    : Option.Rel alike items.getLast? others.getLast? := by
  have turned := List.rel_reverse same
  rw [← List.head?_reverse, ← List.head?_reverse]
  generalize items.reverse = one at turned
  generalize others.reverse = two at turned
  cases turned with
  | nil => exact .none
  | cons here behind => exact .some here

theorem rel_dropLast {items others : List α} (same : List.Forall₂ alike items others)
    : List.Forall₂ alike items.dropLast others.dropLast := by
  rw [List.dropLast_eq_take, List.dropLast_eq_take, same.length_eq]
  exact List.forall₂_take _ same

/-- Respaced texts are understood alike, or neither of them is understood. -/
def Insensitive (alike : α → α → Prop) (recognise : Text → Option α) : Prop :=
  ∀ ⦃first second : Text⦄, Respaced first second
    → Option.Rel alike (recognise first) (recognise second)

/-- Alike things were read, and respaced texts are left. -/
def ReadAlike (alike : α → α → Prop) (one two : α × Text) : Prop :=
  alike one.1 two.1 ∧ Respaced one.2 two.2

/-- Alike things were found, whatever stands in front of them. -/
def FoundAlike (alike : α → α → Prop) (one two : Text × α) : Prop :=
  alike one.2 two.2

/-- A reader takes something off the front of the text and leaves the rest. -/
def TakesFront (read : Reader α) : Prop :=
  ∀ text value later, read text = some (value, later) → ∃ front, front ≠ [] ∧ text = front ++ later

/-- What is not understood behind some white space is not understood behind less of it either. -/
theorem Insensitive.fails_in_gap {recognise : Text → Option α}
    (insensitive : Insensitive alike recognise) {gap rest : Text} (nonempty : gap ≠ [])
    (spaces : ∀ c ∈ gap, isSpace c = true) (fails : recognise (gap ++ rest) = none)
    : ∀ c later, c :: later <:+ gap → recognise (c :: later ++ rest) = none := by
  intro c later suffix
  have narrow : Respaced (gap ++ rest) (c :: later ++ rest) :=
    .gap nonempty (List.cons_ne_nil c later) spaces
      (fun d member => spaces d (suffix.subset member)) (.refl rest)
  exact eq_none_of_rel (fails ▸ insensitive narrow)

variable {read : Reader α}

/-- Sequences of reads follow each other in the same way in respaced texts, by induction on the
reads. -/
theorem Reads.exists_alike (insensitive : Insensitive (ReadAlike alike) read)
    {rest : Text} {values : List α} (same : Respaced first second)
    (reads : Reads read first values rest)
    : ∃ others left,
        Reads read second others left ∧ List.Forall₂ alike values others ∧ Respaced rest left := by
  induction reads generalizing second with
  | done text => exact ⟨[], second, .done second, .nil, same⟩
  | next found more ih =>
      have step := insensitive same
      rw [found] at step
      generalize here : read second = result at step
      cases step with
      | some both =>
          obtain ⟨others, left, further, behind, rest⟩ := ih both.2
          exact ⟨_, left, .next here further, .cons both.1 behind, rest⟩

theorem Insensitive.many (insensitive : Insensitive (ReadAlike alike) read)
    (consumes : Consumes read) (same : Respaced first second)
    : List.Forall₂ alike (Text.many read first).1 (Text.many read second).1
      ∧ Respaced (Text.many read first).2 (Text.many read second).2 := by
  obtain ⟨reads, stop⟩ := many_reads consumes first
  obtain ⟨others, left, again, values, rest⟩ := reads.exists_alike insensitive same
  have stopped : read left = none := eq_none_of_rel (stop ▸ insensitive rest)
  rw [many_eq consumes again stopped]
  exact ⟨values, rest⟩

/-- Alike things are found in respaced texts. Witness: induction on the length of the first text;
where nothing is read in front of a gap, nothing is read inside it.
-/
theorem Insensitive.findAll (insensitive : Insensitive (ReadAlike alike) read)
    (takes : TakesFront read) (same : Respaced first second)
    : List.Forall₂ alike (Text.findAll read first) (Text.findAll read second) := by
  have shorter {front : Text} (nonempty : front ≠ []) (rest : Text)
      : rest.length < (front ++ rest).length := by
    have positive := List.length_pos_iff.mpr nonempty
    rw [List.length_append]
    omega
  induction size : first.length using Nat.strongRecOn generalizing first second with
  | ind size ih =>
      subst size
      have step := insensitive same
      generalize here : read first = one at step
      generalize there : read second = two at step
      cases step with
      | @some one two both =>
          obtain ⟨front, nonempty, rfl⟩ := takes first one.1 one.2 here
          obtain ⟨start, started, rfl⟩ := takes second two.1 two.2 there
          rw [findAll_of_some here nonempty, findAll_of_some there started]
          exact .cons both.1 (ih _ (shorter nonempty one.2) both.2 rfl)
      | none =>
          cases same with
          | nil => exact .nil
          | letter outside more =>
              rw [findAll_cons_of_none here, findAll_cons_of_none there]
              exact ih _ (Nat.lt_succ_self _) more rfl
          | @gap left right first second leftNonempty rightNonempty leftSpace rightSpace more =>
              rw [findAll_append (insensitive.fails_in_gap leftNonempty leftSpace here),
                findAll_append (insensitive.fails_in_gap rightNonempty rightSpace there)]
              exact ih _ (shorter leftNonempty first) more rfl

/-- What is found first is alike in respaced texts, by induction on the texts. -/
theorem Insensitive.findFirst? {recognise : Text → Option α}
    (insensitive : Insensitive alike recognise)
    : Insensitive (FoundAlike alike) (Text.findFirst? recognise) := by
  intro first second same
  have here {one two : Text} (same : Respaced one two)
      (later : recognise one = none → recognise two = none
        → Option.Rel (FoundAlike alike) (Text.findFirst? recognise one)
            (Text.findFirst? recognise two))
      : Option.Rel (FoundAlike alike) (Text.findFirst? recognise one)
          (Text.findFirst? recognise two) := by
    have step := insensitive same
    generalize left : recognise one = result at step
    generalize right : recognise two = other at step
    cases step with
    | none => exact later left right
    | some both =>
        rw [findFirst?_here left, findFirst?_here right]
        exact .some both
  induction same with
  | nil => exact rel_map (insensitive .nil) fun _ _ both => both
  | letter outside more ih =>
      refine here (.letter outside more) fun fails missing => ?_
      simp only [Text.findFirst?, fails, missing]
      exact rel_map ih fun _ _ both => both
  | gap leftNonempty rightNonempty leftSpace rightSpace more ih =>
      have wider := Respaced.gap leftNonempty rightNonempty leftSpace rightSpace more
      refine here wider fun fails missing => ?_
      rw [findFirst?_append (insensitive.fails_in_gap leftNonempty leftSpace fails),
        findFirst?_append (insensitive.fails_in_gap rightNonempty rightSpace missing)]
      exact rel_map ih fun _ _ both => both

end

end DocBlock.Text

namespace DocBlock.Signature

open Text (Insensitive ReadAlike Reader Respaced TakesFront isSpace isWord rel_bind rel_map)

variable {first second : Text}

--------------------------------------------------------------------------------
-- Lexemes
--------------------------------------------------------------------------------

/-- Two lexemes that differ in nothing but their spacing. -/
structure Lexeme.Alike (one two : Lexeme) : Prop where
  token : one.token = two.token
  gap : Respaced one.gap two.gap

theorem isEmpty_forall₂ {α : Type} {alike : α → α → Prop} {items others : List α}
    (same : List.Forall₂ alike items others)
    : items.isEmpty = others.isEmpty := by
  cases same <;> rfl

theorem respaced_lexemesText {lexemes others : List Lexeme}
    (alike : List.Forall₂ Lexeme.Alike lexemes others)
    : Respaced (lexemesText lexemes) (lexemesText others) := by
  induction alike with
  | nil => exact .nil
  | @cons one two lexemes others here behind ih =>
      rw [lexemesText_cons, lexemesText_cons, Lexeme.text, Lexeme.text, here.token]
      exact ((Respaced.refl two.token.text).append here.gap).append ih

theorem insensitive_wordRun : Insensitive (ReadAlike Eq) Text.wordRun? := by
  intro first second same
  obtain ⟨word, rest⟩ := same.word
  unfold Text.wordRun?
  rw [word]
  split
  · exact .none
  · exact .some ⟨rfl, rest⟩

theorem insensitive_identifier : Insensitive (ReadAlike Eq) Text.identifier? :=
  fun _ _ same => Declarator.identifier?_respaced same

/-- A word that was read, with the white space behind it. -/
def wordLexeme (read : Text × Text) : Lexeme × Text :=
  (⟨.word read.1, read.2.takeWhile isSpace⟩, read.2.dropWhile isSpace)

theorem lexeme?_of_ne_star (word? : Reader Text) {c : Char} (other : c ≠ '*') (rest : Text)
    : lexeme? word? (c :: rest) = (word? (c :: rest)).map wordLexeme := by
  simp only [lexeme?, other, if_false]
  cases word? (c :: rest) <;> rfl

theorem readAlike_wordLexeme {one two : Text × Text} (read : ReadAlike Eq one two)
    : ReadAlike Lexeme.Alike (wordLexeme one) (wordLexeme two) := by
  obtain ⟨gap, rest⟩ := read.2.spaces
  exact ⟨⟨congrArg Token.word read.1, gap⟩, rest⟩

/-- A lexeme is read whatever the spacing. Witness: a star starts both texts or none, and white
space is no star. -/
theorem insensitive_lexeme {word? : Reader Text} (insensitive : Insensitive (ReadAlike Eq) word?)
    : Insensitive (ReadAlike Lexeme.Alike) (lexeme? word?) := by
  intro first second same
  have read := insensitive same
  cases same with
  | nil => exact .none
  | @letter c first second outside more =>
      by_cases star : c = '*'
      · obtain ⟨gap, rest⟩ := more.spaces
        simp only [lexeme?, star, if_true]
        exact .some ⟨⟨rfl, gap⟩, rest⟩
      · rw [lexeme?_of_ne_star word? star, lexeme?_of_ne_star word? star]
        exact rel_map read fun _ _ => readAlike_wordLexeme
  | @gap left right first second leftNonempty rightNonempty leftSpace rightSpace more =>
      obtain ⟨c, left, rfl⟩ := List.exists_cons_of_ne_nil leftNonempty
      obtain ⟨d, right, rfl⟩ := List.exists_cons_of_ne_nil rightNonempty
      have other {c : Char} (space : isSpace c = true) : c ≠ '*' := by
        rintro rfl
        exact absurd space (by decide)
      rw [List.cons_append, List.cons_append] at read ⊢
      rw [lexeme?_of_ne_star word? (other (leftSpace c List.mem_cons_self)),
        lexeme?_of_ne_star word? (other (rightSpace d List.mem_cons_self))]
      exact rel_map read fun _ _ => readAlike_wordLexeme

theorem lexemes_respaced (same : Respaced first second)
    : List.Forall₂ Lexeme.Alike (lexemes first).1 (lexemes second).1
      ∧ Respaced (lexemes first).2 (lexemes second).2 :=
  (insensitive_lexeme insensitive_identifier).many consumes_lexeme same

--------------------------------------------------------------------------------
-- Functions
--------------------------------------------------------------------------------

/-- Two prototypes that differ in nothing but their spacing. -/
structure Prototype.Alike (one two : Prototype) : Prop where
  name : one.name = two.name
  returnType : Respaced one.returnType two.returnType
  parameters : Respaced one.parameters two.parameters

/-- The name is told apart from the return type whatever the spacing. Witness: a word follows the
lexemes in both texts or in none, and otherwise the last lexemes are alike.
-/
theorem splitName?_respaced {read others : List Lexeme}
    (typed : List.Forall₂ Lexeme.Alike read others) (same : Respaced first second)
    : Option.Rel
        (fun one two =>
          List.Forall₂ Lexeme.Alike one.1 two.1
            ∧ Lexeme.Alike one.2.1 two.2.1
            ∧ Respaced one.2.2 two.2.2)
        (splitName? read first) (splitName? others second) := by
  obtain ⟨word, behind⟩ := same.word
  simp only [splitName?, Text.drop_length_takeWhile]
  rw [word]
  split
  · have last := Text.rel_getLast? typed
    have front := Text.rel_dropLast typed
    generalize read.getLast? = one at last
    generalize others.getLast? = two at last
    cases last with
    | none => exact .none
    | @some one two alike =>
        obtain ⟨token, gap⟩ := one
        obtain ⟨token', gap'⟩ := two
        obtain ⟨rfl, gaps⟩ := alike
        cases token with
        | star => exact .none
        | word name =>
            dsimp only
            rw [isEmpty_forall₂ front]
            split
            · exact .none
            · exact .some ⟨front, ⟨rfl, gaps⟩, same⟩
  · obtain ⟨gap, rest⟩ := behind.spaces
    rw [isEmpty_forall₂ typed]
    split
    · exact .none
    · exact .some ⟨typed, ⟨rfl, gap⟩, rest⟩

/-- A text in parentheses is what stands between an opening and a closing one. -/
theorem parenthesised?_eq (text : Text)
    : parenthesised? text
      = (Text.after? ['('] text).bind fun rest =>
        (Text.after? [')'] (rest.dropWhile fun c => c ≠ '(' && c ≠ ')')).map fun later =>
          (rest.takeWhile fun c => c ≠ '(' && c ≠ ')', later) := by
  cases text with
  | nil => rfl
  | cons c rest =>
      by_cases opening : c = '('
      · subst opening
        simp only [parenthesised?, Text.drop_length_takeWhile, Text.after?, if_true,
          Option.bind_some]
        cases rest.dropWhile fun c => c ≠ '(' && c ≠ ')' with
        | nil => rfl
        | cons d later =>
            by_cases closing : d = ')'
            · simp [closing, Text.after?]
            · simp [closing, Text.after?, Ne.symm closing]
      · simp [parenthesised?, Text.after?, opening, Ne.symm opening]

theorem insensitive_parenthesised : Insensitive (ReadAlike Respaced) parenthesised? := by
  intro first second same
  rw [parenthesised?_eq, parenthesised?_eq]
  refine rel_bind (same.after? (by decide)) fun one two rest => ?_
  have spaces : ∀ c, isSpace c = true → (c ≠ '(' && c ≠ ')') = true := by
    intro c space
    simp only [Bool.and_eq_true, decide_eq_true_eq]
    constructor
    all_goals
      rintro rfl
      exact absurd space (by decide)
  obtain ⟨inner, behind⟩ := rest.run spaces
  exact rel_map (behind.after? (by decide)) fun _ _ later => ⟨inner, later⟩

theorem insensitive_afterHead : Insensitive Respaced afterHead? := by
  intro first second same
  obtain ⟨-, behind⟩ := same.spaces
  have unspaced {c : Char} (start : (first.dropWhile isSpace).head? = some c)
      : isSpace c = false :=
    Text.head?_dropWhile start
  unfold afterHead?
  generalize first.dropWhile isSpace = one at behind unspaced
  generalize second.dropWhile isSpace = two at behind
  cases behind with
  | nil => exact .some .nil
  | letter outside more =>
      dsimp only
      split
      · exact .some more
      · exact .none
  | gap leftNonempty rightNonempty leftSpace rightSpace more =>
      obtain ⟨c, left, rfl⟩ := List.exists_cons_of_ne_nil leftNonempty
      have space := leftSpace c List.mem_cons_self
      rw [unspaced rfl] at space
      contradiction

theorem insensitive_function : Insensitive (ReadAlike Prototype.Alike) function? := by
  intro first second same
  obtain ⟨-, text⟩ := same.spaces
  obtain ⟨read, rest⟩ := lexemes_respaced text
  refine rel_bind (splitName?_respaced read rest) fun one two split => ?_
  obtain ⟨typed, named, behind⟩ := split
  refine rel_bind (insensitive_parenthesised behind) fun list other lists => ?_
  refine rel_bind (insensitive_afterHead lists.2) fun later tail rest => ?_
  exact .some ⟨⟨congrArg Token.text named.token, respaced_lexemesText typed, lists.1⟩, rest⟩

theorem afterHead?_isSuffix {text later : Text} (ended : afterHead? text = some later)
    : later <:+ text := by
  have behind := List.dropWhile_suffix isSpace (l := text)
  unfold afterHead? at ended
  split at ended
  · obtain rfl := Option.some.inj ended
    exact List.nil_suffix
  · next c tail shape =>
    obtain ⟨-, same⟩ := Option.ite_none_right_eq_some.mp ended
    obtain rfl := Option.some.inj same
    rw [shape] at behind
    exact (List.suffix_cons c tail).trans behind

theorem takesFront_function : TakesFront function? := by
  intro text prototype later found
  obtain ⟨opening, inner, rest, listed, ended⟩ := function?_listed found
  obtain ⟨before, rfl⟩ := afterHead?_isSuffix ended
  exact ⟨opening ++ '(' :: (inner ++ ')' :: before), by simp, by simp [listed.text]⟩

theorem afterLastComment_eq (text : Text)
    : afterLastComment text = (Text.afterLast? "*/".toList text).getD text := by
  unfold afterLastComment Text.afterLast?
  cases Text.lastIndexOf? "*/".toList text <;> rfl

theorem respaced_afterLastComment (same : Respaced first second)
    : Respaced (afterLastComment first) (afterLastComment second) := by
  have behind := Text.afterLast?_respaced (by decide : ∀ c ∈ "*/".toList, isSpace c = false)
    (by decide) same
  rw [afterLastComment_eq, afterLastComment_eq]
  generalize Text.afterLast? "*/".toList first = one at behind
  generalize Text.afterLast? "*/".toList second = two at behind
  cases behind with
  | none => exact same
  | some rest => exact rest

namespace Prototype.Alike

variable {one two : Prototype}

theorem isStatement (alike : Alike one two) : one.isStatement = two.isStatement := by
  simp only [Prototype.isStatement, firstWord, alike.name, alike.returnType.words]

theorem yieldsValue (alike : Alike one two)
    : Signature.yieldsValue one.returnType = Signature.yieldsValue two.returnType := by
  have star : Text.contains ['*'] one.returnType = Text.contains ['*'] two.returnType := by
    rw [Bool.eq_iff_iff, Text.contains_singleton, Text.contains_singleton]
    exact alike.returnType.mem_iff (by decide)
  simp only [Signature.yieldsValue, alike.returnType.wordRuns, star]

end Prototype.Alike

/-- Two declarations of the same name with the same parameters, both with a result or both without
one. -/
structure SameInterface (one two : Declaration) : Prop where
  name : one.name = two.name
  returns : one.returns = two.returns
  parameters : one.parameters = two.parameters

theorem Prototype.Alike.sameInterface {one two : Prototype} (alike : Prototype.Alike one two)
    (inferDirection : Bool)
    : SameInterface (one.declaration inferDirection) (two.declaration inferDirection) :=
  ⟨alike.name, alike.yieldsValue, readParameters_respaced alike.parameters⟩

theorem insensitive_lastFunction (inferDirection : Bool)
    : Insensitive SameInterface (lastFunction? inferDirection) := by
  intro first second same
  have found := insensitive_function.findAll takesFront_function (respaced_afterLastComment same)
  have kept := List.rel_filter (p := (!·.isStatement)) (q := (!·.isStatement))
    (fun _ _ alike => by simp [Prototype.Alike.isStatement alike]) found
  exact rel_map (Text.rel_getLast? kept) fun _ _ alike => alike.sameInterface inferDirection

--------------------------------------------------------------------------------
-- Function-pointer types
--------------------------------------------------------------------------------

theorem withoutTypedef_respaced {lexemes others : List Lexeme}
    (alike : List.Forall₂ Lexeme.Alike lexemes others)
    : List.Forall₂ Lexeme.Alike (withoutTypedef lexemes) (withoutTypedef others) := by
  cases alike with
  | nil => exact .nil
  | @cons one two lexemes others here behind =>
      obtain ⟨token, gap⟩ := one
      obtain ⟨token', gap'⟩ := two
      obtain ⟨rfl, gaps⟩ : token = token' ∧ Respaced gap gap' := ⟨here.token, here.gap⟩
      cases token with
      | star => exact .cons here behind
      | word name =>
          cases behind with
          | nil => exact .cons here .nil
          | cons next more =>
              simp only [withoutTypedef, gaps.isEmpty_eq]
              split
              · exact .cons next more
              · exact .cons here (.cons next more)

/-- Every word but the last is followed by white space whatever its width. -/
theorem all_spaced_respaced {lexemes others : List Lexeme}
    (alike : List.Forall₂ Lexeme.Alike lexemes others)
    : (lexemes.all fun lexeme => lexeme.token = .star || !lexeme.gap.isEmpty)
      = others.all fun lexeme => lexeme.token = .star || !lexeme.gap.isEmpty := by
  induction alike with
  | nil => rfl
  | cons here behind ih =>
      rw [List.all_cons, List.all_cons, ih, here.token, here.gap.isEmpty_eq]

/-- The name of a pointer is the last of the words and stars in front of a closing parenthesis. -/
theorem pointerName?_eq {text rest : Text} {read : List Lexeme}
    (lexemes : Text.many (lexeme? Text.wordRun?) text = (read, rest))
    : pointerName? text
      = read.getLast?.bind fun last =>
        (Text.after? [')'] rest).bind fun later =>
          match last.token with
          | .star => none
          | .word name =>
            if read.dropLast.all fun lexeme => lexeme.token = .star || !lexeme.gap.isEmpty then
              some ((lexemesText read ++ [')'], name), later)
            else none := by
  unfold pointerName?
  rw [lexemes]
  dsimp only
  cases read.getLast? with
  | none => rfl
  | some last =>
      obtain ⟨token, gap⟩ := last
      cases token with
      | star => simp
      | word name =>
          cases rest with
          | nil => rfl
          | cons c later =>
              by_cases closing : c = ')'
              · subst closing
                rfl
              · simp [closing, Text.after?, Ne.symm closing]

/-- The name of a pointer is read whatever the spacing. -/
theorem insensitive_pointerName
    : Insensitive (ReadAlike fun one two => one.2 = two.2) pointerName? := by
  intro first second same
  have consumes := consumes_lexeme_of consumes_wordRun
  obtain ⟨read, rest⟩ := (insensitive_lexeme insensitive_wordRun).many consumes same
  rw [pointerName?_eq (Prod.eta _).symm, pointerName?_eq (Prod.eta _).symm]
  refine rel_bind (Text.rel_getLast? read) fun last other alike => ?_
  refine rel_bind (rest.after? (by decide)) fun later tail behind => ?_
  rw [alike.token, all_spaced_respaced (Text.rel_dropLast read)]
  split
  · exact .none
  · split
    · exact .some ⟨rfl, behind⟩
    · exact .none

/-- The declarator of a pointer is read whatever the spacing. -/
theorem insensitive_pointerDeclarator
    : Insensitive (fun one two => one.2.1 = two.2.1 ∧ Respaced one.2.2 two.2.2)
        pointerDeclarator? := by
  intro first second same
  refine rel_bind (same.after? (by decide)) fun _ _ opened => ?_
  refine rel_bind (opened.spaces.2.after? (by decide)) fun _ _ starred => ?_
  refine rel_bind (insensitive_pointerName starred.spaces.2) fun one two named => ?_
  refine rel_bind (insensitive_parenthesised named.2.spaces.2) fun list other lists => ?_
  have spaces : ∀ c, isSpace c = true → (isSpace c || c = ';') = true := by
    intro c space
    simp [space]
  have ended := lists.2.all spaces
  dsimp only
  rw [ended]
  split
  · exact .some ⟨named.1, lists.1⟩
  · exact .none

theorem insensitive_functionPointer : Insensitive Prototype.Alike functionPointer? := by
  intro first second same
  obtain ⟨read, rest⟩ := lexemes_respaced same.spaces.2
  unfold functionPointer?
  dsimp only
  rw [isEmpty_forall₂ read]
  split
  · exact .none
  · refine rel_bind (insensitive_pointerDeclarator rest) fun one two declarator => ?_
    exact .some ⟨declarator.1, respaced_lexemesText (withoutTypedef_respaced read), declarator.2⟩

--------------------------------------------------------------------------------
-- The layout of a text
--------------------------------------------------------------------------------

/-- The layout of a text does not matter for what it declares: with other white space in its gaps it
declares the same function or none, the same function-pointer type or none, and the same parameters.
Witness: every reader passes over white space or takes all of it, so the searches go the same way.
-/
theorem layout_irrelevant (inferDirection : Bool) {first second : Text}
    (same : Respaced first second)
    : Option.Rel SameInterface (lastFunction? inferDirection first)
        (lastFunction? inferDirection second)
      ∧ Option.Rel SameInterface (functionPointerType? inferDirection first)
          (functionPointerType? inferDirection second)
      ∧ readParameters inferDirection first = readParameters inferDirection second := by
  refine ⟨insensitive_lastFunction inferDirection same, ?_, readParameters_respaced same⟩
  exact rel_map (insensitive_functionPointer.findFirst? same) fun _ _ alike =>
    alike.sameInterface inferDirection

/-- A prototype on one line. -/
def lookupOnLine : Text :=
  "const char *lookup( int  key,char name [8] ) ;".toList

/-- The prototype with its parts on lines of their own. -/
def lookupOnLines : Text :=
  "const\n\tchar\n*lookup(\n\tint key,char\tname\n[8]\n)\n;".toList

/-- Line breaks between the parts of a prototype, and inside its list, change nothing. -/
theorem layout_irrelevant_lookup
    : Respaced lookupOnLine lookupOnLines
      ∧ ∃ declaration,
          lastFunction? true lookupOnLines = some declaration
          ∧ declaration.name = "lookup".toList
          ∧ declaration.returns = true
          ∧ declaration.parameters
            = [
                {
                  name := "key".toList
                  type := some "int".toList
                  direction := some "in".toList
                  index := some 0
                },
                {
                  name := "name".toList
                  type := some "char[8]".toList
                  direction := some "in".toList
                  index := some 1
                }
              ] := by
  have same : Respaced lookupOnLine lookupOnLines := by decide
  obtain ⟨functions, -, -⟩ := layout_irrelevant true same
  refine ⟨same, ?_⟩
  generalize lastFunction? true lookupOnLines = found at functions
  cases functions with
  | some both => exact ⟨_, rfl, both.name.symm, both.returns.symm, both.parameters.symm⟩

end DocBlock.Signature
