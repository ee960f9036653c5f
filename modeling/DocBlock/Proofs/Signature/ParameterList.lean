import DocBlock.Proofs.Signature.Lexemes
import DocBlock.Proofs.Signature.Spacing

/-! The parameter list of a function head. What stands in front of its parenthesis is read without
looking at the list, so a head whose list is respaced declares the same function.
-/

namespace DocBlock.Text

variable {α : Type} {read : Reader α}

/-- Reads that do not look at a tail leave it behind, by induction on the reads. -/
theorem Reads.append_tail {tail : Text}
    (settled : ∀ text, read (text ++ tail)
      = (read text).map fun (value, later) => (value, later ++ tail))
    {text rest : Text} {values : List α} (reads : Reads read text values rest)
    : Reads read (text ++ tail) values (rest ++ tail) := by
  induction reads with
  | done text => exact .done (text ++ tail)
  | @next text later rest value values found more ih =>
      have here : read (text ++ tail) = some (value, later ++ tail) := by rw [settled, found]; rfl
      exact .next here ih

theorem many_append_tail (consumes : Consumes read) {tail : Text}
    (settled : ∀ text, read (text ++ tail)
      = (read text).map fun (value, later) => (value, later ++ tail))
    (text : Text)
    : many read (text ++ tail) = ((many read text).1, (many read text).2 ++ tail) := by
  obtain ⟨reads, stop⟩ := many_reads consumes text
  refine many_eq consumes (reads.append_tail settled) ?_
  rw [settled, stop]
  rfl

end DocBlock.Text

namespace DocBlock.Signature

open Text (Respaced isSpace isWord)

/-- A name is settled before a parenthesis. -/
theorem identifier?_append_stop (text rest : Text)
    : Text.identifier? (text ++ '(' :: rest)
      = (Text.identifier? text).map fun (name, later) => (name, later ++ '(' :: rest) := by
  cases text with
  | nil =>
      have start : Text.isIdentifierStart '(' = false := by decide
      simp [Text.identifier?, start]
  | cons c text =>
      have taken := @Text.takeWhile_append_stop isWord '(' (by decide) text rest
      have left := @Text.dropWhile_append_stop isWord '(' (by decide) text rest
      simp only [List.cons_append, Text.identifier?, taken, left]
      split <;> rfl

/-- A lexeme is settled before a parenthesis. -/
theorem lexeme?_append_stop (text rest : Text)
    : lexeme? Text.identifier? (text ++ '(' :: rest)
      = (lexeme? Text.identifier? text).map fun (lexeme, later) =>
        (lexeme, later ++ '(' :: rest) := by
  have taken (text : Text) := @Text.takeWhile_append_stop isSpace '(' (by decide) text rest
  have left (text : Text) := @Text.dropWhile_append_stop isSpace '(' (by decide) text rest
  cases text with
  | nil =>
      have start : Text.isIdentifierStart '(' = false := by decide
      simp [lexeme?, Text.identifier?, start]
  | cons c text =>
      by_cases star : c = '*'
      · simp [lexeme?, star, taken, left]
      · have named := identifier?_append_stop (c :: text) rest
        simp only [List.cons_append] at named
        simp only [List.cons_append, lexeme?, star, if_false, named]
        cases Text.identifier? (c :: text) with
        | none => rfl
        | some found => simp only [Option.map_some, taken, left]

/-- The declared name is settled before a parenthesis. -/
theorem splitName?_append_stop (read : List Lexeme) (rest tail : Text)
    : splitName? read (rest ++ '(' :: tail)
      = (splitName? read rest).map fun (returnType, name, behind) =>
        (returnType, name, behind ++ '(' :: tail) := by
  have word := @Text.takeWhile_append_stop isWord '(' (by decide) rest tail
  have behind : (rest ++ '(' :: tail).drop (rest.takeWhile isWord).length
      = rest.drop (rest.takeWhile isWord).length ++ '(' :: tail :=
    List.drop_append_of_le_length (List.takeWhile_prefix isWord).length_le
  have taken (text : Text) := @Text.takeWhile_append_stop isSpace '(' (by decide) text tail
  have left (text : Text) := @Text.dropWhile_append_stop isSpace '(' (by decide) text tail
  simp only [splitName?, word, behind, taken, left]
  split
  · split
    · split <;> rfl
    · rfl
  · split <;> rfl

/-- A list without parentheses inside is read as a whole. -/
theorem parenthesised?_flat {parameters : Text} (flat : ∀ c ∈ parameters, c ≠ '(' ∧ c ≠ ')')
    (later : Text)
    : parenthesised? ('(' :: (parameters ++ ')' :: later)) = some (parameters, later) := by
  have taken : (parameters ++ ')' :: later).takeWhile (fun c => c ≠ '(' && c ≠ ')')
      = parameters := by
    refine Text.takeWhile_run (fun c member => ?_) (by rintro c ⟨⟩; decide)
    simp [flat c member]
  simp only [parenthesised?, taken, List.drop_left]

/-- A function head with a flat list: the return type and the name are read from the text in front
of the list alone, and the name ends there. -/
theorem function?_flat {front parameters : Text} (unopened : '(' ∉ front)
    (flat : ∀ c ∈ parameters, c ≠ '(' ∧ c ≠ ')')
    : function? (front ++ '(' :: (parameters ++ [')']))
      = (splitName? (lexemes (front.dropWhile isSpace)).1
            (lexemes (front.dropWhile isSpace)).2).bind
          fun (returnType, name, behind) =>
            if behind = [] then
              some (
                {
                  indent := front.takeWhile isSpace
                  head := lexemesText returnType ++ name.text ++ '(' :: parameters ++ [')']
                  returnType := lexemesText returnType
                  name := name.token.text
                  parameters
                },
                [])
            else none := by
  have indent := @Text.takeWhile_append_stop isSpace '(' (by decide) front (parameters ++ [')'])
  have text := @Text.dropWhile_append_stop isSpace '(' (by decide) front (parameters ++ [')'])
  have read := Text.many_append_tail consumes_lexeme
    (fun text => lexeme?_append_stop text (parameters ++ [')'])) (front.dropWhile isSpace)
  obtain ⟨reads, -⟩ := Text.many_reads consumes_lexeme (front.dropWhile isSpace)
  simp only [function?, lexemes, indent, text, read, splitName?_append_stop]
  cases split : splitName? (Text.many (lexeme? Text.identifier?) (front.dropWhile isSpace)).1
      (Text.many (lexeme? Text.identifier?) (front.dropWhile isSpace)).2 with
  | none => rfl
  | some found =>
      obtain ⟨returnType, name, behind⟩ := found
      cases behind with
      | nil => simp [parenthesised?_flat flat [], afterHead?]
      | cons c behind =>
          obtain ⟨word, gap, -, -, -, before⟩ := splitName?_sound reads split
          have member : c ∈ front := by
            refine (List.dropWhile_suffix isSpace).subset ?_
            rw [lexemesText_append before]
            simp
          have other : c ≠ '(' := fun same => unopened (same ▸ member)
          simp [parenthesised?, other]

/-- Nothing is cut off a text without slashes as a comment. -/
theorem afterLastComment_of_not_mem {text : Text} (absent : '/' ∉ text)
    : afterLastComment text = text := by
  have missing : Text.lastIndexOf? "*/".toList text = none :=
    Text.lastIndexOf?_eq_none fun inside => absent (inside.subset (by simp))
  simp only [afterLastComment, missing]

/-- A text that is read as one function and is no statement declares it. -/
theorem lastFunction?_of_function {inferDirection : Bool} {text : Text} {prototype : Prototype}
    (absent : '/' ∉ text) (nonempty : text ≠ [])
    (read : function? text = some (prototype, [])) (statement : prototype.isStatement = false)
    : lastFunction? inferDirection text = some (prototype.declaration inferDirection) := by
  have alone : Text.findAll function? (text ++ []) = [prototype] :=
    Text.findAll_of_some (by rw [List.append_nil]; exact read) nonempty
  rw [List.append_nil] at alone
  simp [lastFunction?, afterLastComment_of_not_mem absent, alone, statement]

/-- A head that is declared as a whole declares the same function with its list respaced. Witness:
the same return type and name are read in front of the list, and the same parameters in it.
-/
theorem lastFunction?_respaced {inferDirection : Bool} {front parameters others : Text}
    {declaration : Declaration} (respaced : Respaced others parameters) (unopened : '(' ∉ front)
    (flat : ∀ c ∈ parameters, c ≠ '(' ∧ c ≠ ')') (flatOthers : ∀ c ∈ others, c ≠ '(' ∧ c ≠ ')')
    (slashless : '/' ∉ front ++ '(' :: (others ++ [')']))
    (found : lastFunction? inferDirection (front ++ '(' :: (parameters ++ [')']))
      = some declaration)
    (whole : declaration.signature = front ++ '(' :: (parameters ++ [')']))
    : lastFunction? inferDirection (front ++ '(' :: (others ++ [')']))
      = some { declaration with signature := front ++ '(' :: (others ++ [')']) } := by
  obtain ⟨prototype, later, read, statement, rfl⟩ := function?_of_whole found whole
  rw [function?_flat unopened flat, Option.bind_eq_some_iff] at read
  obtain ⟨⟨returnType, name, behind⟩, split, kept⟩ := read
  obtain ⟨rfl, same⟩ := Option.ite_none_right_eq_some.mp kept
  obtain ⟨rfl, rfl⟩ := Prod.mk.inj (Option.some.inj same)
  have callee : lexemesText returnType ++ name.text = front := by
    refine (List.append_left_inj ('(' :: (parameters ++ [')']))).mp ?_
    simpa [Prototype.declaration] using whole
  have other := function?_flat unopened flatOthers
  rw [split, Option.bind_some] at other
  dsimp only at other
  rw [if_pos rfl, callee] at other
  -- Whether a prototype is a statement is seen from its name and its return type.
  rw [lastFunction?_of_function slashless (by simp) other statement]
  simp [Prototype.declaration, readParameters_respaced respaced]

end DocBlock.Signature
