import DocBlock.Proofs.Text.Classes
import DocBlock.Proofs.Text.Repetition
import DocBlock.Proofs.Text.Runs
import DocBlock.Proofs.Text.Scanning
import DocBlock.Proofs.Text.Search
import DocBlock.Signature.Function

/-! The parts of a function head as they stand in the text. The lexemes of the return type, the name
and the parameter list follow each other without anything between them.
-/

namespace DocBlock.Signature

open Text (Reads Consumes isSpace isWord)

/-- A lexeme in front of a text: a star, or a word that the text does not continue, with white
space. -/
structure Lexeme.Precedes (lexeme : Lexeme) (later : Text) : Prop where
  gap : ∀ c ∈ lexeme.gap, isSpace c = true
  token : lexeme.token = .star
    ∨ ∃ name,
        lexeme.token = .word name
          ∧ name ≠ []
          ∧ (∀ c ∈ name, isWord c = true)
          ∧ ∀ c, (lexeme.gap ++ later).head? = some c → isWord c = false

/-- A lexeme of a return type stands at the front of the text. -/
theorem lexeme?_sound {text later : Text} {lexeme : Lexeme}
    (found : lexeme? Text.identifier? text = some (lexeme, later))
    : text = lexeme.text ++ later ∧ lexeme.Precedes later := by
  have spaces (rest : Text) : ∀ c ∈ rest.takeWhile isSpace, isSpace c = true :=
    fun c member => List.mem_takeWhile_imp member
  cases text with
  | nil => simp [lexeme?] at found
  | cons c rest =>
      by_cases star : c = '*'
      · subst star
        obtain ⟨rfl, rfl⟩ : ⟨.star, rest.takeWhile isSpace⟩ = lexeme
            ∧ rest.dropWhile isSpace = later := by
          simpa [lexeme?] using found
        exact ⟨by simp [Lexeme.text, Token.text], spaces rest, .inl rfl⟩
      · by_cases start : Text.isIdentifierStart c = true
        · obtain ⟨rfl, rfl⟩ : ⟨.word (c :: rest.takeWhile isWord),
                (rest.dropWhile isWord).takeWhile isSpace⟩ = lexeme
              ∧ (rest.dropWhile isWord).dropWhile isSpace = later := by
            simpa [lexeme?, star, Text.identifier?, start] using found
          refine ⟨by simp [Lexeme.text, Token.text], spaces _, .inr ⟨_, rfl, by simp, ?_, ?_⟩⟩
          · refine List.forall_mem_cons.mpr ⟨Text.isWord_of_isIdentifierStart start, ?_⟩
            exact fun d member => List.mem_takeWhile_imp member
          · intro d first
            rw [List.takeWhile_append_dropWhile] at first
            exact Text.head?_dropWhile first
        · simp [lexeme?, star, Text.identifier?, start] at found

theorem Lexeme.text_ne_nil {lexeme : Lexeme} {later : Text} (precedes : lexeme.Precedes later)
    : lexeme.text ≠ [] := by
  rcases precedes.token with star | ⟨name, word, nonempty, -⟩
  · simp [Lexeme.text, star, Token.text]
  · simp [Lexeme.text, word, Token.text, nonempty]

theorem consumes_lexeme : Consumes (lexeme? Text.identifier?) := by
  intro text lexeme later found
  obtain ⟨rfl, precedes⟩ := lexeme?_sound found
  have positive := List.length_pos_iff.mpr (Lexeme.text_ne_nil precedes)
  rw [List.length_append]
  omega

/-- Lexemes stand in the text one behind the other, by induction on the reads. -/
theorem lexemesText_append {text rest : Text} {lexemes : List Lexeme}
    (reads : Reads (lexeme? Text.identifier?) text lexemes rest)
    : text = lexemesText lexemes ++ rest := by
  induction reads with
  | done => rfl
  | next found more ih =>
      rw [(lexeme?_sound found).1, ih]
      simp [lexemesText]

/-- A word with white space behind it, as it names a function. -/
structure IsName (name gap : Text) : Prop where
  nonempty : name ≠ []
  word : ∀ c ∈ name, isWord c = true
  space : ∀ c ∈ gap, isSpace c = true

/-- The declared name follows the lexemes of the return type. Witness: either a word follows all
lexemes, or the last lexeme is the name.
-/
theorem splitName?_sound {text rest behind : Text} {read returnType : List Lexeme} {name : Lexeme}
    (reads : Reads (lexeme? Text.identifier?) text read rest)
    (split : splitName? read rest = some (returnType, name, behind))
    : ∃ word gap,
        name = ⟨.word word, gap⟩
          ∧ IsName word gap
          ∧ returnType ≠ []
          ∧ Reads (lexeme? Text.identifier?) text returnType (word ++ (gap ++ behind)) := by
  unfold splitName? at split
  dsimp only at split
  split at split
  · split at split
    · next word gap last =>
      obtain ⟨nonempty, same⟩ := Option.ite_none_left_eq_some.mp split
      obtain ⟨rfl, rfl, rfl⟩ : read.dropLast = returnType
          ∧ ⟨.word word, gap⟩ = name ∧ rest = behind := by
        simpa using same
      obtain ⟨front, shape⟩ := List.getLast?_eq_some_iff.mp last
      rw [shape] at reads
      obtain ⟨middle, before, tail⟩ := reads.split
      cases tail with
      | next found more =>
          cases more
          obtain ⟨rfl, precedes⟩ := lexeme?_sound found
          refine ⟨word, gap, rfl, ?_, by simpa using nonempty, ?_⟩
          · rcases precedes.token with star | ⟨name, token, named, letters, -⟩
            · simp at star
            · obtain rfl : word = name := by simpa using token
              exact ⟨named, letters, precedes.gap⟩
          · simpa [shape, Lexeme.text, Token.text] using before
    · contradiction
  · next named =>
    obtain ⟨nonempty, same⟩ := Option.ite_none_left_eq_some.mp split
    rw [Text.drop_length_takeWhile] at same
    obtain ⟨rfl, rfl, rfl⟩ : read = returnType
        ∧ ⟨.word (rest.takeWhile isWord), (rest.dropWhile isWord).takeWhile isSpace⟩ = name
        ∧ (rest.dropWhile isWord).dropWhile isSpace = behind := by
      simpa using same
    refine ⟨_, _, rfl, ⟨by simpa using named, ?_, ?_⟩, by simpa using nonempty, ?_⟩
    · exact fun c member => List.mem_takeWhile_imp member
    · exact fun c member => List.mem_takeWhile_imp member
    · rwa [List.takeWhile_append_dropWhile, List.takeWhile_append_dropWhile]

theorem parenthesised?_sound {text inner later : Text}
    (found : parenthesised? text = some (inner, later))
    : text = '(' :: (inner ++ ')' :: later) := by
  unfold parenthesised? at found
  split at found
  · next rest =>
    dsimp only at found
    split at found
    · next behind tail =>
      obtain ⟨rfl, rfl⟩ := Prod.mk.inj (Option.some.inj found)
      rw [Text.drop_length_takeWhile] at tail
      rw [← tail, List.takeWhile_append_dropWhile]
    · contradiction
  · contradiction

/-- A function head as it stands in the text: the lexemes of the return type, the name, and the
parameter list. -/
structure HeadShape (head : Text) (returnType : List Lexeme) (name gap parameters : Text)
    : Prop where
  text : head = lexemesText returnType ++ (name ++ (gap ++ '(' :: (parameters ++ [')'])))
  named : IsName name gap
  returns : returnType ≠ []

/-- The head of a prototype stands in the text behind white space. -/
theorem function?_sound {text later : Text} {prototype : Prototype}
    (found : function? text = some (prototype, later))
    : ∃ returnType name gap parameters rest,
        HeadShape prototype.head returnType name gap parameters
          ∧ text.dropWhile isSpace = prototype.head ++ rest
          ∧ Reads (lexeme? Text.identifier?) (text.dropWhile isSpace) returnType
              (name ++ (gap ++ '(' :: (parameters ++ ')' :: rest))) := by
  obtain ⟨reads, -⟩ := Text.many_reads consumes_lexeme (text.dropWhile isSpace)
  unfold function? lexemes at found
  generalize Text.many (lexeme? Text.identifier?) (text.dropWhile isSpace) = result at reads found
  obtain ⟨read, rest⟩ := result
  simp only [Option.bind_eq_bind, Option.bind_eq_some_iff, Prod.exists, Option.some.injEq,
    Prod.mk.injEq] at found
  obtain ⟨returnType, lexeme, behind, split, parameters, tail, list, _, -, rfl, -⟩ := found
  obtain ⟨name, gap, rfl, named, returns, before⟩ := splitName?_sound reads split
  rw [parenthesised?_sound list] at before
  refine ⟨returnType, name, gap, parameters, tail, ⟨?_, named, returns⟩, ?_, before⟩
  · simp [Lexeme.text, Token.text]
  · rw [lexemesText_append before]
    simp [Lexeme.text, Token.text]

theorem afterLastComment_isSuffix (text : Text) : afterLastComment text <:+ text := by
  unfold afterLastComment
  split
  · exact List.drop_suffix _ text
  · exact List.suffix_rfl

/-- A text that is declared as a whole is read as one function from its start. Witness: its head is
found at some position, and only at the start is there room for all of it.
-/
theorem function?_of_whole {inferDirection : Bool} {text : Text} {declaration : Declaration}
    (found : lastFunction? inferDirection text = some declaration)
    (whole : declaration.signature = text)
    : ∃ prototype later,
        function? text = some (prototype, later)
          ∧ prototype.isStatement = false
          ∧ prototype.declaration inferDirection = declaration := by
  obtain ⟨prototype, last, rfl⟩ := Option.map_eq_some_iff.mp found
  obtain ⟨member, statement⟩ := List.mem_filter.mp (List.mem_of_getLast? last)
  obtain ⟨rest, later, position, read⟩ := Text.mem_findAll member
  obtain ⟨-, -, -, -, behind, -, stands, -⟩ := function?_sound read
  have head : prototype.head = text := whole
  have suffix : rest <:+ text := position.trans (afterLastComment_isSuffix text)
  have size := (List.dropWhile_suffix isSpace (l := rest)).length_le
  rw [stands, head, List.length_append] at size
  obtain rfl : rest = text := suffix.eq_of_length (Nat.le_antisymm suffix.length_le (by omega))
  exact ⟨prototype, later, read, by simpa using statement, rfl⟩

/-- A text that is declared as a whole is one function head. -/
theorem shape_of_whole {inferDirection : Bool} {text : Text} {declaration : Declaration}
    (found : lastFunction? inferDirection text = some declaration)
    (whole : declaration.signature = text)
    : ∃ returnType name gap parameters,
        HeadShape text returnType name gap parameters
          ∧ Reads (lexeme? Text.identifier?) text returnType
              (name ++ (gap ++ '(' :: (parameters ++ [')']))) := by
  obtain ⟨prototype, later, read, -, rfl⟩ := function?_of_whole found whole
  obtain ⟨returnType, name, gap, parameters, behind, shape, stands, reads⟩ := function?_sound read
  have head : prototype.head = text := whole
  rw [head] at stands shape
  have size := (List.dropWhile_suffix isSpace (l := text)).length_le
  rw [stands, List.length_append] at size
  obtain rfl : behind = [] := List.eq_nil_of_length_eq_zero (by omega)
  rw [List.append_nil] at stands
  rw [stands] at reads
  exact ⟨returnType, name, gap, parameters, shape, reads⟩

end DocBlock.Signature
