import DocBlock.Proofs.Signature.Prototypes
import DocBlock.Signature.FunctionPointer
import Mathlib.Data.List.Count

/-! Function-pointer types and prototypes exclude each other. What is written as a function-pointer
type is read as one and never as a prototype, because another list follows the first one; and what
is written as a prototype is never read as a function-pointer type, which has two lists.
-/

namespace DocBlock.Text

/-- A character stands at its first occurrence or behind it. -/
theorem append_cons_cases {c : Char} {left right first second : Text} (absent : c ∉ first)
    (whole : left ++ c :: right = first ++ c :: second)
    : (left = first ∧ right = second)
      ∨ ∃ more, left = first ++ c :: more ∧ second = more ++ c :: right := by
  rcases List.append_eq_append_iff.mp whole with ⟨more, rfl, later⟩ | ⟨more, rfl, later⟩
  · cases more with
    | nil => exact .inl ⟨by simp, (List.cons.inj later).2⟩
    | cons d more =>
        obtain ⟨rfl, -⟩ := List.cons.inj later
        exact absurd (by simp) absent
  · cases more with
    | nil => exact .inl ⟨by simp, (List.cons.inj later).2.symm⟩
    | cons d more =>
        obtain ⟨rfl, rfl⟩ := List.cons.inj later
        exact .inr ⟨more, rfl, rfl⟩

end DocBlock.Text

namespace DocBlock.Signature

open Text (Reads Consumes isSpace isSpaceOrStar isWord)

--------------------------------------------------------------------------------
-- Function-pointer types as they are written
--------------------------------------------------------------------------------

/-- A function-pointer type as it is written. The word `typedef` may stand in front, with white
space behind it. -/
structure PointerHeading where
  indent : Text
  typedefGap? : Option Text
  returnType : ReturnType ['(']
  openGap : Text
  starGap : Text
  name : Text
  nameGap : Text
  listGap : Text
  parameters : Text
  indented : ∀ c ∈ indent, isSpace c = true
  typedefSpaced : ∀ gap ∈ typedefGap?, gap ≠ [] ∧ ∀ c ∈ gap, isSpace c = true
  untyped : returnType.first ≠ "typedef".toList
  openSpaced : ∀ c ∈ openGap, isSpace c = true
  starSpaced : ∀ c ∈ starGap, isSpace c = true
  named : IsName name nameGap
  listSpaced : ∀ c ∈ listGap, isSpace c = true
  flat : ∀ c ∈ parameters, c ≠ '(' ∧ c ≠ ')'

namespace PointerHeading

variable (pointer : PointerHeading)

/-- The words and stars in front of the first parenthesis. -/
def lexemes : List Lexeme :=
  match pointer.typedefGap? with
  | some gap => ⟨.word "typedef".toList, gap⟩ :: pointer.returnType.lexemes
  | none => pointer.returnType.lexemes

/-- What stands between the first parentheses. -/
def pointed : Text :=
  pointer.openGap ++ '*' :: (pointer.starGap ++ (pointer.name ++ pointer.nameGap))

/-- The text from the first parenthesis on. -/
def declarator : Text :=
  '(' :: (pointer.pointed ++ ')' :: (pointer.listGap ++ '(' :: (pointer.parameters ++ [')'])))

/-- The source text without the white space in front. -/
def head : Text :=
  lexemesText pointer.lexemes ++ pointer.declarator

/-- The source text. -/
def text : Text :=
  pointer.indent ++ pointer.head

/-- The parts of the type. -/
def prototype : Prototype :=
  {
    indent := pointer.indent
    head := pointer.head
    returnType := pointer.returnType.text
    name := pointer.name
    parameters := pointer.parameters
  }

--------------------------------------------------------------------------------
-- Reading a function-pointer type
--------------------------------------------------------------------------------

theorem spaced_lexemes : Spaced pointer.lexemes ['('] := by
  have given := pointer.typedefSpaced
  unfold lexemes
  split
  · next gap here =>
    obtain ⟨nonempty, space⟩ := given gap here
    refine .word (by decide) space ?_ pointer.returnType.spaced
    obtain ⟨c, more, rfl⟩ := List.exists_cons_of_ne_nil nonempty
    rintro d ⟨⟩
    exact Text.isWord_of_isSpace (space c List.mem_cons_self)
  · exact pointer.returnType.spaced

/-- What is left without `typedef` is the return type. -/
theorem withoutTypedef_lexemes : withoutTypedef pointer.lexemes = pointer.returnType.lexemes := by
  have given := pointer.typedefSpaced
  unfold lexemes
  split
  · next gap here =>
    have nonempty := (given gap here).1
    simp [withoutTypedef, ReturnType.lexemes, nonempty]
  · rw [ReturnType.lexemes]
    cases pointer.returnType.more with
    | nil => rfl
    | cons lexeme more =>
        have other : ¬ (pointer.returnType.first = "typedef".toList
            && !pointer.returnType.gap.isEmpty) = true := by
          rw [Bool.and_eq_true, decide_eq_true_eq]
          exact fun both => pointer.untyped both.1
        rw [withoutTypedef, if_neg other]

end PointerHeading

/-- A name alone between star and parenthesis is read as it is written. -/
theorem pointerName?_append {name gap : Text} (named : IsName name gap) (rest : Text)
    : pointerName? (name ++ (gap ++ ')' :: rest))
      = some ((name ++ (gap ++ [')']), name), rest) := by
  have ended := named.ended (by decide : isWord ')' = false) rest
  have unspaced : ∀ c ∈ (')' :: rest).head?, isSpace c = false := by
    rintro c ⟨⟩
    decide
  have read := lexeme?_word named unspaced (named.wordRun?_append ended)
  have stop : lexeme? Text.wordRun? (')' :: rest) = none := by
    have letter : isWord ')' = false := by decide
    simp [lexeme?, Text.wordRun?, letter]
  have alone : Text.many (lexeme? Text.wordRun?) (name ++ (gap ++ ')' :: rest))
      = ([⟨.word name, gap⟩], ')' :: rest) :=
    Text.many_eq (consumes_lexeme_of consumes_wordRun) (.next read (.done _)) stop
  simp [pointerName?, alone, lexemesText, Lexeme.text, Token.text]

namespace PointerHeading

variable (pointer : PointerHeading)

/-- The lists of a function-pointer type are read as they are written, with nothing but white space
and semicolons behind them. -/
theorem pointerDeclarator?_append {tail : Text} (ended : ∀ c ∈ tail, isSpace c = true ∨ c = ';')
    : pointerDeclarator? (pointer.declarator ++ tail)
      = some (pointer.declarator, pointer.name, pointer.parameters) := by
  have star (rest : Text) : ∀ c ∈ ('*' :: rest).head?, isSpace c = false := by
    rintro c ⟨⟩
    decide
  have list (rest : Text) : ∀ c ∈ ('(' :: rest).head?, isSpace c = false := by
    rintro c ⟨⟩
    decide
  have opened (rest : Text) : Text.after? ['('] ('(' :: rest) = some rest := rfl
  have starred (rest : Text) : Text.after? ['*'] ('*' :: rest) = some rest := rfl
  have separators : (tail.all fun c => isSpace c || c = ';') = true := by simpa using ended
  simp only [pointerDeclarator?, declarator, pointed, List.cons_append, List.append_assoc,
    List.nil_append, opened, Option.bind_eq_bind, Option.bind_some,
    Text.takeWhile_run pointer.openSpaced (star _), Text.dropWhile_run pointer.openSpaced (star _),
    starred, Text.takeWhile_run pointer.starSpaced (pointer.named.unspaced _),
    Text.dropWhile_run pointer.starSpaced (pointer.named.unspaced _),
    pointerName?_append pointer.named, Text.takeWhile_run pointer.listSpaced (list _),
    Text.dropWhile_run pointer.listSpaced (list _), parenthesised?_flat pointer.flat, separators,
    if_true]

/-- A function-pointer type is read as it is written. -/
theorem functionPointer?_append {tail : Text} (ended : ∀ c ∈ tail, isSpace c = true ∨ c = ';')
    : functionPointer? (pointer.text ++ tail) = some pointer.prototype := by
  have unspaced : ∀ c ∈ (pointer.declarator ++ tail).head?, isSpace c = false := by
    rintro c ⟨⟩
    decide
  have spaced : Spaced pointer.lexemes (pointer.declarator ++ tail) :=
    pointer.spaced_lexemes.append (by simp) (pointer.declarator.tail ++ tail)
  have stop : lexeme? Text.identifier? (pointer.declarator ++ tail) = none :=
    lexeme?_eq_none (by decide) (by decide) _
  have read : Signature.lexemes (lexemesText pointer.lexemes ++ (pointer.declarator ++ tail))
      = (pointer.lexemes, pointer.declarator ++ tail) :=
    Text.many_eq consumes_lexeme (spaced.reads unspaced) stop
  have start := spaced.unspaced unspaced
  have whole : pointer.text ++ tail
      = pointer.indent ++ (lexemesText pointer.lexemes ++ (pointer.declarator ++ tail)) := by
    simp [text, head]
  have typed : pointer.lexemes ≠ [] := by
    intro empty
    have same := pointer.withoutTypedef_lexemes
    rw [empty] at same
    exact List.cons_ne_nil _ _ same.symm
  rw [whole]
  simp only [functionPointer?, Text.takeWhile_run pointer.indented start,
    Text.dropWhile_run pointer.indented start, read, List.isEmpty_iff, typed, if_false,
    pointer.pointerDeclarator?_append ended, pointer.withoutTypedef_lexemes]
  rfl

end PointerHeading

--------------------------------------------------------------------------------
-- Neither form is read as the other
--------------------------------------------------------------------------------

/-- Nothing is declared in a text in which no prototype is read at any position. -/
theorem lastFunction?_eq_none {text : Text} (fails : ∀ rest, rest <:+ text → function? rest = none)
    (inferDirection : Bool)
    : lastFunction? inferDirection text = none := by
  have nothing : Text.findAll function? (afterLastComment text) = [] := by
    refine List.eq_nil_iff_forall_not_mem.mpr fun prototype member => ?_
    obtain ⟨rest, later, suffix, read⟩ := Text.mem_findAll member
    rw [fails rest (suffix.trans (afterLastComment_isSuffix text))] at read
    contradiction
  simp [lastFunction?, nothing]

theorem unopened_of_lexical {text : Text} (lexical : ∀ c ∈ text, isLexical c = true) : '(' ∉ text :=
  fun member => absurd (lexical '(' member) (by decide)

/-- No prototype is read where two lists follow each other with white space between them. Witness:
the first list is not followed by a separator, and no word stands in front of the second one.
-/
theorem function?_two_lists {text front inner gap list tail rest : Text}
    (whole : text = front ++ '(' :: (inner ++ ')' :: (gap ++ '(' :: (list ++ ')' :: tail))))
    (lexical : ∀ c ∈ front, isLexical c = true) (flat : ∀ c ∈ inner, c ≠ '(' ∧ c ≠ ')')
    (space : ∀ c ∈ gap, isSpace c = true) (flatList : '(' ∉ list) (flatTail : '(' ∉ tail)
    (suffix : rest <:+ text)
    : function? rest = none := by
  cases found : function? rest with
  | none => rfl
  | some result =>
      exfalso
      obtain ⟨prototype, later⟩ := result
      obtain ⟨opening, own, after, shape, ended⟩ := function?_listed found
      obtain ⟨before, position⟩ := suffix
      have both : (before ++ opening) ++ '(' :: (own ++ ')' :: after)
          = front ++ '(' :: (inner ++ ')' :: (gap ++ '(' :: (list ++ ')' :: tail))) := by
        rw [← whole, ← position, shape.text, List.append_assoc]
      have unopened := unopened_of_lexical lexical
      rcases Text.append_cons_cases unopened both with ⟨-, same⟩ | ⟨more, begun, behind⟩
      · -- It would be the first list.
        have unclosed : ')' ∉ inner := fun member => (flat ')' member).2 rfl
        rcases Text.append_cons_cases unclosed same with ⟨-, rfl⟩ | ⟨more, longer, -⟩
        · rw [afterHead?_gap space] at ended
          contradiction
        · exact (shape.flat ')' (by simp [longer])).2 rfl
      · -- It would be the second list.
        have middle : '(' ∉ inner ++ ')' :: gap := by
          have unspaced : '(' ∉ gap := unopened_of_lexical (lexical_of_space space)
          have absent : '(' ∉ inner := fun member => (flat '(' member).1 rfl
          simp [unspaced, absent]
        have second : more ++ '(' :: (own ++ ')' :: after)
            = (inner ++ ')' :: gap) ++ '(' :: (list ++ ')' :: tail) := by
          rw [← behind]
          simp
        rcases Text.append_cons_cases middle second with ⟨rfl, -⟩ | ⟨further, -, third⟩
        · obtain ⟨letter, member, word⟩ := shape.word
          have split : before ++ opening = (front ++ '(' :: inner ++ [')']) ++ gap := by
            rw [begun]
            simp
          rcases List.append_eq_append_iff.mp split with ⟨piece, closed, same⟩ | ⟨piece, -, same⟩
          · rcases List.eq_nil_or_concat piece with rfl | ⟨init, d, rfl⟩
            · have spaced := space letter (by simpa [same] using member)
              simp [Text.isWord_of_isSpace spaced] at word
            · have last := congrArg List.getLast? closed
              obtain rfl : ')' = d := by simpa [List.getLast?_cons] using last
              exact absurd (shape.lexical ')' (by simp [same])) (by decide)
          · have spaced := space letter (by simp [same, member])
            simp [Text.isWord_of_isSpace spaced] at word
        · have absent : '(' ∉ list ++ ')' :: tail := by simp [flatList, flatTail]
          exact absent (by simp [third])

/-- No prototype is read at any position of a function-pointer type. -/
theorem PointerHeading.function?_eq_none (pointer : PointerHeading) {tail : Text}
    (ended : ∀ c ∈ tail, isSpace c = true ∨ c = ';')
    : ∀ rest, rest <:+ pointer.text ++ tail → function? rest = none := by
  have unspaced : ∀ c ∈ ['('].head?, isSpace c = false := by
    rintro c ⟨⟩
    decide
  have lexical : ∀ c ∈ pointer.indent ++ lexemesText pointer.lexemes, isLexical c = true :=
    List.forall_mem_append.mpr ⟨lexical_of_space pointer.indented,
      lexical_reads (pointer.spaced_lexemes.reads unspaced)⟩
  have pointed : ∀ c ∈ pointer.pointed, isLexical c = true := by
    rw [PointerHeading.pointed, List.forall_mem_append, List.forall_mem_cons,
      List.forall_mem_append, List.forall_mem_append]
    exact ⟨lexical_of_space pointer.openSpaced, by decide, lexical_of_space pointer.starSpaced,
      lexical_of_word pointer.named.word, lexical_of_space pointer.named.space⟩
  have flat : ∀ c ∈ pointer.pointed, c ≠ '(' ∧ c ≠ ')' := by
    intro c member
    constructor <;> (rintro rfl; exact absurd (pointed _ member) (by decide))
  have unopened : '(' ∉ tail := fun member => absurd (ended '(' member) (by decide)
  have whole : pointer.text ++ tail
      = (pointer.indent ++ lexemesText pointer.lexemes)
        ++ '(' :: (pointer.pointed ++ ')'
          :: (pointer.listGap ++ '(' :: (pointer.parameters ++ ')' :: tail))) := by
    simp [PointerHeading.text, PointerHeading.head, PointerHeading.declarator]
  intro rest suffix
  exact function?_two_lists whole lexical flat pointer.listSpaced
    (fun member => (pointer.flat '(' member).1 rfl) unopened suffix

/-- A lexeme leaves an end of the text. -/
theorem lexeme?_isSuffix {text later : Text} {lexeme : Lexeme}
    (found : lexeme? Text.wordRun? text = some (lexeme, later))
    : later <:+ text := by
  cases text with
  | nil => simp [lexeme?] at found
  | cons c rest =>
      by_cases star : c = '*'
      · obtain ⟨-, rfl⟩ := by simpa [lexeme?, star] using found
        exact (List.dropWhile_suffix isSpace).trans (List.suffix_cons c rest)
      · cases read : Text.wordRun? (c :: rest) with
        | none => simp [lexeme?, star, read] at found
        | some result =>
            obtain ⟨-, rfl⟩ := by simpa [lexeme?, star, read] using found
            obtain ⟨-, behind, -⟩ := Text.wordRun?_sound read
            rw [behind]
            exact (List.dropWhile_suffix isSpace).trans (List.dropWhile_suffix isWord)

/-- What follows the name of a pointer is an end of the text, by induction on the reads. -/
theorem pointerName?_isSuffix {text inside name later : Text}
    (found : pointerName? text = some ((inside, name), later))
    : later <:+ text := by
  have suffix {text rest : Text} {lexemes : List Lexeme}
      (reads : Reads (lexeme? Text.wordRun?) text lexemes rest)
      : rest <:+ text := by
    induction reads with
    | done => exact List.suffix_rfl
    | next found more ih => exact ih.trans (lexeme?_isSuffix found)
  have rest := suffix (Text.many_reads (consumes_lexeme_of consumes_wordRun) text).1
  unfold pointerName? at found
  generalize Text.many (lexeme? Text.wordRun?) text = result at rest found
  obtain ⟨read, tail⟩ := result
  dsimp only at rest found
  split at found
  · obtain ⟨-, same⟩ := Option.ite_none_right_eq_some.mp found
    obtain ⟨-, rfl⟩ := Prod.mk.inj (Option.some.inj same)
    exact (List.suffix_cons ')' _).trans rest
  · contradiction

/-- The declarator of a function-pointer type has two lists. -/
theorem two_le_count_of_pointerDeclarator? {text : Text} {parts : Text × Text × Text}
    (found : pointerDeclarator? text = some parts)
    : 2 ≤ text.count '(' := by
  simp only [pointerDeclarator?, Option.bind_eq_bind, Option.bind_eq_some_iff, Prod.exists,
    Option.ite_none_right_eq_some] at found
  obtain ⟨rest, opened, behind, starred, inside, name, more, named, parameters, tail, list, -⟩ :=
    found
  have second : '(' ∈ more := by
    refine (List.dropWhile_suffix isSpace).subset ?_
    rw [parenthesised?_sound list]
    exact List.mem_cons_self
  have inner : more <:+ rest := by
    have star : behind <:+ rest.dropWhile isSpace :=
      ⟨['*'], (Text.after?_eq_some_iff.mp starred).symm⟩
    exact (pointerName?_isSuffix named).trans ((List.dropWhile_suffix isSpace).trans
      (star.trans (List.dropWhile_suffix isSpace)))
  have positive := List.count_pos_iff.mpr (inner.subset second)
  rw [Text.after?_eq_some_iff.mp opened, List.singleton_append, List.count_cons_self]
  omega

/-- There is one opening parenthesis in front of a list and none inside. -/
theorem Listed.count_open {text opening inner rest : Text} (listed : Listed text opening inner rest)
    (unopened : '(' ∉ rest)
    : text.count '(' = 1 := by
  have flat : '(' ∉ inner := fun member => (listed.flat '(' member).1 rfl
  have other : ')' ≠ '(' := by decide
  rw [listed.text, List.count_append, List.count_cons_self, List.count_append,
    List.count_cons_of_ne other, List.count_eq_zero.mpr (unopened_of_lexical listed.lexical),
    List.count_eq_zero.mpr flat, List.count_eq_zero.mpr unopened]

/-- A text with fewer than two opening parentheses is no function-pointer type. -/
theorem functionPointerType?_eq_none {text : Text} (few : text.count '(' < 2)
    (inferDirection : Bool)
    : functionPointerType? inferDirection text = none := by
  rw [functionPointerType?, Option.map_eq_none_iff]
  cases found : Text.findFirst? functionPointer? text with
  | none => rfl
  | some result =>
      exfalso
      obtain ⟨before, prototype⟩ := result
      obtain ⟨rest, rfl, read⟩ := Text.findFirst?_sound found
      obtain ⟨reads, -⟩ := Text.many_reads consumes_lexeme (rest.dropWhile isSpace)
      unfold functionPointer? lexemes at read
      generalize Text.many (lexeme? Text.identifier?) (rest.dropWhile isSpace) = result
        at reads read
      obtain ⟨typed, behind⟩ := result
      dsimp only at reads read
      rw [Option.ite_none_left_eq_some] at read
      simp only [Option.bind_eq_bind, Option.bind_eq_some_iff, Prod.exists] at read
      obtain ⟨-, declarator, name, parameters, lists, -⟩ := read
      have suffix : behind <:+ before ++ rest := by
        have inner : behind <:+ rest.dropWhile isSpace :=
          ⟨lexemesText typed, (lexemesText_append reads).symm⟩
        exact inner.trans ((List.dropWhile_suffix isSpace).trans (List.suffix_append before rest))
      have many := two_le_count_of_pointerDeclarator? lists
      have fewer := suffix.sublist.count_le '('
      omega

--------------------------------------------------------------------------------
-- The two forms apart
--------------------------------------------------------------------------------

/-- A function-pointer type is read as such and never as a prototype, and a prototype is never read
as a function-pointer type. Witness: a list without a separator behind it follows the one list, and
the other form lacks the second list.
-/
theorem pointer_types_apart (inferDirection : Bool)
    : (∀ (pointer : PointerHeading) (tail : Text), (∀ c ∈ tail, isSpace c = true ∨ c = ';')
        → lastFunction? inferDirection (pointer.text ++ tail) = none
          ∧ functionPointerType? inferDirection (pointer.text ++ tail)
            = some {
                name := pointer.name
                returns := !decide pointer.returnType.IsVoid
                parameters := readParameters inferDirection pointer.parameters
                signature := pointer.head
                indent := Text.afterLastBreak pointer.indent
              })
      ∧ ∀ (placed : Placed) (tail : Text), '(' ∉ tail
        → functionPointerType? inferDirection (placed.text ++ tail) = none := by
  constructor
  · intro pointer tail ended
    constructor
    · exact lastFunction?_eq_none (pointer.function?_eq_none ended) inferDirection
    · have first := Text.findFirst?_here (pointer.functionPointer?_append ended)
      simp [functionPointerType?, first, Prototype.declaration, PointerHeading.prototype,
        ReturnType.yieldsValue_text]
  · intro placed tail unopened
    refine functionPointerType?_eq_none ?_ inferDirection
    have gap := unopened_of_lexical (lexical_of_space placed.spaced)
    rw [(placed.listed tail).count_open (by simp [gap, unopened])]
    decide

/-- A pointer to a function without a result. -/
def handlerType : PointerHeading where
  indent := "  ".toList
  typedefGap? := some "\t".toList
  returnType := {
    first := "void".toList
    gap := []
    more := []
    spaced := .word (by decide) (by decide) (by decide) (.none _)
  }
  openGap := " ".toList
  starGap := []
  name := "handler".toList
  nameGap := " ".toList
  listGap := "\n".toList
  parameters := "int code".toList
  indented := by decide
  typedefSpaced := by
    rintro gap ⟨⟩
    exact ⟨by decide, by decide⟩
  untyped := by decide
  openSpaced := by decide
  starSpaced := Text.isSpace_of_mem_nil
  named := ⟨by decide, by decide, by decide⟩
  listSpaced := Text.isSpace_of_mem_feed
  flat := by decide

/-- The star in front of the name of a pointer says nothing about its result. -/
theorem pointer_types_apart_handler
    : (∀ c ∈ ";\n;".toList, isSpace c = true ∨ c = ';')
      ∧ lastFunction? true "  typedef\tvoid( *handler )\n(int code);\n;".toList = none
      ∧ functionPointerType? true "  typedef\tvoid( *handler )\n(int code);\n;".toList
        = some {
            name := "handler".toList
            returns := false
            parameters := [
              {
                name := "code".toList
                type := some "int".toList
                direction := some "in".toList
                index := some 0
              }
            ]
            signature := "typedef\tvoid( *handler )\n(int code)".toList
            indent := "  ".toList
          }
      ∧ functionPointerType? true "\n\n  const void*\n  label (int id)\n;".toList = none := by
  have ended : ∀ c ∈ ";\n;".toList, isSpace c = true ∨ c = ';' := by decide
  obtain ⟨pointers, prototypes⟩ := pointer_types_apart true
  obtain ⟨unread, read⟩ := pointers handlerType ";\n;".toList ended
  exact ⟨ended, unread, read, prototypes labelOf [';'] (by decide)⟩

end DocBlock.Signature
