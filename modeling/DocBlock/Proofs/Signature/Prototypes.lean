import DocBlock.Proofs.Comment.Closing
import DocBlock.Proofs.Signature.ParameterList
import DocBlock.Proofs.Signature.ReturnTypes

/-! Prototypes that follow each other in a text. Each of them is read as it is written, nothing that
is read in front of one goes on into it, and so the last one is found, whatever stands in front.
-/

namespace DocBlock.Signature

open Comment (Closeless)
open Text (Reads isSpace isSpaceOrStar isWord)

--------------------------------------------------------------------------------
-- Prototypes as they are written
--------------------------------------------------------------------------------

/-- A prototype as it is written: a return type, a name and a list without parentheses inside. -/
structure Heading where
  name : Text
  returnType : ReturnType name
  gap : Text
  parameters : Text
  named : IsName name gap
  flat : ∀ c ∈ parameters, c ≠ '(' ∧ c ≠ ')'

namespace Heading

variable (heading : Heading)

/-- What stands in front of the list. -/
def opening : Text :=
  heading.returnType.text ++ (heading.name ++ heading.gap)

/-- The source text. -/
def text : Text :=
  heading.opening ++ '(' :: (heading.parameters ++ [')'])

end Heading

/-- A prototype with white space in front of it and behind it. -/
structure Placed where
  indent : Text
  heading : Heading
  gap : Text
  indented : ∀ c ∈ indent, isSpace c = true
  spaced : ∀ c ∈ gap, isSpace c = true

namespace Placed

variable (placed : Placed)

/-- The source text. -/
def text : Text :=
  placed.indent ++ (placed.heading.text ++ placed.gap)

/-- The parts of the prototype. -/
def prototype : Prototype :=
  {
    indent := placed.indent
    head := placed.heading.text
    returnType := placed.heading.returnType.text
    name := placed.heading.name
    parameters := placed.heading.parameters
  }

end Placed

--------------------------------------------------------------------------------
-- Reading a prototype
--------------------------------------------------------------------------------

theorem ReturnType.head?_text {later : Text} (returnType : ReturnType later) (tail : Text)
    : ∀ c ∈ (returnType.text ++ tail).head?, isWord c = true := by
  obtain ⟨first, gap, more, spaced⟩ := returnType
  cases spaced with
  | word identifier space apart rest =>
      obtain ⟨c, letters, rfl⟩ := List.exists_cons_of_ne_nil identifier.ne_nil
      rintro d ⟨⟩
      exact identifier.word c List.mem_cons_self

/-- The return type and the name of a prototype are told apart. Witness: the name is read as the
last of the words if it starts like an identifier, and otherwise behind them.
-/
theorem Heading.splitName?_lexemes (heading : Heading) (rest : Text)
    : splitName? (lexemes (heading.opening ++ '(' :: rest)).1
        (lexemes (heading.opening ++ '(' :: rest)).2
      = some (heading.returnType.lexemes, ⟨.word heading.name, heading.gap⟩, '(' :: rest) := by
  obtain ⟨name, returnType, gap, parameters, named, flat⟩ := heading
  obtain ⟨c, letters, shape⟩ := List.exists_cons_of_ne_nil named.nonempty
  have letter : isWord c = true := named.word c (by simp [shape])
  have ended := named.ended (by decide : isWord '(' = false) rest
  have unspaced : ∀ d ∈ ('(' :: rest).head?, isSpace d = false := by
    rintro d ⟨⟩
    decide
  have front : Reads (lexeme? Text.identifier?) (returnType.text ++ (name ++ (gap ++ '(' :: rest)))
      returnType.lexemes (name ++ (gap ++ '(' :: rest)) :=
    (returnType.spaced.append named.nonempty _).reads (named.unspaced _)
  have whole : (⟨name, returnType, gap, parameters, named, flat⟩ : Heading).opening ++ '(' :: rest
      = returnType.text ++ (name ++ (gap ++ '(' :: rest)) := by
    simp [Heading.opening]
  have typed : returnType.lexemes ≠ [] := List.cons_ne_nil _ _
  rw [whole, lexemes]
  by_cases identifier : IsIdentifier name
  · have read := lexeme?_word named unspaced (identifier.identifier?_append ended)
    have stop := lexeme?_eq_none (by decide : '(' ≠ '*') (by decide) rest
    have paren : isWord '(' = false := by decide
    rw [Text.many_eq consumes_lexeme (front.append (.next read (.done _))) stop]
    simp [splitName?, paren, typed]
  · have stop : lexeme? Text.identifier? (name ++ (gap ++ '(' :: rest)) = none := by
      have star : c ≠ '*' := by
        rintro rfl
        exact absurd letter (by decide)
      have outside : Text.isIdentifierStart c ≠ true := by
        intro inside
        rw [shape] at identifier named
        exact identifier ⟨inside, fun d member => named.word d (List.mem_cons_of_mem c member)⟩
      simp [shape, lexeme?, star, Text.identifier?, outside]
    rw [Text.many_eq consumes_lexeme front stop]
    simp [splitName?, Text.takeWhile_run named.word ended, named.nonempty, typed,
      Text.takeWhile_run named.space unspaced, Text.dropWhile_run named.space unspaced]

theorem afterHead?_gap {gap : Text} (space : ∀ c ∈ gap, isSpace c = true) (tail : Text)
    : afterHead? (gap ++ tail) = afterHead? tail := by
  simp only [afterHead?, List.dropWhile_append_of_pos space]

/-- A prototype that is followed by a separator or by nothing is read as it is written. -/
theorem Placed.function?_append (placed : Placed) {tail later : Text}
    (separated : afterHead? tail = some later)
    : function? (placed.text ++ tail) = some (placed.prototype, later) := by
  obtain ⟨indent, heading, gap, indented, spaced⟩ := placed
  have start : ∀ c ∈ (heading.opening ++ '(' :: (heading.parameters ++ ')' :: (gap ++ tail))).head?,
      isSpace c = false := by
    intro c first
    rw [Heading.opening, List.append_assoc] at first
    exact Text.isSpace_of_isWord (heading.returnType.head?_text _ c first)
  have whole : (⟨indent, heading, gap, indented, spaced⟩ : Placed).text ++ tail
      = indent ++ (heading.opening ++ '(' :: (heading.parameters ++ ')' :: (gap ++ tail))) := by
    simp [Placed.text, Heading.text]
  have behind := (afterHead?_gap spaced tail).trans separated
  have split := heading.splitName?_lexemes (heading.parameters ++ ')' :: (gap ++ tail))
  simp only [function?, whole, Text.takeWhile_run indented start,
    Text.dropWhile_run indented start, split, Option.bind_eq_bind, Option.bind_some,
    parenthesised?_flat heading.flat, behind]
  simp [Placed.prototype, Heading.text, Heading.opening, ReturnType.text, Lexeme.text, Token.text]

--------------------------------------------------------------------------------
-- What is read in front of a prototype
--------------------------------------------------------------------------------

/-- The characters of return types and names, and of the white space around them. -/
def isLexical (c : Char) : Bool :=
  isWord c || isSpaceOrStar c

/-- A text with a list in parentheses, of which nothing but words, stars and white space stands in
front, and at least one word. -/
structure Listed (text opening inner rest : Text) : Prop where
  text : text = opening ++ '(' :: (inner ++ ')' :: rest)
  lexical : ∀ c ∈ opening, isLexical c = true
  word : ∃ c ∈ opening, isWord c = true
  flat : ∀ c ∈ inner, c ≠ '(' ∧ c ≠ ')'

theorem lexical_of_word {text : Text} (word : ∀ c ∈ text, isWord c = true)
    : ∀ c ∈ text, isLexical c = true := fun c member => by
  simp [isLexical, word c member]

theorem lexical_of_space {text : Text} (space : ∀ c ∈ text, isSpace c = true)
    : ∀ c ∈ text, isLexical c = true := fun c member => by
  simp [isLexical, isSpaceOrStar, space c member]

/-- Lexemes that are read are made of words, stars and white space, by induction on the reads. -/
theorem lexical_reads {text rest : Text} {lexemes : List Lexeme}
    (reads : Reads (lexeme? Text.identifier?) text lexemes rest)
    : ∀ c ∈ lexemesText lexemes, isLexical c = true := by
  induction reads with
  | done => simp [lexemesText]
  | next found more ih =>
      obtain ⟨-, precedes⟩ := lexeme?_sound found
      rw [lexemesText_cons, Lexeme.text, List.forall_mem_append, List.forall_mem_append]
      refine ⟨⟨?_, lexical_of_space precedes.gap⟩, ih⟩
      rcases precedes.token with star | ⟨name, token, -, letters, -⟩
      · rw [star]
        decide
      · rw [token]
        exact lexical_of_word letters

theorem parenthesised?_inner {text inner later : Text}
    (found : parenthesised? text = some (inner, later))
    : ∀ c ∈ inner, c ≠ '(' ∧ c ≠ ')' := by
  unfold parenthesised? at found
  split at found
  · dsimp only at found
    split at found
    · obtain ⟨rfl, -⟩ := Prod.mk.inj (Option.some.inj found)
      intro c member
      simpa using List.mem_takeWhile_imp member
    · contradiction
  · contradiction

/-- Where a prototype is read, there is its list, and a separator or nothing behind it. -/
theorem function?_listed {text later : Text} {prototype : Prototype}
    (found : function? text = some (prototype, later))
    : ∃ opening inner rest, Listed text opening inner rest ∧ afterHead? rest = some later := by
  obtain ⟨reads, -⟩ := Text.many_reads consumes_lexeme (text.dropWhile isSpace)
  unfold function? lexemes at found
  generalize Text.many (lexeme? Text.identifier?) (text.dropWhile isSpace) = result at reads found
  obtain ⟨read, rest⟩ := result
  simp only [Option.bind_eq_bind, Option.bind_eq_some_iff, Prod.exists, Option.some.injEq,
    Prod.mk.injEq] at found
  obtain ⟨returnType, lexeme, behind, split, inner, tail, list, later, ended, -, rfl⟩ := found
  obtain ⟨name, gap, rfl, named, -, before⟩ := splitName?_sound reads split
  refine ⟨text.takeWhile isSpace ++ (lexemesText returnType ++ (name ++ gap)), inner, tail,
    ⟨?_, ?_, ?_, parenthesised?_inner list⟩, ended⟩
  · have whole := lexemesText_append before
    rw [parenthesised?_sound list] at whole
    calc text
      _ = text.takeWhile isSpace ++ text.dropWhile isSpace :=
          List.takeWhile_append_dropWhile.symm
      _ = _ := by rw [whole]; simp
  · rw [List.forall_mem_append, List.forall_mem_append, List.forall_mem_append]
    exact ⟨lexical_of_space fun c member => List.mem_takeWhile_imp member, lexical_reads before,
      lexical_of_word named.word, lexical_of_space named.space⟩
  · obtain ⟨c, letters, rfl⟩ := List.exists_cons_of_ne_nil named.nonempty
    exact ⟨c, by simp, named.word c List.mem_cons_self⟩

/-- A text that is empty or ends in a character of no return type, no name and no white space, such
as a semicolon, a brace or the end of a comment. -/
def Barred (front : Text) : Prop :=
  ∀ c ∈ front.getLast?, isLexical c = false

theorem Barred.suffix {front tail : Text} (barred : Barred front) (suffix : tail <:+ front)
    : Barred tail :=
  fun c last => barred c (Text.getLast?_of_isSuffix suffix last)

namespace Listed

variable {text opening inner rest : Text}

/-- No separator comes first where a list with a word in front of it stands. -/
theorem afterHead?_eq_none (listed : Listed text opening inner rest) : afterHead? text = none := by
  obtain ⟨letter, member, word⟩ := listed.word
  have kept := Text.mem_dropWhile member (Text.isSpace_of_isWord word)
  obtain ⟨c, more, shape⟩ := List.exists_cons_of_ne_nil (List.ne_nil_of_mem kept)
  have lexical : isLexical c = true :=
    listed.lexical c ((List.dropWhile_suffix isSpace).subset (by simp [shape]))
  have separator : ¬ (c = ';' ∨ c = '{') := by
    rintro (rfl | rfl)
    all_goals exact absurd lexical (by decide)
  rw [listed.text, afterHead?, Text.dropWhile_append_stop (by decide), shape]
  simpa using separator

/-- A list that is found from a barred text on ends inside it, if another one stands behind it.
Witness: the list neither starts nor ends behind the bar, as it has no parenthesis inside.
-/
theorem exists_behind (listed : Listed text opening inner rest) {front start list later : Text}
    (barred : Barred front) (nonempty : front ≠ [])
    (whole : Listed (front ++ text) start list later)
    : ∃ behind,
        behind <:+ front ∧ behind.length < front.length ∧ later = behind ++ text := by
  have outside : ¬ front <+: start := by
    intro inside
    obtain ⟨c, last⟩ : ∃ c, front.getLast? = some c :=
      ⟨_, List.getLast?_eq_some_getLast nonempty⟩
    have lexical := whole.lexical c (inside.subset (List.mem_of_getLast? last))
    simp [barred c last] at lexical
  have split : front ++ text = (start ++ '(' :: list) ++ ')' :: later := by
    rw [whole.text]
    simp
  rcases List.append_eq_append_iff.mp split with ⟨more, longer, shape⟩ | ⟨more, inside, shape⟩
  · -- The list would go on behind the bar, where another parenthesis is opened.
    rw [listed.text] at shape
    rcases List.append_eq_append_iff.mp shape with ⟨tail, rfl, opened⟩ | ⟨tail, ended, closed⟩
    · cases tail with
      | nil => simp at opened
      | cons d tail =>
          obtain ⟨rfl, -⟩ := List.cons.inj opened
          have twice : start ++ '(' :: list = (front ++ opening) ++ '(' :: tail := by
            rw [longer, List.append_assoc]
          rcases List.append_eq_append_iff.mp twice with ⟨gap, begun, opened⟩ | ⟨gap, begun, -⟩
          · cases gap with
            | nil =>
                refine absurd ?_ outside
                rw [List.append_nil] at begun
                exact ⟨opening, begun⟩
            | cons e gap =>
                obtain ⟨-, rfl⟩ := List.cons.inj opened
                exact absurd rfl (whole.flat '(' (by simp)).1
          · refine absurd ?_ outside
            rw [begun, List.append_assoc]
            exact List.prefix_append front _
    · cases tail with
      | nil => simp at closed
      | cons d tail =>
          obtain ⟨rfl, -⟩ := List.cons.inj closed
          have lexical := listed.lexical ')' (by simp [ended])
          exact absurd lexical (by decide)
  · cases more with
    | nil =>
        obtain ⟨letter, member, -⟩ := listed.word
        obtain ⟨c, letters, rfl⟩ := List.exists_cons_of_ne_nil (List.ne_nil_of_mem member)
        rw [listed.text] at shape
        obtain ⟨rfl, -⟩ := List.cons.inj shape
        exact absurd (listed.lexical ')' List.mem_cons_self) (by decide)
    | cons d more =>
        obtain ⟨rfl, rfl⟩ := List.cons.inj shape
        refine ⟨more, ⟨start ++ '(' :: list ++ [')'], by simp [inside]⟩, ?_, rfl⟩
        simp only [inside, List.length_append, List.length_cons]
        omega

end Listed

/-- A separator that is found from a barred text on stands in it, if no separator comes first
behind it. -/
theorem exists_behind_afterHead? {front text later : Text} (barred : Barred front)
    (missing : afterHead? text = none) (found : afterHead? (front ++ text) = some later)
    : ∃ behind, behind <:+ front ∧ later = behind ++ text := by
  rcases List.eq_nil_or_concat front with rfl | ⟨inner, c, rfl⟩
  · simp [missing] at found
  · have space : isSpace c = false := by
      have bar := barred c (by simp)
      simp only [isLexical, isSpaceOrStar, Bool.or_eq_false_iff] at bar
      exact bar.2.1
    have whole : inner.concat c ++ text = inner ++ c :: text := by simp
    rw [whole, afterHead?, Text.dropWhile_append_stop space] at found
    cases rest : inner.dropWhile isSpace with
    | nil =>
        obtain ⟨-, rfl⟩ : (c = ';' ∨ c = '{') ∧ text = later := by simpa [rest] using found
        exact ⟨[], List.nil_suffix, rfl⟩
    | cons d more =>
        obtain ⟨-, rfl⟩ : (d = ';' ∨ d = '{') ∧ more ++ c :: text = later := by
          simpa [rest] using found
        refine ⟨more ++ [c], ?_, by simp⟩
        have suffix := List.dropWhile_suffix isSpace (l := inner)
        rw [rest] at suffix
        obtain ⟨before, rfl⟩ := suffix
        exact ⟨before ++ [d], by simp⟩

/-- A prototype stands where its list does. -/
theorem Placed.listed (placed : Placed) (tail : Text)
    : Listed (placed.text ++ tail) (placed.indent ++ placed.heading.opening)
        placed.heading.parameters (placed.gap ++ tail) where
  text := by simp [Placed.text, Heading.text]
  lexical := by
    rw [Heading.opening, List.forall_mem_append, List.forall_mem_append, List.forall_mem_append]
    have unspaced := placed.heading.named.unspaced []
    rw [List.append_nil] at unspaced
    exact ⟨lexical_of_space placed.indented,
      lexical_reads (placed.heading.returnType.spaced.reads unspaced),
      lexical_of_word placed.heading.named.word, lexical_of_space placed.heading.named.space⟩
  word := by
    obtain ⟨c, letters, shape⟩ := List.exists_cons_of_ne_nil placed.heading.named.nonempty
    have member : c ∈ placed.heading.name := by simp [shape]
    exact ⟨c, by simp [Heading.opening, member], placed.heading.named.word c member⟩
  flat := placed.heading.flat

/-- What is found from a barred text on in front of a list is found in the text or from the list on.
Witness: induction on the length of the text; what is read in it leaves a shorter barred text.
-/
theorem exists_findAll_behind {text opening inner rest : Text}
    (listed : Listed text opening inner rest) {front : Text} (barred : Barred front)
    : ∃ earlier,
        Text.findAll function? (front ++ text) = earlier ++ Text.findAll function? text := by
  induction size : front.length using Nat.strongRecOn generalizing front with
  | ind size ih =>
      subst size
      cases front with
      | nil => exact ⟨[], rfl⟩
      | cons c front =>
          cases found : function? (c :: front ++ text) with
          | none =>
              have later := ih front.length (by simp) (barred.suffix (List.suffix_cons c front)) rfl
              rw [List.cons_append] at found ⊢
              rwa [Text.findAll_cons_of_none found]
          | some result =>
              obtain ⟨prototype, later⟩ := result
              obtain ⟨start, list, tail, shape, ended⟩ := function?_listed found
              obtain ⟨behind, suffix, shorter, rfl⟩ :=
                listed.exists_behind barred (List.cons_ne_nil c front) shape
              obtain ⟨left, inside, rfl⟩ := exists_behind_afterHead? (barred.suffix suffix)
                listed.afterHead?_eq_none ended
              have less : left.length < (c :: front).length :=
                Nat.lt_of_le_of_lt inside.length_le shorter
              obtain ⟨taken, whole⟩ := inside.trans suffix
              obtain ⟨earlier, more⟩ :=
                ih left.length less (barred.suffix (inside.trans suffix)) rfl
              refine ⟨prototype :: earlier, ?_⟩
              have nonempty : taken ≠ [] := by
                rintro rfl
                simp [← whole] at less
              rw [← whole, List.append_assoc] at found ⊢
              rw [Text.findAll_of_some found nonempty, more, List.cons_append]

/-- The last comment end in front of a text without one is cut off in front of it. -/
theorem exists_afterLastComment {front text : Text} (barred : Barred front)
    (closeless : Closeless text)
    : ∃ behind, behind <:+ front ∧ afterLastComment (front ++ text) = behind ++ text := by
  unfold afterLastComment
  split
  · next i found =>
    obtain ⟨before, later, whole, rfl⟩ := Text.lastIndexOf?_sound found
    have cut : (front ++ text).drop (before.length + 2) = later := by
      rw [whole, List.drop_left' (by simp)]
    rw [cut]
    rw [List.append_assoc] at whole
    rcases List.append_eq_append_iff.mp whole with ⟨more, -, shape⟩ | ⟨more, shape, rest⟩
    · exact absurd ⟨more, later, by simp [shape]⟩ closeless
    · have pair : '*' :: '/' :: later = more ++ text := rest
      match more, pair with
      | [], pair => exact absurd ⟨[], later, pair⟩ closeless
      | [c], pair =>
          obtain ⟨rfl, -⟩ := List.cons.inj pair
          exact absurd (barred '*' (by simp [shape])) (by decide)
      | c :: d :: behind, pair =>
          obtain ⟨-, same⟩ := List.cons.inj pair
          obtain ⟨-, rfl⟩ := List.cons.inj same
          exact ⟨behind, ⟨before ++ [c, d], by simp [shape]⟩, rfl⟩
  · exact ⟨front, List.suffix_rfl, rfl⟩

--------------------------------------------------------------------------------
-- The last prototype
--------------------------------------------------------------------------------

theorem Spaced.head?_text {lexemes : List Lexeme} {later : Text} (spaced : Spaced lexemes later)
    : ∀ c ∈ (lexemesText lexemes).head?, c = '*' ∨ isWord c = true := by
  cases spaced with
  | none => simp [lexemesText]
  | star space rest =>
      rintro c ⟨⟩
      exact .inl rfl
  | word identifier space apart rest =>
      obtain ⟨c, letters, rfl⟩ := List.exists_cons_of_ne_nil identifier.ne_nil
      rintro d ⟨⟩
      exact .inr (identifier.word c List.mem_cons_self)

/-- Stars at the end of a text are trimmed up to a character of another kind. -/
theorem trimBy_star_append {word joined : Text} (nonempty : word ≠ [])
    (unstarred : '*' ∉ word) (starts : ∀ c ∈ joined.head?, c = '*')
    : Text.trimBy (· = '*') (word ++ joined) = word
      ∨ '*' ∈ Text.trimBy (· = '*') (word ++ joined) := by
  have other {c : Char} (member : c ∈ word) : decide (c = '*') = false := by
    rw [decide_eq_false_iff_not]
    rintro rfl
    exact unstarred member
  have front : (word ++ joined).dropWhile (· = '*') = word ++ joined := by
    obtain ⟨c, letters, rfl⟩ := List.exists_cons_of_ne_nil nonempty
    exact List.dropWhile_cons_of_neg (by simp [other List.mem_cons_self])
  obtain ⟨stars, whole, all⟩ := Text.exists_dropEndWhile (· = '*') joined
  have cut : Text.trimBy (· = '*') (word ++ joined)
      = Text.dropEndWhile (· = '*') (word ++ Text.dropEndWhile (· = '*') joined) := by
    rw [Text.trimBy, front]
    conv_lhs => rw [whole, ← List.append_assoc, Text.dropEndWhile_append all]
  rw [cut]
  cases kept : Text.dropEndWhile (· = '*') joined with
  | nil =>
      refine .inl ?_
      have last := List.getLast?_eq_some_getLast nonempty
      rw [List.append_nil]
      exact Text.dropEndWhile_of_last last (other (List.getLast_mem nonempty))
  | cons c more =>
      refine .inr ?_
      have last := List.getLast?_eq_some_getLast (List.cons_ne_nil c more)
      have outside : decide ((c :: more).getLast (List.cons_ne_nil c more) = '*') = false :=
        @Text.getLast?_dropEndWhile (· = '*') joined _ (by rw [kept]; exact last)
      have first : c = '*' := starts c (by rw [whole, kept]; rfl)
      have ending : (word ++ c :: more).getLast?
          = some ((c :: more).getLast (List.cons_ne_nil c more)) := by
        rw [List.getLast?_append, last]
        rfl
      rw [Text.dropEndWhile_of_last ending outside, first]
      simp

/-- The first word up to white space, without the stars around it, is the first identifier, unless
there is a star between its words. -/
theorem ReturnType.firstWord_text {later : Text} (returnType : ReturnType later)
    : firstWord returnType.text = returnType.first ∨ '*' ∈ firstWord returnType.text := by
  obtain ⟨first, gap, more, spaced⟩ := returnType
  cases spaced with
  | word identifier space apart rest =>
      have unstarred : '*' ∉ first := fun member =>
        absurd (identifier.word '*' member) (by decide)
      have unspaced : ∀ c ∈ first, (!isSpace c) = true := fun c member => by
        simp [Text.isSpace_of_isWord (identifier.word c member)]
      have word : (Text.words (first ++ (gap ++ lexemesText more))).head?
          = some (first ++ (gap ++ lexemesText more).takeWhile (!isSpace ·)) := by
        rw [Text.head?_words, List.takeWhile_append_of_pos unspaced]
        obtain ⟨c, letters, rfl⟩ := List.exists_cons_of_ne_nil identifier.ne_nil
        exact ⟨c, rfl, by simpa using unspaced c List.mem_cons_self⟩
      have star : ∀ c ∈ ((gap ++ lexemesText more).takeWhile (!isSpace ·)).head?, c = '*' := by
        intro c here
        cases gap with
        | cons d gap => simp [space d List.mem_cons_self] at here
        | nil =>
            have start : c ∈ (lexemesText more).head? :=
              Text.mem_head?_of_prefix (List.takeWhile_prefix (!isSpace ·)) here
            refine (rest.head?_text c start).resolve_right fun letter => ?_
            have outside := apart c (Text.mem_head?_of_prefix (List.prefix_append _ later) start)
            simp [letter] at outside
      have trimmed := trimBy_star_append identifier.ne_nil unstarred star
      have text : (⟨first, gap, more, .word identifier space apart rest⟩ : ReturnType later).text
          = first ++ (gap ++ lexemesText more) := by
        simp [ReturnType.text, ReturnType.lexemes, lexemesText_cons, Lexeme.text, Token.text]
      rw [firstWord, text, word]
      exact trimmed

/-- A prototype whose name is no control word and whose first word starts no statement reads as a
declaration. -/
theorem Placed.isStatement_prototype {placed : Placed}
    (named : placed.heading.name ∉ controlWords)
    (typed : placed.heading.returnType.first ∉ statementWords)
    : placed.prototype.isStatement = false := by
  have unstarred : ∀ word ∈ statementWords, '*' ∉ word := by decide
  have first : firstWord placed.heading.returnType.text ∉ statementWords := by
    rcases placed.heading.returnType.firstWord_text with same | starred
    · rwa [same]
    · exact fun member => unstarred _ member starred
  simp [Prototype.isStatement, Placed.prototype, named, first]

/-- Prototypes one behind the other, each with a semicolon. -/
def statements (earlier : List Placed) : Text :=
  earlier.flatMap (·.text ++ [';'])

theorem Barred.statements {front : Text} (barred : Barred front) (earlier : List Placed)
    : Barred (front ++ statements earlier) := by
  rcases List.eq_nil_or_concat earlier with rfl | ⟨before, placed, rfl⟩
  · simpa [Signature.statements] using barred
  · have last : (front ++ Signature.statements (before.concat placed)).getLast? = some ';' := by
      simp [Signature.statements]
    rintro c ending
    obtain rfl : ';' = c := Option.some.inj (last.symm.trans ending)
    decide

/-- The last of several prototypes is declared, whatever the others are and whatever barred text
stands in front of them. Witness: nothing that is read in front goes on into the last prototype,
which is read as it is written and is no statement.
-/
theorem last_prototype_declared (inferDirection : Bool) (front : Text) (earlier : List Placed)
    (last : Placed) (tail : Text) (barred : Barred front) (closeless : Closeless last.text)
    (ended : tail = [] ∨ tail = [';'] ∨ tail = ['{'])
    (named : last.heading.name ∉ controlWords)
    (typed : last.heading.returnType.first ∉ statementWords)
    : lastFunction? inferDirection (front ++ statements earlier ++ (last.text ++ tail))
      = some {
          name := last.heading.name
          returns := !decide last.heading.returnType.IsVoid
          parameters := readParameters inferDirection last.heading.parameters
          signature := last.heading.text
          indent := Text.afterLastBreak last.indent
        } := by
  have separated : afterHead? tail = some [] := by
    rcases ended with rfl | rfl | rfl <;> rfl
  have whole : Closeless (last.text ++ tail) := by
    refine (Comment.closeless_append_of_no_slash ?_).mpr closeless
    rcases ended with rfl | rfl | rfl <;> decide
  obtain ⟨behind, suffix, cut⟩ := exists_afterLastComment (barred.statements earlier) whole
  obtain ⟨found, all⟩ := exists_findAll_behind (last.listed tail)
    ((barred.statements earlier).suffix suffix)
  have read : function? (last.text ++ tail ++ []) = some (last.prototype, []) := by
    rw [List.append_nil]
    exact last.function?_append separated
  have alone : Text.findAll function? (last.text ++ tail) = [last.prototype] := by
    have nonempty : last.text ++ tail ≠ [] := by simp [Placed.text, Heading.text]
    simpa [Text.findAll] using Text.findAll_of_some read nonempty
  have kept : [last.prototype].filter (!·.isStatement) = [last.prototype] := by
    simp [Placed.isStatement_prototype named typed]
  simp only [lastFunction?, cut, all, alone, List.filter_append, kept, List.getLast?_concat,
    Option.map_some]
  simp [Prototype.declaration, Placed.prototype, ReturnType.yieldsValue_text]

/-- A call that reads like a prototype. -/
def returnedCall : Placed where
  indent := "\n".toList
  heading := {
    name := "close".toList
    returnType := {
      first := "return".toList
      gap := " ".toList
      more := []
      spaced := .word (by decide) (by decide) (by decide) (.none _)
    }
    gap := []
    parameters := "file".toList
    named := ⟨by decide, by decide, by decide⟩
    flat := by decide
  }
  gap := []
  indented := by decide
  spaced := by decide

/-- A pointer to constant characters, with the name on a line of its own. -/
def labelOf : Placed where
  indent := "\n\n  ".toList
  heading := {
    name := "label".toList
    returnType := {
      first := "const".toList
      gap := " ".toList
      more := [⟨.word "void".toList, []⟩, ⟨.star, "\n  ".toList⟩]
      spaced :=
        .word (by decide) (by decide) (by decide)
          (.word (by decide) (by decide) (by decide) (.star (by decide) (.none _)))
    }
    gap := " ".toList
    parameters := "int id".toList
    named := ⟨by decide, by decide, by decide⟩
    flat := by decide
  }
  gap := "\n".toList
  indented := by decide
  spaced := by decide

/-- Neither the prototype in front of the comment nor the call behind it is taken for the last
one. -/
theorem last_prototype_declared_label
    : Barred "int old(void); /* a label */".toList
      ∧ Closeless labelOf.text
      ∧ labelOf.heading.name ∉ controlWords
      ∧ labelOf.heading.returnType.first ∉ statementWords
      ∧ lastFunction? true
          ("int old(void); /* a label */\nreturn close(file);".toList
            ++ "\n\n  const void*\n  label (int id)\n\x7b".toList)
        = some {
            name := "label".toList
            returns := true
            parameters := [
              {
                name := "id".toList
                type := some "int".toList
                direction := some "in".toList
                index := some 0
              }
            ]
            signature := "const void*\n  label (int id)".toList
            indent := "  ".toList
          } := by
  have barred : Barred "int old(void); /* a label */".toList := by
    rintro c ⟨⟩
    decide
  have closeless : Closeless labelOf.text := by decide
  have named : labelOf.heading.name ∉ controlWords := by decide
  have typed : labelOf.heading.returnType.first ∉ statementWords := by decide
  have declared := last_prototype_declared true "int old(void); /* a label */".toList [returnedCall]
    labelOf ['{'] barred closeless (by decide) named typed
  exact ⟨barred, closeless, named, typed, declared⟩

end DocBlock.Signature
