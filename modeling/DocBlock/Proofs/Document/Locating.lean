import DocBlock.Proofs.Document.DeclarationHead
import DocBlock.Proofs.Document.Target

/-! Locating a function from any line of its head. The window may start anywhere before the
declaration and the cursor may split the head anywhere; the target is the whole head, and what
precedes it reaches back to the last delimiter.
-/

namespace DocBlock.Document

open Comment (isDelimiter mask Hidden OpensNone)
open Text (isBlank isSpace isWord)

/-- A head that declares a function by itself, and so as a whole: it starts with a word, and no
character in it can end a statement, open a block, start a directive or open a comment. -/
structure Declares (inferDirection : Bool) (head : Text) (declaration : Declaration) : Prop where
  starts : ∃ c, head.head? = some c ∧ isWord c = true
  ends : head.getLast? = some ')'
  plain : ∀ c ∈ head, isDelimiter c = false ∧ c ≠ '/'
  declared : Signature.lastFunction? inferDirection head = some declaration
  whole : declaration.signature = head

theorem Declares.slash_not_mem {inferDirection : Bool} {head : Text} {declaration : Declaration}
    (declares : Declares inferDirection head declaration)
    : '/' ∉ head :=
  fun slash => (declares.plain _ slash).2 rfl

/-- Finished code: it ends a line, opens no comment, and has only white space behind its last
statement or block end. -/
structure Settled (front : Text) : Prop where
  ends : EndsLine front
  block : ¬ "/*".toList <:+: front
  line : ¬ "//".toList <:+: front
  finished : ∃ code space,
    front = code ++ space
      ∧ (∀ d, code.getLast? = some d → d = ';' ∨ d = '{' ∨ d = '}')
      ∧ ∀ c ∈ space, isSpace c = true

/-- What can stand between finished code and a head: white space, and the end of the code. -/
def IsBetween (c : Char) : Prop :=
  isSpace c = true ∨ c = ';' ∨ c = '{' ∨ c = '}'

/-- What stands between code and a head belongs to no word, no list, no directive and no
comment. -/
theorem IsBetween.outside {c : Char} (between : IsBetween c)
    : isWord c = false ∧ c ≠ '(' ∧ c ≠ '#' ∧ c ≠ '/' := by
  rcases between with space | rfl | rfl | rfl
  · have differs {d : Char} (other : isSpace d = false) : c ≠ d := by
      rintro rfl
      exact absurd space (by simp [other])
    exact ⟨Text.isWord_of_isSpace space, differs (by decide), differs (by decide),
      differs (by decide)⟩
  all_goals decide

theorem Settled.of_append {skipped seen : Text} (settled : Settled (skipped ++ seen))
    : Settled seen where
  ends := by
    cases seen with
    | nil => exact .inl rfl
    | cons c seen =>
        refine .inr ?_
        simpa [EndsLine, List.getLast?_append] using settled.ends
  block := fun inside => settled.block (inside.trans (List.suffix_append _ _).isInfix)
  line := fun inside => settled.line (inside.trans (List.suffix_append _ _).isInfix)
  finished := by
    obtain ⟨code, space, whole, last, spaces⟩ := settled.finished
    rcases List.append_eq_append_iff.mp whole with ⟨rest, rfl, rfl⟩ | ⟨rest, rfl, rfl⟩
    · refine ⟨rest, space, rfl, fun d ends => last d ?_, spaces⟩
      rw [List.getLast?_append, ends]
      rfl
    · exact ⟨[], seen, rfl, by simp, (List.forall_mem_append.mp spaces).2⟩

/-- Behind finished code a text without delimiters is kept, and of the code only its last delimiter
and the white space behind it. -/
theorem Settled.exists_lead {seen : Text} (settled : Settled seen)
    : ∃ lead,
        EndsLine lead
        ∧ (∀ c ∈ lead, IsBetween c)
        ∧ ∀ text, (∀ c ∈ mask text, isDelimiter c = false)
          → Comment.sinceLastDelimiter (seen ++ text) = lead ++ text := by
  obtain ⟨code, space, rfl, last, spaces⟩ := settled.finished
  have clean : OpensNone code := by
    refine ⟨fun inside => settled.block (inside.trans (List.prefix_append _ _).isInfix),
      fun inside => settled.line (inside.trans (List.prefix_append _ _).isInfix), fun slash => ?_⟩
    exact absurd (last '/' slash) (by decide)
  refine ⟨code.getLast?.toList ++ space, ?_, ?_, ?_⟩
  · cases space with
    | nil =>
        rcases settled.ends with empty | feed
        · obtain rfl : code = [] := by simpa using empty
          exact .inl rfl
        · rw [List.append_nil] at feed
          exact absurd (last '\n' feed) (by decide)
    | cons c space =>
        refine .inr ?_
        simpa [EndsLine, List.getLast?_append] using settled.ends
  · refine List.forall_mem_append.mpr ⟨fun c member => ?_, fun c member => .inl (spaces c member)⟩
    exact .inr (last c (by simpa using member))
  · intro text undelimited
    have delimited : ∀ d, code.getLast? = some d → isDelimiter d = true := by
      intro d ends
      rcases last d ends with rfl | rfl | rfl <;> rfl
    rw [List.append_assoc, List.append_assoc,
      Comment.sinceLastDelimiter_append clean delimited ?_]
    obtain ⟨blank, masked, blanks⟩ := (Hidden.of_space spaces).masked text
    rw [masked]
    refine List.forall_mem_append.mpr ⟨fun c member => ?_, undelimited⟩
    exact Comment.isDelimiter_of_isSpace (blanks c member)

/-- No statement ends inside a head, not even at a parenthesis: text of the head follows it. -/
theorem statementEnd?_inside {inner more : Text} {c : Char}
    (plain : ∀ c ∈ inner, isDelimiter c = false ∧ c ≠ '/') (position : c :: more <:+ inner)
    (rest : Text)
    : statementEnd? (c :: more ++ ')' :: rest) = none := by
  have undelimited {d : Char} (member : d ∈ c :: more) : d ≠ ';' ∧ d ≠ '#' ∧ d ≠ '{' := by
    have free := (plain d (position.subset member)).1
    simp only [isDelimiter, Bool.or_eq_false_iff, decide_eq_false_iff_not] at free
    tauto
  obtain ⟨semicolon, directive, -⟩ := undelimited List.mem_cons_self
  by_cases parenthesis : c = ')'
  · subst parenthesis
    have stop := @Text.dropWhile_append_stop isSpace ')' (by decide) more rest
    rw [List.cons_append, statementEnd?, stop]
    cases left : more.dropWhile isSpace with
    | nil => rfl
    | cons d left' =>
        have among : d ∈ more := (List.dropWhile_suffix isSpace).subset (left ▸ List.mem_cons_self)
        obtain ⟨semicolon, -, brace⟩ := undelimited (List.mem_cons_of_mem _ among)
        simp [semicolon, brace]
  · exact statementEnd?_eq_none ⟨semicolon, directive, parenthesis⟩ _

/-- The rest of a head, up to its closing parenthesis, is the first statement in front of a
separator. -/
theorem firstStatement_head {opened space later : Text} {separator : Char}
    (ends : opened.getLast? = some ')')
    (plain : ∀ c ∈ opened, isDelimiter c = false ∧ c ≠ '/')
    (spaces : ∀ c ∈ space, isSpace c = true) (separates : separator = ';' ∨ separator = '{')
    : firstStatement (opened ++ (space ++ separator :: later)) = opened := by
  obtain ⟨inner, rfl⟩ := List.getLast?_eq_some_iff.mp ends
  have plainInner := (List.forall_mem_append.mp plain).1
  have closing : OpensNone (')' :: space ++ [separator]) := by
    have outside : '/' ∉ space := fun slash => absurd (spaces _ slash) (by decide)
    refine OpensNone.of_not_mem fun slash => ?_
    rcases separates with rfl | rfl <;> simp [outside] at slash
  have masked : mask (')' :: (space ++ separator :: later))
      = ')' :: (space ++ separator :: mask later) := by
    simpa using Comment.mask_append closing later
  have last : firstStatement (')' :: (space ++ separator :: later)) = [')'] := by
    have outside : isSpace separator = false := by
      rcases separates with rfl | rfl <;> decide
    have stop : (space ++ separator :: mask later).dropWhile isSpace = separator :: mask later :=
      Text.dropWhile_run spaces (by rintro c ⟨⟩; exact outside)
    have here : statementEnd? (')' :: (space ++ separator :: mask later)) = some 1 := by
      rcases separates with rfl | rfl <;> simp [statementEnd?, stop]
    rw [firstStatement, masked, Text.findFirst?_here here]
    rfl
  rw [List.append_assoc, List.singleton_append, firstStatement_append (.of_plain plainInner), last]
  intro c more position
  rw [masked]
  exact statementEnd?_inside plainInner position _

theorem Window.line_isPrefix (window : Window) : window.line <+: window.after :=
  List.takeWhile_prefix _

/-- A line that starts with other text than blanks and a directive is no macro definition. -/
theorem isDefineLine_of_start {opened rest line : Text} {c : Char}
    (first : (opened.dropWhile isBlank).head? = some c) (undirected : c ≠ '#')
    (start : line <+: opened ++ rest)
    : isDefineLine line = false := by
  have unread : Text.after? ['#'] (line.dropWhile isBlank) = none := by
    cases found : Text.after? ['#'] (line.dropWhile isBlank) with
    | none => rfl
    | some later =>
        obtain ⟨behind, whole⟩ := start
        obtain ⟨more, shape⟩ := List.head?_eq_some_iff.mp first
        have dropped : (opened ++ rest).dropWhile isBlank = c :: (more ++ rest) := by
          simp [List.dropWhile_append, shape]
        have directive : (opened ++ rest).dropWhile isBlank = '#' :: (later ++ behind) := by
          rw [← whole, List.dropWhile_append, Text.after?_eq_some_iff.mp found]
          rfl
        exact absurd (List.cons.inj (dropped.symm.trans directive)).1 undirected
  rw [isDefineLine, Signature.define?, unread]
  rfl

/-- A line on which a head goes on is no macro definition: no directive starts in front of its last
parenthesis. -/
theorem isDefineLine_head {opened rest line : Text} (ends : opened.getLast? = some ')')
    (plain : ∀ c ∈ opened, isDelimiter c = false ∧ c ≠ '/') (start : line <+: opened ++ rest)
    : isDefineLine line = false := by
  have closes : ')' ∈ opened.dropWhile isBlank :=
    Text.mem_dropWhile (List.mem_of_getLast? ends) (by decide)
  obtain ⟨c, first⟩ : ∃ c, (opened.dropWhile isBlank).head? = some c :=
    ⟨_, List.head?_eq_some_head (List.ne_nil_of_mem closes)⟩
  refine isDefineLine_of_start first ?_ start
  rintro rfl
  have member := (List.dropWhile_suffix isBlank).subset (List.mem_of_head? first)
  exact absurd (plain _ member).1 (by decide)

/-- A head that declares a function is the head of a declaration. -/
theorem Declares.isHead {inferDirection : Bool} {head : Text} {declaration : Declaration}
    (declares : Declares inferDirection head declaration)
    : isHead head = true := by
  obtain ⟨returnType, name, gap, parameters, shape, reads⟩ :=
    Signature.shape_of_whole declares.declared declares.whole
  refine isHead_of_shape shape reads declares.starts fun semicolon => ?_
  exact absurd (declares.plain _ semicolon).1 (by decide)

/-- The target of a window whose text is stripped to a head, with only white space and delimiters in
front of it, is this head. -/
theorem Window.target_of_stripped {window : Window} {inferDirection : Bool}
    {text between head : Text} {declaration : Declaration}
    (undirected : isDefineLine window.line = false)
    (shown : Comment.sinceLastDelimiter window.before ++ firstStatement window.after = text)
    (stripped : Comment.strip text = between ++ head) (separates : ∀ c ∈ between, IsBetween c)
    (declares : Declares inferDirection head declaration)
    : window.target inferDirection
      = { declaration := some declaration, preceding := beforeLast head text } := by
  have trimmed : Text.trimEnd (between ++ head) = between ++ head := by
    refine @Text.dropEndWhile_of_last isSpace _ ')' ?_ (by decide)
    rw [List.getLast?_append, declares.ends]
    rfl
  have found : head? (between ++ head) = some head := by
    refine head?_append (fun c member => ?_) declares.isHead
    exact ⟨(separates c member).outside.1, (separates c member).outside.2.1⟩
  rw [Window.target, if_neg (by simp [undirected])]
  simp only [shown, stripped, trimmed, found, declares.declared]
  rfl

/-- The target of a window that shows a head in full is this head, behind all that stands between it
and the last delimiter. Witness: the comments above are deleted, so that only white space and the
delimiter are left in front of the head.
-/
theorem Window.target_of_head {window : Window} {inferDirection : Bool}
    {lead above indent head : Text} {declaration : Declaration}
    (undirected : isDefineLine window.line = false)
    (text : Comment.sinceLastDelimiter window.before ++ firstStatement window.after
      = lead ++ above ++ indent ++ head)
    (leads : ∀ c ∈ lead, IsBetween c)
    (hidden : Hidden above) (indented : ∀ c ∈ indent, isBlank c = true)
    (declares : Declares inferDirection head declaration)
    : window.target inferDirection
      = { declaration := some declaration, preceding := lead ++ above ++ indent } := by
  have spaced : ∀ c ∈ indent, IsBetween c :=
    fun c member => .inl (Text.isSpace_of_isBlank (indented c member))
  have plainHead : ∀ c ∈ indent ++ head, c ≠ '#' ∧ c ≠ '/' := by
    refine List.forall_mem_append.mpr
      ⟨fun c member => (spaced c member).outside.2.2, fun c member => ⟨?_, ?_⟩⟩
    · rintro rfl
      exact absurd (declares.plain _ member).1 (by decide)
    · exact (declares.plain c member).2
  have kept : Comment.delete Comment.block? (indent ++ head) = indent ++ head :=
    Comment.delete_block_eq_self (.of_plain plainHead)
  obtain ⟨left, stripped, blanks⟩ :=
    hidden.exists_strip (fun c member => (leads c member).outside.2.2) kept plainHead
  simp only [← List.append_assoc] at stripped
  have between : ∀ c ∈ lead ++ left ++ indent, IsBetween c := by
    refine List.forall_mem_append.mpr ⟨List.forall_mem_append.mpr ⟨leads, ?_⟩, spaced⟩
    exact fun c member => .inl (blanks c member)
  have cut : beforeLast head (lead ++ above ++ indent ++ head) = lead ++ above ++ indent := by
    have last := @Text.lastIndexOf?_append head [] ')' declares.ends (by simp)
      (lead ++ above ++ indent)
    rw [List.append_nil] at last
    rw [beforeLast, last]
    exact List.take_left
  rw [target_of_stripped undirected text stripped between declares, cut]

end DocBlock.Document
