import DocBlock.Document.Head
import DocBlock.Proofs.Signature.Lexemes

/-! A function head is recognised as the head of a declaration: the links of its chain are the words
of the head, each with the stars and the white space behind it.
-/

namespace DocBlock.Document

open Signature (Lexeme lexeme? HeadShape IsName lexemesText)
open Text (Reads Consumes isSpace isWord isSpaceOrStar)

/-- A word, and what stands between it and the next word, is one link. -/
theorem link?_append {word gap rest : Text} (nonempty : word ≠ [])
    (letters : ∀ c ∈ word, isWord c = true) (between : ∀ c ∈ gap, isSpaceOrStar c = true)
    (outside : ∀ c, rest.head? = some c → isSpaceOrStar c = false)
    (ended : ∀ c, (gap ++ rest).head? = some c → isWord c = false)
    : link? (word ++ (gap ++ rest)) = some (⟨word, gap⟩, rest) := by
  have read : Text.wordRun? (word ++ (gap ++ rest)) = some (word, gap ++ rest) := by
    obtain ⟨c, letters', rfl⟩ := List.exists_cons_of_ne_nil nonempty
    simp only [Text.wordRun?, Text.takeWhile_run letters ended, Text.dropWhile_run letters ended]
  simp only [link?, read, Option.map_some, Text.takeWhile_run between outside,
    Text.dropWhile_run between outside]

/-- The name of a function, and the white space before its parameter list, is one link. -/
theorem link?_name {name gap : Text} (named : IsName name gap) (list : Text)
    : link? (name ++ (gap ++ '(' :: list)) = some (⟨name, gap⟩, '(' :: list) := by
  have spaces : ∀ c ∈ gap, isSpaceOrStar c = true := by
    intro c member
    simp [isSpaceOrStar, named.space c member]
  have ended : ∀ c, (gap ++ '(' :: list).head? = some c → isWord c = false := by
    intro c first
    cases gap with
    | nil =>
        obtain rfl : '(' = c := by simpa using first
        decide
    | cons d gap =>
        obtain rfl : d = c := by simpa using first
        exact Text.isWord_of_isSpace (named.space d List.mem_cons_self)
  exact link?_append named.nonempty named.word spaces (by rintro c ⟨⟩; decide) ended

theorem consumes_link : Consumes link? := by
  intro text link later found
  obtain ⟨⟨word, rest⟩, read, same⟩ := Option.map_eq_some_iff.mp found
  obtain ⟨rfl, rfl, nonempty⟩ := Text.wordRun?_sound read
  obtain ⟨-, rfl⟩ := Prod.mk.inj same
  have shorter := (List.dropWhile_suffix isSpaceOrStar (l := text.dropWhile isWord)).length_le
  have whole := congrArg List.length (@List.takeWhile_append_dropWhile _ isWord text)
  have positive := List.length_pos_iff.mpr nonempty
  rw [List.length_append] at whole
  omega

/-- Lexemes in front of a word are links, behind stars that belong to no link. Witness: induction on
the lexemes; a star joins the gap in front of it, and a word starts a link.
-/
theorem reads_links {text rest : Text} {lexemes : List Lexeme}
    (reads : Reads (lexeme? Text.identifier?) text lexemes rest)
    (word : ∃ c, rest.head? = some c ∧ isWord c = true)
    : ∃ gap later links,
        text = gap ++ later
          ∧ (∀ c ∈ gap, isSpaceOrStar c = true)
          ∧ (∃ c, later.head? = some c ∧ isWord c = true)
          ∧ Reads link? later links rest := by
  induction reads with
  | done text => exact ⟨[], text, [], rfl, by simp, word, .done text⟩
  | @next text middle rest lexeme lexemes found more ih =>
      obtain ⟨gap, later, links, rfl, between, ⟨c, start, letter⟩, linked⟩ := ih word
      obtain ⟨rfl, precedes⟩ := Signature.lexeme?_sound found
      have spaces : ∀ c ∈ lexeme.gap ++ gap, isSpaceOrStar c = true := by
        refine List.forall_mem_append.mpr ⟨fun d member => ?_, between⟩
        simp [isSpaceOrStar, precedes.gap d member]
      rcases precedes.token with star | ⟨name, token, nonempty, letters, ended⟩
      · refine ⟨'*' :: (lexeme.gap ++ gap), later, links, ?_, ?_, ⟨c, start, letter⟩, linked⟩
        · simp [Lexeme.text, star, Signature.Token.text]
        · exact List.forall_mem_cons.mpr ⟨by decide, spaces⟩
      · have outside : ∀ d, later.head? = some d → isSpaceOrStar d = false := by
          intro d first
          obtain rfl : c = d := Option.some.inj (start.symm.trans first)
          exact Text.isSpaceOrStar_of_isWord letter
        have link := link?_append nonempty letters spaces outside (by simpa using ended)
        obtain ⟨d, name, rfl⟩ := List.exists_cons_of_ne_nil nonempty
        refine ⟨[], d :: name ++ (lexeme.gap ++ gap ++ later),
          ⟨d :: name, lexeme.gap ++ gap⟩ :: links, ?_, by simp,
          ⟨d, rfl, letters d List.mem_cons_self⟩, .next link linked⟩
        simp [Lexeme.text, token, Signature.Token.text]

/-- A function head that starts with a word is the head of a declaration. -/
theorem isHead_of_shape {head name gap parameters : Text} {returnType : List Lexeme}
    (shape : HeadShape head returnType name gap parameters)
    (reads : Reads (lexeme? Text.identifier?) head returnType
      (name ++ (gap ++ '(' :: (parameters ++ [')']))))
    (start : ∃ c, head.head? = some c ∧ isWord c = true) (separated : ';' ∉ head)
    : isHead head = true := by
  have word : ∃ c, (name ++ (gap ++ '(' :: (parameters ++ [')']))).head? = some c
      ∧ isWord c = true := by
    obtain ⟨c, letters, rfl⟩ := List.exists_cons_of_ne_nil shape.named.nonempty
    exact ⟨c, rfl, shape.named.word c List.mem_cons_self⟩
  obtain ⟨before, later, links, whole, between, -, linked⟩ := reads_links reads word
  obtain rfl : before = [] := by
    cases before with
    | nil => rfl
    | cons d before =>
        obtain ⟨c, first, letter⟩ := start
        obtain rfl : d = c := by simpa [whole] using first
        have inside := between d List.mem_cons_self
        rw [Text.isSpaceOrStar_of_isWord letter] at inside
        contradiction
  obtain rfl : head = later := whole
  have several : links ≠ [] := by
    rintro rfl
    cases reads with
    | done => exact shape.returns rfl
    | next found more =>
        have shorter := Signature.consumes_lexeme _ _ _ found
        have rest := more.length_le Signature.consumes_lexeme
        cases linked
        omega
  have last := link?_name shape.named (parameters ++ [')'])
  have stop : link? ('(' :: (parameters ++ [')'])) = none := by
    have letter : isWord '(' = false := by decide
    simp [link?, Text.wordRun?, letter]
  have chained : chain head = (links ++ [⟨name, gap⟩], '(' :: (parameters ++ [')'])) :=
    Text.many_eq consumes_link (linked.append (.next last (.done _))) stop
  have closes : closesList (parameters ++ [')']) = true := by
    have inner : ∀ c ∈ parameters, c ≠ ';' := by
      rintro c member rfl
      rw [shape.text] at separated
      exact separated (by simp [member])
    simpa [closesList] using inner
  have plain : endsPlain (links ++ [⟨name, gap⟩]) = true := by
    simpa [endsPlain] using shape.named.space
  have positive : 1 ≤ links.length := List.length_pos_iff.mpr several
  simp [isHead, chained, closes, plain, positive]

theorem isHead_eq_false {c : Char} (outside : isWord c = false ∧ c ≠ '(') (rest : Text)
    : isHead (c :: rest) = false := by
  have stop : link? (c :: rest) = none := by
    simp [link?, Text.wordRun?, outside.1]
  have none : chain (c :: rest) = ([], c :: rest) := Text.many_eq consumes_link (.done _) stop
  simp [isHead, none, outside.2]

theorem head?_append {front head : Text} (outside : ∀ c ∈ front, isWord c = false ∧ c ≠ '(')
    (recognised : isHead head = true)
    : head? (front ++ head) = some head := by
  have passed := @Text.findFirst?_append _ (fun rest => if isHead rest then some rest else none)
    front head fun c later position => by
      have here := isHead_eq_false (outside c (position.subset List.mem_cons_self)) (later ++ head)
      simp [here]
  have here := @Text.findFirst?_here _ (fun rest => if isHead rest then some rest else none)
    head head (by simp [recognised])
  rw [head?, passed, here]
  simp

end DocBlock.Document
