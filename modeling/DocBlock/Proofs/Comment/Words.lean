import DocBlock.Proofs.Comment.Enclosed
import DocBlock.Proofs.Comment.Segments
import DocBlock.Proofs.Text.Words

/-! The words of a comment. Reading a description or the body of a tag removes decoration and white
space and rearranges lines, and a word without stars is kept.
-/

namespace DocBlock.Documentation

open Text (isSpace isWord words)

/-- A word of prose: without stars, tags and square brackets. -/
structure Ordinary (word : Text) : Prop where
  star : '*' ∉ word
  mark : '@' ∉ word
  opening : '[' ∉ word
  closing : ']' ∉ word

instance (word : Text) : Decidable (Ordinary word) :=
  decidable_of_iff ('*' ∉ word ∧ '@' ∉ word ∧ '[' ∉ word ∧ ']' ∉ word)
    ⟨fun ⟨star, mark, opening, closing⟩ => ⟨star, mark, opening, closing⟩,
      fun ⟨star, mark, opening, closing⟩ => ⟨star, mark, opening, closing⟩⟩

variable {word text : Text}

--------------------------------------------------------------------------------
-- Lines without decoration
--------------------------------------------------------------------------------

theorem isSpaceOrStar_of_mem_words (member : word ∈ words text) (star : '*' ∉ word)
    : ∀ c ∈ word, Text.isSpaceOrStar c = false := by
  intro c inside
  have space := Text.unspaced_of_mem_words member c inside
  have other : c ≠ '*' := by
    rintro rfl
    exact star inside
  simp [Text.isSpaceOrStar, space, other]

theorem mem_words_undecorated (member : word ∈ words text) (star : '*' ∉ word)
    : word ∈ words (undecorated text) := by
  obtain ⟨decoration, shape, removed⟩ := exists_decoration text
  have outside := isSpaceOrStar_of_mem_words member star
  rw [shape] at member
  refine Text.mem_words_of_append_left member fun c among inside => ?_
  exact absurd ((removed c among).symm.trans (outside c inside)) (by decide)

/-- A word stands in one of the undecorated lines. -/
theorem mem_words_undecoratedLines (member : word ∈ words text) (star : '*' ∉ word)
    : ∃ line ∈ undecoratedLines text, word ∈ words line := by
  rw [Text.words_sourceLines, List.mem_flatMap] at member
  obtain ⟨line, among, inside⟩ := member
  exact ⟨_, List.mem_map_of_mem among, Text.mem_words_trimEnd (mem_words_undecorated inside star)⟩

/-- A part of a word without stars is shown in one of the undecorated lines. -/
theorem isInfix_undecoratedLines {part : Text} (nonempty : part ≠ [])
    (plain : ∀ c ∈ part, Text.isSpaceOrStar c = false) (inside : part <:+: text)
    : ∃ line ∈ undecoratedLines text, part <:+: line := by
  have unspaced : ∀ c ∈ part, isSpace c = false := fun c member =>
    Text.isSpace_of_isSpaceOrStar (plain c member)
  obtain ⟨whole, among, within⟩ := Text.exists_word_of_isInfix nonempty unspaced inside
  rw [Text.words_sourceLines, List.mem_flatMap] at among
  obtain ⟨line, source, shown⟩ := among
  obtain ⟨decoration, shape, removed⟩ := exists_decoration line
  have here : part <:+: decoration ++ undecorated line := by
    rw [← shape]
    exact within.trans (Text.isInfix_of_mem_words shown)
  have bare := Text.isInfix_of_append_left nonempty here fun c among inside =>
    absurd ((removed c among).symm.trans (plain c inside)) (by decide)
  exact ⟨_, List.mem_map_of_mem source, Text.isInfix_dropEndWhile nonempty bare unspaced⟩

--------------------------------------------------------------------------------
-- Tag bodies and descriptions
--------------------------------------------------------------------------------

/-- A part of a word without stars is kept in the body of a tag. -/
theorem isInfix_tagBody {part : Text} (nonempty : part ≠ [])
    (plain : ∀ c ∈ part, Text.isSpaceOrStar c = false) (inside : part <:+: text)
    : part <:+: tagBody text := by
  have unspaced : ∀ c ∈ part, isSpace c = false := fun c member =>
    Text.isSpace_of_isSpaceOrStar (plain c member)
  obtain ⟨line, among, shown⟩ := isInfix_undecoratedLines nonempty plain inside
  have trimmed : part <:+: Text.trim line := Text.isInfix_trimBy nonempty shown unspaced
  have kept : Text.trim line
      ∈ ((undecoratedLines text).map Text.trim).filter fun line => !line.isEmpty := by
    refine List.mem_filter.mpr ⟨List.mem_map_of_mem among, ?_⟩
    simpa using trimmed.ne_nil nonempty
  have joined := trimmed.trans (@Text.isInfix_join _ [' '] _ kept)
  rw [tagBody, tidied]
  exact Text.isInfix_trimBy nonempty (Text.isInfix_dropEndWhile nonempty joined plain) unspaced

/-- Only white space and stars make an empty tag body. -/
theorem tagBody_eq_nil_iff : tagBody text = [] ↔ ∀ c ∈ text, Text.isSpaceOrStar c = true := by
  constructor
  · intro empty c member
    by_contra other
    have plain : Text.isSpaceOrStar c = false := by simpa using other
    have inside : [c] <:+: text := by
      obtain ⟨before, behind, shape⟩ := List.append_of_mem member
      exact ⟨before, behind, by simp [shape]⟩
    have kept : [c] <:+: tagBody text :=
      isInfix_tagBody (by simp) (by simpa using plain) inside
    exact kept.ne_nil (by simp) empty
  · intro all
    have joined : ∀ c ∈ Text.unwords
        (((undecoratedLines text).map Text.trim).filter fun line => !line.isEmpty),
        Text.isSpaceOrStar c = true := by
      intro c member
      rcases Text.mem_join member with space | ⟨part, among, inside⟩
      · rw [List.mem_singleton.mp space]
        decide
      · obtain ⟨line, original, rfl⟩ := List.mem_map.mp (List.mem_of_mem_filter among)
        have within := (Text.trimBy_isInfix isSpace line).trans (undecoratedLines_isInfix original)
        exact all c (within.subset inside)
    have none := @Text.dropEndWhile_append Text.isSpaceOrStar [] _ joined
    rw [List.nil_append] at none
    rw [tagBody, tidied, none]
    rfl

theorem mem_words_tidied (member : word ∈ words text) (star : '*' ∉ word)
    : word ∈ words (tidied text) :=
  Text.mem_words_trim
    (Text.mem_words_dropEndWhile member (isSpaceOrStar_of_mem_words member star))

/-- A word without stars and tags is kept in a description. -/
theorem mem_words_descriptionOf (member : word ∈ words text) (star : '*' ∉ word)
    (mark : '@' ∉ word)
    : word ∈ words (descriptionOf text) := by
  obtain ⟨line, among, inside⟩ := mem_words_undecoratedLines member star
  have shown : line ∈ (undecoratedLines text).dropWhile List.isEmpty :=
    Text.mem_dropWhile among (by simpa using Text.ne_nil_of_mem_words inside)
  unfold descriptionOf
  dsimp only
  generalize (undecoratedLines text).dropWhile List.isEmpty = lines at shown
  refine mem_words_tidied (Text.mem_words_trimBy ?_ ?_) star
  · cases lines with
    | nil => contradiction
    | cons first rest =>
        rw [Text.unlines, Text.words_join (by decide), List.mem_flatMap]
        rcases List.mem_cons.mp shown with rfl | later
        · refine ⟨_, List.mem_cons_self, ?_⟩
          cases found : Text.after? "@brief".toList line with
          | none => simpa using inside
          | some body =>
              have behind := @Text.mem_words_after? word "brief".toList line body '@' found inside
                (by decide) mark
              simpa using Text.mem_words_dropWhile behind (Text.unspaced_of_mem_words behind)
        · exact ⟨line, List.mem_cons_of_mem _ later, inside⟩
  · intro c inside
    refine decide_eq_false fun feed => ?_
    have space := Text.unspaced_of_mem_words member c inside
    rw [feed] at space
    exact absurd space (by decide)

--------------------------------------------------------------------------------
-- Parts
--------------------------------------------------------------------------------

/-- A word without tags stands in one part of a comment, by induction on the parts. -/
theorem exists_part_of_mem_words {first : Text} {parts : List Text}
    (tagged : ∀ part ∈ parts, TagPart part) (member : word ∈ words (first ++ parts.flatten))
    (mark : '@' ∉ word)
    : ∃ part ∈ first :: parts, word ∈ words part := by
  induction parts generalizing first with
  | nil => exact ⟨first, List.mem_cons_self, by simpa using member⟩
  | cons part parts ih =>
      rw [List.forall_mem_cons] at tagged
      obtain ⟨name, rfl⟩ := tagged.1.shape
      rw [List.flatten_cons, List.cons_append] at member
      rcases Text.mem_words_of_split member mark with here | later
      · exact ⟨first, List.mem_cons_self, here⟩
      · rw [← List.cons_append] at later
        obtain ⟨part, among, inside⟩ := ih tagged.2 later
        exact ⟨part, List.mem_cons_of_mem first among, inside⟩

/-- The word in which a segment names its parameter. -/
def namedWord (segment : Text) : Text :=
  ((behindDirection segment).dropWhile isSpace).takeWhile (!isSpace ·)

/-- A word of prose in a parameter segment is shown in the direction or the description of the
parameter, unless it is the word that names it. -/
theorem word_of_parameterPart {segment : Text} {index : Nat} {parameter : Parameter}
    (read : parameterOf? true segment index = some parameter)
    (member : word ∈ words ("@param".toList ++ segment)) (ordinary : Ordinary word)
    : (∃ direction ∈ parameter.direction, word <:+: direction)
      ∨ word <:+: parameter.description
      ∨ word = namedWord segment := by
  have placed : (∃ direction ∈ (direction? segment).map Prod.fst, word <:+: direction)
      ∨ word ∈ words (behindDirection segment) := by
    unfold behindDirection
    cases found : direction? segment with
    | none =>
        exact .inr (@Text.mem_words_of_unspaced_left word "param".toList segment '@' member
          (by decide) ordinary.mark)
    | some result =>
        have shape : "@param".toList ++ segment
            = "@param[".toList ++ result.1 ++ ']' :: result.2 := by
          simp [direction?_sound found]
        rw [shape] at member
        rcases Text.mem_words_of_split member ordinary.closing with inside | behind
        · have bare : word ∈ words result.1 :=
            @Text.mem_words_of_unspaced_left word "param[".toList result.1 '@' inside (by decide)
              ordinary.mark
          exact .inl ⟨result.1, rfl, Text.isInfix_of_mem_words bare⟩
        · exact .inr (@Text.mem_words_of_unspaced_left word [] result.2 ']' behind (by decide)
            ordinary.closing)
  rw [parameterOf?_eq] at read
  obtain ⟨⟨name, body⟩, run, rfl⟩ := Option.map_eq_some_iff.mp read
  refine placed.imp id fun among => ?_
  obtain ⟨-, rfl, -⟩ := Text.wordRun?_sound run
  have unspaced := Text.unspaced_of_mem_words among
  have start := Text.mem_words_dropWhile among unspaced
  refine (Text.mem_words_first start).symm.imp_left fun later => ?_
  -- What stands behind the first word stands behind the name.
  have suffix : ((behindDirection segment).dropWhile isSpace).dropWhile (!isSpace ·)
      <:+ ((behindDirection segment).dropWhile isSpace).dropWhile isWord := by
    refine Text.dropWhile_isSuffix (fun c word => ?_) _
    simp [Text.isSpace_of_isWord word]
  have inside := (Text.isInfix_of_mem_words later).trans suffix.isInfix
  exact isInfix_tagBody (Text.mem_words_iff.mp among).1
    (isSpaceOrStar_of_mem_words among ordinary.star) inside

/-- A word of prose in a return part is shown in its description, behind the keyword. -/
theorem word_of_returnPart {part description : Text} (read : returnPart? part = some description)
    (member : word ∈ words part) (ordinary : Ordinary word)
    : ∃ keyword ∈ returnKeywords, ∃ body,
        description = keyword ++ ' ' :: body ∧ word <:+: body := by
  simp only [returnPart?, Option.bind_eq_bind, Option.bind_eq_some_iff, Prod.exists] at read
  obtain ⟨text, opened, keyword, rest, run, chosen⟩ := read
  obtain ⟨known, same⟩ := Option.ite_none_right_eq_some.mp chosen
  have listed : keyword ∈ returnKeywords := by simpa using known
  have unspaced : ∀ c ∈ '@' :: keyword, isSpace c = false :=
    List.forall_mem_cons.mpr ⟨by decide, returnKeyword_unspaced listed⟩
  have shape : part = '@' :: keyword ++ rest := by
    obtain ⟨rfl, rfl, -⟩ := Text.wordRun?_sound run
    rw [List.cons_append, List.takeWhile_append_dropWhile]
    exact Text.after?_eq_some_iff.mp opened
  rw [shape] at member
  have behind := Text.mem_words_of_unspaced_left member unspaced ordinary.mark
  have nonempty := (Text.mem_words_iff.mp behind).1
  have shown : word <:+: tagBody rest :=
    isInfix_tagBody nonempty (isSpaceOrStar_of_mem_words behind ordinary.star)
      (Text.isInfix_of_mem_words behind)
  have some : (tagBody rest).isEmpty = false := by simpa using shown.ne_nil nonempty
  refine ⟨keyword, listed, tagBody rest, ?_, shown⟩
  rw [some] at same
  exact (Option.some.inj same).symm

end DocBlock.Documentation
