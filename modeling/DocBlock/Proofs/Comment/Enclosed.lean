import DocBlock.Proofs.Comment.Decoration
import DocBlock.Proofs.Text.Scanning

/-! What the tags of a comment say lies inside the comment: no direction, description or return
text that is read from it holds a comment end.
-/

namespace DocBlock.Documentation

open Comment (Closeless)
open Text (isSpace isBlank isWord)

/-- A tag in a comment stands between the opening and the end of the comment. -/
theorem tag_position {body rest : Text}
    (position : '@' :: rest <:+ "/**".toList ++ body ++ "*/".toList)
    : ∃ inside, rest = inside ++ "*/".toList ∧ inside <:+: body := by
  obtain ⟨inside, shape, front⟩ := Text.suffix_of_not_mem_right (by decide) position
  have tail := Text.suffix_of_not_mem_left (by decide) front
  exact ⟨inside, shape, ((List.suffix_cons '@' inside).trans tail).isInfix⟩

theorem breakAt_endsSegment_isPrefix (front : Text)
    : (Text.breakAt endsSegment (front ++ "*/".toList)).1 <+: front :=
  Text.breakAt_isPrefix (by decide) (by simp) front

theorem returnSegment?_closeless {body rest later value : Text} (free : Closeless body)
    (position : rest <:+ "/**".toList ++ body ++ "*/".toList)
    (read : returnSegment? rest = some (value, later))
    : Closeless value := by
  simp only [returnSegment?, Option.bind_eq_bind, Option.bind_eq_some_iff, Prod.exists] at read
  obtain ⟨behind, opened, keyword, tail, word, found⟩ := read
  obtain rfl : rest = '@' :: behind := Text.after?_eq_some_iff.mp opened
  obtain ⟨inside, rfl, part⟩ := tag_position position
  obtain ⟨-, rfl, -⟩ := Text.wordRun?_sound word
  have stop : isWord '*' = false := by decide
  have tail : (inside ++ "*/".toList).dropWhile isWord = inside.dropWhile isWord ++ "*/".toList :=
    Text.dropWhile_append_stop stop inside ['/']
  have segment : Closeless
      (Text.breakAt endsSegment (inside.dropWhile isWord ++ "*/".toList)).1 := by
    refine (free.of_isInfix part).of_isInfix
      (List.IsInfix.trans ?_ (List.dropWhile_suffix isWord).isInfix)
    exact (breakAt_endsSegment_isPrefix _).isInfix
  rw [tail] at found
  split at found
  · next known =>
    have checked : ∀ keyword ∈ returnKeywords, '*' ∉ keyword := by decide
    have plain : Closeless keyword := Closeless.of_no_star (checked keyword (by simpa using known))
    obtain ⟨rfl, -⟩ := Prod.mk.inj (Option.some.inj found)
    split
    · exact plain
    · exact (Comment.closeless_append_cons_iff (by decide)).mpr ⟨plain, tagBody_closeless segment⟩
  · contradiction

theorem direction?_sound {segment direction rest : Text}
    (found : direction? segment = some (direction, rest))
    : segment = '[' :: direction ++ ']' :: rest := by
  unfold direction? at found
  split at found
  · next inner =>
    split at found
    · next later tail =>
      obtain ⟨rfl, rfl⟩ := Prod.mk.inj (Option.some.inj found)
      rw [List.cons_append, ← tail, List.takeWhile_append_dropWhile]
    · contradiction
  · contradiction

/-- What follows the direction of a parameter segment. -/
def behindDirection (segment : Text) : Text :=
  ((direction? segment).map Prod.snd).getD segment

/-- A segment documents the parameter whose name follows its direction. -/
theorem parameterOf?_eq (keepDirection : Bool) (segment : Text) (index : Nat)
    : parameterOf? keepDirection segment index
      = (Text.wordRun? ((behindDirection segment).dropWhile isSpace)).map fun (name, body) =>
        {
          name
          direction := if keepDirection then (direction? segment).map Prod.fst else none
          index := some (index : Int)
          description := tagBody body
        } := by
  unfold parameterOf? behindDirection
  cases direction? segment <;> rfl

/-- The direction and the description of a parameter are parts of its segment. -/
theorem parameterOf?_of_closeless {segment : Text} (free : Closeless segment)
    {keepDirection : Bool} {index : Nat} {parameter : Parameter}
    (named : parameterOf? keepDirection segment index = some parameter)
    : (∀ direction ∈ parameter.direction, Closeless direction)
      ∧ Closeless parameter.description := by
  have parts : (∀ direction ∈ (direction? segment).map Prod.fst, Closeless direction)
      ∧ Closeless (behindDirection segment) := by
    unfold behindDirection
    cases found : direction? segment with
    | none => exact ⟨by simp, free⟩
    | some result =>
        have shape := direction?_sound found
        constructor
        · rintro direction ⟨⟩
          exact free.of_isInfix ⟨['['], ']' :: result.2, by simp [shape]⟩
        · exact free.of_isInfix ⟨'[' :: result.1 ++ [']'], [], by simp [shape]⟩
  rw [parameterOf?_eq] at named
  obtain ⟨⟨name, body⟩, word, rfl⟩ := Option.map_eq_some_iff.mp named
  obtain ⟨-, rfl, -⟩ := Text.wordRun?_sound word
  constructor
  · intro direction member
    cases keepDirection with
    | false => simp at member
    | true => exact parts.1 direction (by simpa using member)
  · have behind := parts.2.of_isInfix (List.dropWhile_suffix isSpace).isInfix
    exact tagBody_closeless (behind.of_isInfix (List.dropWhile_suffix isWord).isInfix)

/-- A segment found in a comment is a part of it, unless it is the end of the comment itself, where
a tag without text stands. -/
theorem parameterSegment?_closeless {body rest later segment : Text} (free : Closeless body)
    (position : rest <:+ "/**".toList ++ body ++ "*/".toList)
    (read : parameterSegment? rest = some (segment, later))
    : segment = "*/".toList ∨ Closeless segment := by
  unfold parameterSegment? at read
  split at read
  · next c behind opened =>
    obtain ⟨rfl, -⟩ := Prod.mk.inj (Option.some.inj read)
    have shape := Text.after?_eq_some_iff.mp opened
    rw [shape] at position
    obtain ⟨inside, whole, part⟩ := @tag_position body ("param".toList ++ c :: behind) position
    rcases List.append_eq_append_iff.mp whole with ⟨middle, front, tail⟩ | ⟨middle, front, tail⟩
    · cases middle with
      | nil =>
          obtain ⟨rfl, rfl⟩ : c = '*' ∧ behind = ['/'] := by simpa using tail
          exact .inl (by decide)
      | cons d middle =>
          obtain ⟨rfl, rfl⟩ : c = d ∧ behind = middle ++ "*/".toList := by simpa using tail
          refine .inr ((free.of_isInfix part).of_isInfix ?_)
          obtain ⟨more, same⟩ := breakAt_endsSegment_isPrefix middle
          exact ⟨"param".toList, more, by rw [front, List.append_assoc, List.cons_append, same]⟩
    · cases middle with
      | nil =>
          obtain ⟨rfl, rfl⟩ : '*' = c ∧ ['/'] = behind := by simpa using tail
          exact .inl (by decide)
      | cons d middle =>
          obtain ⟨rfl, -⟩ : '*' = d ∧ ['/'] = middle ++ c :: behind := by simpa using tail
          have member : '*' ∈ "param".toList := by
            rw [front]
            simp
          exact absurd member (by decide)
  · contradiction

/-- What the tags of a declaration show holds no comment end. -/
structure TagsCloseless (declaration : Declaration) : Prop where
  directions : ∀ parameter ∈ declaration.parameters,
    ∀ direction ∈ parameter.direction, Closeless direction
  descriptions : ∀ parameter ∈ declaration.parameters, Closeless parameter.description
  returns : ∀ description ∈ declaration.returnDescriptions, Closeless description

/-- What is read from the tags of a comment holds no comment end. -/
theorem tagsCloseless_read {body : Text} (free : Closeless body) (keepDirection : Bool)
    : TagsCloseless (read keepDirection ("/**".toList ++ body ++ "*/".toList)) := by
  have parameters : ∀ parameter
      ∈ (read keepDirection ("/**".toList ++ body ++ "*/".toList)).parameters,
      (∀ direction ∈ parameter.direction, Closeless direction)
        ∧ Closeless parameter.description := by
    intro parameter member
    obtain ⟨⟨segment, index⟩, among, named⟩ := List.mem_filterMap.mp member
    obtain ⟨rest, later, position, found⟩ := Text.mem_findAll (List.fst_mem_of_mem_zipIdx among)
    rcases parameterSegment?_closeless free position found with rfl | inside
    · have unnamed : parameterOf? keepDirection "*/".toList index = none := rfl
      exact absurd (unnamed.symm.trans named) (by simp)
    · exact parameterOf?_of_closeless inside named
  refine ⟨fun parameter member => (parameters parameter member).1,
    fun parameter member => (parameters parameter member).2, fun description member => ?_⟩
  obtain ⟨rest, later, position, found⟩ := Text.mem_findAll member
  exact returnSegment?_closeless free position found

end DocBlock.Documentation
