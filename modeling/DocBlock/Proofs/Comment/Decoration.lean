import DocBlock.Comment.Documentation
import DocBlock.Proofs.Comment.Closing
import DocBlock.Proofs.Text.Classes
import DocBlock.Proofs.Text.LineBreaks

/-! The decoration of comment lines. Removing it leaves an end of each line, so no comment end
arises; behind one star and one blank a line is read back as it was written.
-/

namespace DocBlock.Documentation

open Comment (Closeless)
open Text (isSpace isBlank isLineBoundary)

/-- Removing the decoration takes white space and stars from the start of the line. Witness: stars
that are put back before a slash come from the same place.
-/
theorem exists_decoration (line : Text)
    : ∃ decoration,
        line = decoration ++ undecorated line
          ∧ ∀ c ∈ decoration, Text.isSpaceOrStar c = true := by
  have blanks : ∀ c ∈ line.takeWhile isBlank, Text.isSpaceOrStar c = true := by
    intro c member
    have space := Text.isSpace_of_isBlank (List.mem_takeWhile_imp member)
    simp [Text.isSpaceOrStar, space]
  have inside : ∀ c ∈ (line.dropWhile isBlank).takeWhile (· = '*'), c = '*' := fun c member => by
    simpa using List.mem_takeWhile_imp member
  have whole : line = line.takeWhile isBlank
      ++ ((line.dropWhile isBlank).takeWhile (· = '*')
        ++ (line.dropWhile isBlank).dropWhile (· = '*')) := by
    rw [List.takeWhile_append_dropWhile, List.takeWhile_append_dropWhile]
  unfold undecorated
  dsimp only
  rw [Text.drop_length_takeWhile]
  generalize (line.dropWhile isBlank).takeWhile (· = '*') = stars at whole inside
  generalize (line.dropWhile isBlank).dropWhile (· = '*') = rest at whole
  have both : ∀ c ∈ line.takeWhile isBlank ++ stars, Text.isSpaceOrStar c = true := by
    refine List.forall_mem_append.mpr ⟨blanks, fun c member => ?_⟩
    rw [inside c member]
    decide
  split
  · exact ⟨line.takeWhile isBlank, by simpa using whole, blanks⟩
  · exact ⟨line.takeWhile isBlank ++ stars, by simpa using whole, both⟩
  · next c later nonempty =>
    split
    · obtain ⟨front, last, rfl⟩ := (List.eq_nil_or_concat stars).resolve_left nonempty
      obtain rfl : last = '*' := inside last (by simp)
      refine ⟨line.takeWhile isBlank ++ front, by simpa using whole, fun d member => both d ?_⟩
      rw [List.concat_eq_append, ← List.append_assoc]
      exact List.mem_append_left _ member
    · split
      · next blank =>
        refine ⟨line.takeWhile isBlank ++ stars ++ [c], by simpa using whole, ?_⟩
        have space := Text.isSpace_of_isBlank blank
        exact List.forall_mem_append.mpr ⟨both, by simp [Text.isSpaceOrStar, space]⟩
      · exact ⟨line.takeWhile isBlank ++ stars, by simpa using whole, both⟩

/-- Removing the decoration leaves an end of the line. -/
theorem undecorated_isSuffix (line : Text) : undecorated line <:+ line := by
  obtain ⟨decoration, whole, -⟩ := exists_decoration line
  exact ⟨decoration, whole.symm⟩

/-- One star and one blank behind the indentation are decoration. -/
theorem undecorated_star_blank {indent : Text} {c : Char}
    (blanks : ∀ c ∈ indent, isBlank c = true) (blank : isBlank c = true) (rest : Text)
    : undecorated (indent ++ '*' :: c :: rest) = rest := by
  have start : (indent ++ '*' :: c :: rest).dropWhile isBlank = '*' :: c :: rest :=
    Text.dropWhile_run blanks (by rintro d ⟨⟩; decide)
  have other : c ≠ '*' ∧ c ≠ '/' := by
    constructor <;> (rintro rfl; exact absurd blank (by decide))
  simp [undecorated, start, blank, other]

theorem undecorated_star {indent : Text} (blanks : ∀ c ∈ indent, isBlank c = true)
    : undecorated (indent ++ ['*']) = [] := by
  have start : (indent ++ ['*']).dropWhile isBlank = ['*'] :=
    Text.dropWhile_run blanks (by rintro c ⟨⟩; decide)
  simp [undecorated, start]

/-- Without stars only the blanks at the start are decoration. -/
theorem undecorated_of_no_star {line : Text} (absent : '*' ∉ line)
    : undecorated line = line.dropWhile isBlank := by
  have run : (line.dropWhile isBlank).takeWhile (· = '*') = [] := by
    rw [List.takeWhile_eq_nil_iff]
    intro nonempty star
    have member := List.get_mem (line.dropWhile isBlank) ⟨0, nonempty⟩
    rw [of_decide_eq_true star] at member
    exact absent ((List.dropWhile_suffix isBlank).subset member)
  simp [undecorated, run]

/-- A line feed splits a text without carriage returns in front of it. -/
theorem undecoratedLines_append_feed {front : Text} (plain : '\r' ∉ front) (rest : Text)
    : undecoratedLines (front ++ '\n' :: rest)
      = undecoratedLines front ++ undecoratedLines rest := by
  rw [undecoratedLines, Text.sourceLines_append_feed plain, List.map_append]
  rfl

theorem undecoratedLines_single {line : Text} (inner : ∀ c ∈ line, c ≠ '\r' ∧ c ≠ '\n')
    : undecoratedLines line = [Text.trimEnd (undecorated line)] := by
  rw [undecoratedLines, Text.sourceLines_single inner, List.map_singleton]

theorem undecoratedLines_isInfix {text line : Text} (member : line ∈ undecoratedLines text)
    : line <:+: text := by
  obtain ⟨source, original, rfl⟩ := List.mem_map.mp member
  have trimmed := (Text.dropEndWhile_isPrefix isSpace (undecorated source)).isInfix
  have decorated := trimmed.trans (undecorated_isSuffix source).isInfix
  exact decorated.trans (Text.sourceLines_isInfix original)

theorem tidied_isInfix (text : Text) : tidied text <:+: text :=
  (Text.trimBy_isInfix isSpace _).trans (Text.dropEndWhile_isPrefix Text.isSpaceOrStar text).isInfix

/-- The body of a tag has no comment end if its text has none: its lines are parts of the text, and
a space stands between them. -/
theorem tagBody_closeless {text : Text} (free : Closeless text) : Closeless (tagBody text) := by
  refine Closeless.of_isInfix ?_ (tidied_isInfix _)
  rw [Text.unwords, Comment.closeless_join_iff (by decide)]
  intro part member
  obtain ⟨line, original, rfl⟩ := List.mem_map.mp (List.mem_of_mem_filter member)
  have trimmed := Text.trimBy_isInfix isSpace line
  exact free.of_isInfix (trimmed.trans (undecoratedLines_isInfix original))

end DocBlock.Documentation
