import DocBlock.Proofs.Comment.Decoration

/-! Ordinary text in a comment: lines without tags, stars and surrounding white space. A description
or tag body made of such lines is read back from behind the decoration, and empty decorated lines
around it add nothing.
-/

namespace DocBlock.Documentation

open Text (isSpace isBlank isLineBoundary)

/-- One line of ordinary text: not empty, without tags, stars and line boundaries, and without white
space at either end. -/
structure Plain (text : Text) : Prop where
  nonempty : text ≠ []
  inner : ∀ c ∈ text, c ≠ '@' ∧ c ≠ '*' ∧ isLineBoundary c = false
  first : ∀ c ∈ text.head?, isSpace c = false
  last : ∀ c ∈ text.getLast?, isSpace c = false

instance (text : Text) : Decidable (Plain text) :=
  decidable_of_iff
    (text ≠ []
      ∧ (∀ c ∈ text, c ≠ '@' ∧ c ≠ '*' ∧ isLineBoundary c = false)
      ∧ (∀ c ∈ text.head?, isSpace c = false)
      ∧ ∀ c ∈ text.getLast?, isSpace c = false)
    ⟨fun ⟨nonempty, inner, first, last⟩ => ⟨nonempty, inner, first, last⟩,
      fun ⟨nonempty, inner, first, last⟩ => ⟨nonempty, inner, first, last⟩⟩

namespace Plain

variable {text : Text}

theorem no_break (plain : Plain text) : ∀ c ∈ text, c ≠ '\r' ∧ c ≠ '\n' := by
  intro c member
  have inside := (plain.inner c member).2.2
  constructor <;> (rintro rfl; exact absurd inside (by decide))

theorem no_star (plain : Plain text) : '*' ∉ text :=
  fun member => (plain.inner _ member).2.1 rfl

theorem no_at (plain : Plain text) : '@' ∉ text :=
  fun member => (plain.inner _ member).1 rfl

theorem dropWhile_isBlank (plain : Plain text) {pad : Text}
    (blanks : ∀ c ∈ pad, isBlank c = true)
    : (pad ++ text).dropWhile isBlank = text := by
  refine Text.dropWhile_run blanks fun c first => ?_
  cases blank : isBlank c with
  | false => rfl
  | true => simpa [plain.first c first] using Text.isSpace_of_isBlank blank

theorem trimEnd_append (plain : Plain text) (front : Text)
    : Text.trimEnd (front ++ text) = front ++ text := by
  obtain ⟨rest, c, rfl⟩ := (List.eq_nil_or_concat text).resolve_left plain.nonempty
  have last : (front ++ rest.concat c).getLast? = some c := by simp
  exact Text.dropEndWhile_of_last last (plain.last c (by simp))

theorem trim_eq (plain : Plain text) : Text.trim text = text :=
  Text.trimBy_of_ends plain.first plain.last

end Plain

/-- Lines with nothing but decoration. -/
structure Hollow (gap : Text) : Prop where
  inner : ∀ c ∈ gap, isBlank c = true ∨ c = '*' ∨ c = '\n'
  lines : ∀ line ∈ undecoratedLines gap, line = []

namespace Hollow

variable {gap : Text}

theorem not_mem (hollow : Hollow gap) {c : Char}
    (outside : isBlank c = false ∧ c ≠ '*' ∧ c ≠ '\n')
    : c ∉ gap := by
  intro member
  rcases hollow.inner c member with blank | star | feed
  · exact absurd (blank.symm.trans outside.1) (by decide)
  · exact outside.2.1 star
  · exact outside.2.2 feed

/-- Blanks make an empty line. -/
theorem of_blanks (blanks : ∀ c ∈ gap, isBlank c = true) : Hollow gap := by
  refine ⟨fun c member => .inl (blanks c member), ?_⟩
  have inner : ∀ c ∈ gap, c ≠ '\r' ∧ c ≠ '\n' := by
    intro c member
    constructor <;> (rintro rfl; exact absurd (blanks _ member) (by decide))
  have star : '*' ∉ gap := fun member => absurd (blanks _ member) (by decide)
  have none : gap.dropWhile isBlank = [] := List.dropWhile_eq_nil_iff.mpr blanks
  rw [undecoratedLines_single inner, undecorated_of_no_star star, none]
  simp [Text.trimEnd, Text.dropEndWhile]

theorem starred {indent pad : Text} (before : ∀ c ∈ indent, isBlank c = true)
    (behind : ∀ c ∈ pad, isBlank c = true)
    : Hollow (indent ++ '*' :: pad) := by
  refine ⟨fun c member => ?_, ?_⟩
  · rw [List.mem_append, List.mem_cons] at member
    rcases member with blank | star | blank
    · exact .inl (before c blank)
    · exact .inr (.inl star)
    · exact .inl (behind c blank)
  · have inner : ∀ c ∈ indent ++ '*' :: pad, c ≠ '\r' ∧ c ≠ '\n' := by
      intro c member
      rw [List.mem_append, List.mem_cons] at member
      rcases member with blank | rfl | blank
      · constructor <;> (rintro rfl; exact absurd (before _ blank) (by decide))
      · decide
      · constructor <;> (rintro rfl; exact absurd (behind _ blank) (by decide))
    rw [undecoratedLines_single inner]
    cases pad with
    | nil =>
        rw [undecorated_star before]
        simp [Text.trimEnd, Text.dropEndWhile]
    | cons c pad =>
        rw [List.forall_mem_cons] at behind
        have spaces : ∀ c ∈ pad, isSpace c = true :=
          fun c member => Text.isSpace_of_isBlank (behind.2 c member)
        have none := @Text.dropEndWhile_append isSpace [] pad spaces
        rw [undecorated_star_blank before behind.1, Text.trimEnd]
        simpa [Text.dropEndWhile] using none

theorem append_feed {later : Text} (first : Hollow gap) (second : Hollow later)
    : Hollow (gap ++ '\n' :: later) := by
  constructor
  · intro c member
    rw [List.mem_append, List.mem_cons] at member
    rcases member with member | feed | member
    · exact first.inner c member
    · exact .inr (.inr feed)
    · exact second.inner c member
  · rw [undecoratedLines_append_feed (first.not_mem (by decide))]
    intro line member
    rcases List.mem_append.mp member with member | member
    · exact first.lines line member
    · exact second.lines line member

end Hollow

theorem shown_of_hollow {gap : Text} (hollow : Hollow gap)
    : (((undecoratedLines gap).map Text.trim).filter fun line => !line.isEmpty) = [] := by
  rw [List.filter_eq_nil_iff]
  intro line member
  obtain ⟨source, original, rfl⟩ := List.mem_map.mp member
  rw [hollow.lines source original]
  decide

theorem tidied_of_ends {text : Text} {c : Char} (last : text.getLast? = some c)
    (inside : Text.isSpaceOrStar c = false)
    (first : ∀ c, text.head? = some c → isSpace c = false)
    : tidied text = text := by
  have ends : ∀ d, text.getLast? = some d → isSpace d = false := by
    rintro d same
    obtain rfl : c = d := Option.some.inj (last.symm.trans same)
    exact Text.isSpace_of_isSpaceOrStar inside
  rw [tidied, Text.dropEndWhile_of_last last inside]
  exact Text.trimBy_of_ends first ends

/-- A plain line ends in neither white space nor a star. -/
theorem Plain.ends {text : Text} (plain : Plain text)
    : ∃ c, text.getLast? = some c ∧ Text.isSpaceOrStar c = false := by
  obtain ⟨rest, c, rfl⟩ := (List.eq_nil_or_concat text).resolve_left plain.nonempty
  refine ⟨c, by simp, ?_⟩
  have star := (plain.inner c (by simp)).2.1
  simp [Text.isSpaceOrStar, plain.last c (by simp), star]

theorem Plain.tidied_eq {text : Text} (plain : Plain text) : tidied text = text := by
  obtain ⟨c, last, inside⟩ := plain.ends
  exact tidied_of_ends last inside plain.first

/-- A plain tag body is read back from its line, with empty lines behind it. -/
theorem tagBody_line {pad body gap : Text} (blanks : ∀ c ∈ pad, isBlank c = true)
    (ordinary : body = [] ∨ Plain body) (hollow : Hollow gap)
    : tagBody (pad ++ body ++ '\n' :: gap) = body := by
  rcases ordinary with rfl | plain
  · have empty := (Hollow.of_blanks blanks).append_feed hollow
    rw [List.append_nil, tagBody, shown_of_hollow empty]
    rfl
  · have inner : ∀ c ∈ pad ++ body, c ≠ '\r' ∧ c ≠ '\n' := by
      intro c member
      rcases List.mem_append.mp member with member | member
      · constructor <;> (rintro rfl; exact absurd (blanks _ member) (by decide))
      · exact plain.no_break c member
    have star : '*' ∉ pad ++ body := by
      rw [List.mem_append, not_or]
      exact ⟨fun member => absurd (blanks _ member) (by decide), plain.no_star⟩
    have line : undecoratedLines (pad ++ body) = [body] := by
      rw [undecoratedLines_single inner, undecorated_of_no_star star,
        plain.dropWhile_isBlank blanks, ← List.nil_append body, plain.trimEnd_append]
    rw [tagBody, undecoratedLines_append_feed (fun member => (inner _ member).1 rfl), line,
      List.map_append, List.filter_append, shown_of_hollow hollow, List.map_singleton,
      plain.trim_eq]
    simpa [plain.nonempty, Text.unwords, Text.join] using plain.tidied_eq

/-- Lines of a description: plain lines and empty lines between them. Only the second line may be
the first empty one, and then the third is plain. -/
structure Paragraphs (lines : List Text) : Prop where
  each : ∀ line ∈ lines, line = [] ∨ Plain line
  first : ∀ line ∈ lines.head?, Plain line
  last : ∀ line ∈ lines.getLast?, Plain line
  split : [] ∈ lines → lines[1]? = some [] ∧ ∃ line ∈ lines[2]?, Plain line

instance (lines : List Text) : Decidable (Paragraphs lines) :=
  decidable_of_iff
    ((∀ line ∈ lines, line = [] ∨ Plain line)
      ∧ (∀ line ∈ lines.head?, Plain line)
      ∧ (∀ line ∈ lines.getLast?, Plain line)
      ∧ ([] ∈ lines → lines[1]? = some [] ∧ ∃ line ∈ lines[2]?, Plain line))
    ⟨fun ⟨each, first, last, split⟩ => ⟨each, first, last, split⟩,
      fun ⟨each, first, last, split⟩ => ⟨each, first, last, split⟩⟩

/-- The text starts and ends as its first and last line do. -/
theorem Paragraphs.ends {lines : List Text} (prose : Paragraphs lines) (nonempty : lines ≠ [])
    : (∀ c ∈ (Text.unlines lines).head?, isSpace c = false)
      ∧ ∃ c, (Text.unlines lines).getLast? = some c ∧ Text.isSpaceOrStar c = false := by
  constructor
  · obtain ⟨line, rest, rfl⟩ := List.exists_cons_of_ne_nil nonempty
    have plain := prose.first line rfl
    rw [Text.head?_unlines plain.nonempty]
    exact plain.first
  · obtain ⟨front, line, rfl⟩ := (List.eq_nil_or_concat lines).resolve_left nonempty
    have plain := prose.last line (by simp)
    rw [List.concat_eq_append, Text.getLast?_unlines plain.nonempty]
    exact plain.ends

theorem unlines_of_empty {lines : List Text} (empty : ∀ line ∈ lines, line = [])
    : ∀ c ∈ Text.unlines lines, decide (c = '\n') = true := by
  intro c member
  rcases Text.mem_unlines member with feed | ⟨line, among, inside⟩
  · exact decide_eq_true feed
  · rw [empty line among] at inside
    contradiction

/-- The marker of a brief description. -/
def briefMarker : Text := '@' :: "brief ".toList

/-- A marker in front of plain text, or of nothing, is removed. -/
theorem withoutBrief {marker first : Text} (marked : marker = [] ∨ marker = briefMarker)
    (ordinary : first = [] ∨ Plain first)
    : ((Text.after? "@brief".toList (Text.trimEnd (marker ++ first))).map
          (·.dropWhile isSpace)).getD (Text.trimEnd (marker ++ first))
      = first := by
  rcases ordinary with rfl | plain
  · rcases marked with rfl | rfl <;> decide
  · obtain ⟨c, rest, rfl⟩ := List.exists_cons_of_ne_nil plain.nonempty
    rw [plain.trimEnd_append]
    rcases marked with rfl | rfl
    · have unmarked : Text.after? "@brief".toList (c :: rest) = none :=
        Text.after?_cons_of_ne (plain.inner c (by simp)).1 _ _
      rw [List.nil_append, unmarked]
      rfl
    · have found : Text.after? "@brief".toList (briefMarker ++ c :: rest)
          = some (' ' :: c :: rest) :=
        Text.after?_eq_some_iff.mpr rfl
      have space : isSpace ' ' = true := by decide
      rw [found]
      simp [space, plain.first c rfl]

/-- Line feeds behind a text that does not end in white space or a star are trimmed away. -/
theorem tidied_feeds {text feeds : Text} {c : Char} (first : ∀ d ∈ text.head?, isSpace d = false)
    (last : text.getLast? = some c) (inside : Text.isSpaceOrStar c = false)
    (behind : ∀ c ∈ feeds, decide (c = '\n') = true)
    : tidied (Text.trimBy (· = '\n') (text ++ feeds)) = text := by
  obtain ⟨front, rfl⟩ := List.getLast?_eq_some_iff.mp last
  have start : ∀ d, (front ++ [c] ++ feeds).head? = some d → decide (d = '\n') = false := by
    intro d same
    have shown : d ∈ (front ++ [c]).head? := by
      cases front <;> simpa [eq_comm] using same
    refine decide_eq_false fun feed => ?_
    rw [feed] at shown
    exact absurd (first _ shown) (by decide)
  have kept : (front ++ [c] ++ feeds).dropWhile (· = '\n') = front ++ [c] ++ feeds :=
    @Text.dropWhile_run (· = '\n') [] _ (by simp) start
  have plain : decide (c = '\n') = false := by
    refine decide_eq_false fun feed => ?_
    rw [feed] at inside
    exact absurd inside (by decide)
  rw [Text.trimBy, kept, Text.dropEndWhile_append behind,
    Text.dropEndWhile_of_last last plain, tidied_of_ends last inside first]

/-- Line feeds behind a description are trimmed away. -/
theorem tidied_paragraphs {lines : List Text} {feeds : Text} (nonempty : lines ≠ [])
    (prose : lines = [[]] ∨ Paragraphs lines) (behind : ∀ c ∈ feeds, decide (c = '\n') = true)
    : tidied (Text.trimBy (· = '\n') (Text.unlines lines ++ feeds)) = Text.unlines lines := by
  rcases prose with rfl | prose
  · have none : feeds.dropWhile (· = '\n') = [] := List.dropWhile_eq_nil_iff.mpr behind
    have empty : Text.unlines [[]] = [] := rfl
    rw [empty, List.nil_append, Text.trimBy, none]
    rfl
  · obtain ⟨first, c, last, inside⟩ := prose.ends nonempty
    exact tidied_feeds first last inside behind

/-- Empty lines around the lines of a description are not read. `line` is the first line before its
marker is removed. Witness: empty lines below become line feeds at the end, which trimming removes.
-/
theorem descriptionOf_lines {text line first : Text} {above rest below : List Text}
    (shape : undecoratedLines text = above ++ (line :: rest ++ below)) (nonempty : line ≠ [])
    (emptyAbove : ∀ line ∈ above, line = []) (emptyBelow : ∀ line ∈ below, line = [])
    (start : ((Text.after? "@brief".toList line).map (·.dropWhile isSpace)).getD line = first)
    (kept : ∀ feeds : Text, (∀ c ∈ feeds, decide (c = '\n') = true)
      → tidied (Text.trimBy (· = '\n') (Text.unlines (first :: rest) ++ feeds))
        = Text.unlines (first :: rest))
    : descriptionOf text = Text.unlines (first :: rest) := by
  have above : ∀ line ∈ above, line.isEmpty = true := by simpa using emptyAbove
  have shown : (line :: rest ++ below).dropWhile List.isEmpty = line :: (rest ++ below) :=
    List.dropWhile_cons_of_neg (by simpa using nonempty)
  unfold descriptionOf
  rw [shape, List.dropWhile_append_of_pos above, shown]
  dsimp only
  rw [start]
  by_cases none : below = []
  · have alone := kept [] (by simp)
    rw [List.append_nil] at alone
    rw [none, List.append_nil, alone]
  · rw [← List.cons_append, Text.unlines_append (by simp) none]
    apply kept
    exact List.forall_mem_cons.mpr ⟨by decide, unlines_of_empty emptyBelow⟩

/-- Empty lines around a description, and the marker in front of it, are not read. -/
theorem descriptionOf_shown {text marker first : Text} {above rest below : List Text}
    (marked : marker = [] ∨ marker = briefMarker)
    (shape : undecoratedLines text = above ++ (Text.trimEnd (marker ++ first) :: rest ++ below))
    (emptyAbove : ∀ line ∈ above, line = []) (emptyBelow : ∀ line ∈ below, line = [])
    (prose : first :: rest = [[]] ∨ Paragraphs (first :: rest))
    : descriptionOf text = Text.unlines (first :: rest) := by
  have ordinary : first = [] ∨ Plain first := by
    rcases prose with empty | prose
    · exact .inl (List.cons.inj empty).1
    · exact .inr (prose.first first rfl)
  have start := withoutBrief marked ordinary
  by_cases opening : Text.trimEnd (marker ++ first) = []
  · rw [opening] at start
    obtain rfl : [] = first := start
    obtain rfl : rest = [] := by
      rcases prose with empty | prose
      · exact (List.cons.inj empty).2
      · exact absurd rfl (prose.first [] rfl).nonempty
    have none : (above ++ ([[]] ++ below)).dropWhile List.isEmpty = [] := by
      rw [List.dropWhile_eq_nil_iff]
      simp only [List.mem_append, List.mem_singleton]
      rintro line (member | rfl | member)
      · rw [emptyAbove line member, List.isEmpty_nil]
      · rfl
      · rw [emptyBelow line member, List.isEmpty_nil]
    unfold descriptionOf
    rw [shape, opening, none]
    rfl
  · exact descriptionOf_lines shape opening emptyAbove emptyBelow start
      fun feeds behind => tidied_paragraphs (by simp) prose behind

end DocBlock.Documentation
