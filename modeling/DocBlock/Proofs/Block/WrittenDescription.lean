import DocBlock.Proofs.Block.Layout
import DocBlock.Proofs.Block.Margin
import DocBlock.Proofs.Comment.Tags

/-! A description of plain lines is written line by line behind the decoration, whether or not it is
split into paragraphs, and is read back from there.
-/

namespace DocBlock.Block

open Comment (Closeless)
open Documentation (Plain Paragraphs Hollow Quiet briefMarker undecoratedLines undecorated)
open Snippet (expansion)
open Text (isSpace isBlank isLineBoundary)

/-- A description that survives being written: empty, or paragraphs of plain lines. -/
def Prose (description : Text) : Prop :=
  description = [] ∨ Paragraphs (Text.lines description)

instance (description : Text) : Decidable (Prose description) :=
  inferInstanceAs (Decidable (_ ∨ _))

theorem Prose.each {description : Text} (prose : Prose description)
    : ∀ line ∈ Text.lines description, line = [] ∨ Plain line := by
  rcases prose with rfl | prose
  · exact List.forall_mem_singleton.mpr (.inl rfl)
  · exact prose.each

/-- Nothing is trimmed from lines whose ends are not blank. -/
theorem trimLines_of_ends {blank : Text → Bool} {lines : List Text}
    (first : ∀ line ∈ lines.head?, blank line = false)
    (last : ∀ line ∈ lines.getLast?, blank line = false)
    : Text.trimLines blank lines = lines := by
  have front : lines.dropWhile blank = lines := by
    cases lines with
    | nil => rfl
    | cons line rest => exact List.dropWhile_cons_of_neg (by simp [first line rfl])
  have back : lines.reverse.dropWhile blank = lines.reverse := by
    cases shape : lines.reverse with
    | nil => rfl
    | cons line rest =>
        refine List.dropWhile_cons_of_neg ?_
        have final : line ∈ lines.getLast? := by
          rw [← List.head?_reverse, shape]
          rfl
        simp [last line final]
  rw [Text.trimLines, front, back, List.reverse_reverse]

theorem paragraphs_inner {description : Text} (prose : Paragraphs (Text.lines description))
    {c : Char} (member : c ∈ description)
    : c = '\n' ∨ (c ≠ '@' ∧ c ≠ '*' ∧ isLineBoundary c = false) := by
  rw [← Text.unlines_lines description] at member
  rcases Text.mem_unlines member with feed | ⟨line, among, inside⟩
  · exact .inl feed
  · rcases prose.each line among with rfl | plain
    · contradiction
    · exact .inr (plain.inner c inside)

/-- Nothing is removed from a description without tags whose lines end in text and whose outer lines
are not empty. -/
theorem descriptionLines_of_lines {description : Text} (unmarked : '@' ∉ description)
    (feeds : ∀ c ∈ description, isLineBoundary c = true → c = '\n')
    (final : ∃ c, description.getLast? = some c ∧ c ≠ '\n')
    (each : ∀ line ∈ Text.lines description, ∀ c ∈ line.getLast?, isSpace c = false)
    (first : ∀ line ∈ (Text.lines description).head?, line ≠ [])
    (last : ∀ line ∈ (Text.lines description).getLast?, line ≠ [])
    : descriptionLines description = Text.lines description := by
  have undefined : afterDefTag? description = none := by
    have unread : Text.after? "@def".toList (description.dropWhile isSpace) = none :=
      Text.after?_of_not_mem (c := '@') (by simp)
        fun member => unmarked ((List.dropWhile_suffix isSpace).subset member)
    rw [afterDefTag?, unread]
    rfl
  have unbrief : Text.replaceAll briefMarker? description = description := by
    refine Text.replaceAll_eq_self fun c later position => ?_
    have unread : Text.after? "@brief".toList (c :: later) = none :=
      Text.after?_of_not_mem (c := '@') (by simp) fun member => unmarked (position.subset member)
    rw [briefMarker?, unread, Option.map_none]
  obtain ⟨c, ends, other⟩ := final
  have split : Text.unicodeLines description = Text.lines description := by
    refine Text.unicodeLines_eq_lines feeds ?_ ?_
    · rintro rfl
      simp at ends
    · rw [ends]
      exact fun feed => other (Option.some.inj feed)
  have kept : (Text.lines description).map Text.trimEnd = Text.lines description := by
    refine (List.map_congr_left fun line member => ?_).trans (List.map_id _)
    cases ending : line.getLast? with
    | none =>
        obtain rfl := List.getLast?_eq_none_iff.mp ending
        rfl
    | some c => exact Text.dropEndWhile_of_last ending (each line member c ending)
  rw [descriptionLines, undefined, Option.getD_none, unbrief, split, kept]
  refine trimLines_of_ends (fun line outer => ?_) fun line outer => ?_
  · simpa using first line outer
  · simpa using last line outer

/-- Nothing of a plain description is stale. -/
theorem descriptionLines_of_paragraphs {description : Text}
    (prose : Paragraphs (Text.lines description))
    : descriptionLines description = Text.lines description := by
  obtain ⟨-, c, final, inside⟩ := prose.ends (Text.lines_ne_nil description)
  rw [Text.unlines_lines] at final
  refine descriptionLines_of_lines ?_ ?_ ⟨c, final, ?_⟩ ?_
    (fun line outer => (prose.first line outer).nonempty)
    fun line outer => (prose.last line outer).nonempty
  · intro member
    rcases paragraphs_inner prose member with feed | inner
    · exact absurd feed (by decide)
    · exact inner.1 rfl
  · intro d member boundary
    rcases paragraphs_inner prose member with feed | inner
    · exact feed
    · exact absurd (boundary.symm.trans inner.2.2) (by decide)
  · rintro rfl
    exact absurd inside (by decide)
  · intro line member
    rcases prose.each line member with rfl | plain
    · simp
    · exact plain.last

theorem paragraphs_shape {lines : List Text} (prose : Paragraphs lines) (gap : [] ∈ lines)
    : ∃ first third rest, lines = first :: [] :: third :: rest ∧ Plain first ∧ Plain third := by
  obtain ⟨second, third, found, plain⟩ := prose.split gap
  match lines, second, found with
  | first :: _ :: third :: rest, rfl, rfl =>
      exact ⟨first, third, rest, rfl, prose.first first rfl, plain⟩

/-- The text of a plain description stands behind the decoration line by line. -/
theorem expansion_descriptionPieces {declaration : Declaration}
    (prose : Prose declaration.description) (margin : Margin)
    : expansion (descriptionPieces margin declaration)
      = margin.continueLines (Text.lines declaration.description) := by
  rcases prose with empty | prose
  · have none : descriptionLines [] = [] := rfl
    have shown : Text.lines [] = [[]] := rfl
    simp [descriptionPieces, empty, none, shown, splitParagraph?, Margin.continueLines]
  · have lines := descriptionLines_of_paragraphs prose
    unfold descriptionPieces
    dsimp only
    rw [lines]
    split
    · next first rest found =>
      have gap : [] ∈ Text.lines declaration.description := by
        by_contra missing
        simp [splitParagraph?, missing] at found
      obtain ⟨line, third, later, shape, opening, plain⟩ := paragraphs_shape prose gap
      have parts : splitParagraph? (Text.lines declaration.description)
          = some ([line], third :: later) := by
        simp [splitParagraph?, shape, opening.nonempty, plain.nonempty]
      have same : ([line], third :: later) = (first, rest) := by
        split at found
        · exact Option.some.inj (parts.symm.trans found)
        · contradiction
      obtain ⟨rfl, rfl⟩ := Prod.mk.inj same
      simp [shape, Margin.continueLines, Margin.continuation, Margin.lead, plain.nonempty,
        opening.trim_eq, Text.unwords, Text.join]
    · simp

/-- What stands before a description whose declaration has no name tag. -/
theorem openingText_of_undefined {style : Style} {declaration : Declaration}
    (unnamed : declaration.isMacro = false ∨ style.emitMacroDef = false) (margin : Margin)
    : ∃ marker,
        (marker = [] ∨ marker = briefMarker)
          ∧ openingText style margin declaration
            = (if style.firstLineInline then [' '] else '\n' :: margin.lead) ++ marker := by
  have off : (declaration.isMacro && style.emitMacroDef) = false := by
    rcases unnamed with off | off <;> simp [off]
  refine ⟨if style.includeBrief then briefMarker else [], ?_, ?_⟩
  · cases style.includeBrief
    · exact .inl rfl
    · exact .inr rfl
  · have same : "@brief ".toList = briefMarker := by decide
    rw [openingText, off, if_neg Bool.false_ne_true, List.append_nil, same]

/-- A marked plain line holds neither stars nor breaks, and does not start with a blank. -/
theorem marked_inner {marker first : Text} (marked : marker = [] ∨ marker = briefMarker)
    (ordinary : first = [] ∨ Plain first)
    : '*' ∉ marker ++ first
      ∧ (∀ c ∈ marker ++ first, c ≠ '\r' ∧ c ≠ '\n')
      ∧ ∀ c, (marker ++ first).head? = some c → isBlank c = false := by
  have line : '*' ∉ first ∧ ∀ c ∈ first, c ≠ '\r' ∧ c ≠ '\n' := by
    rcases ordinary with rfl | plain
    · simp
    · exact ⟨plain.no_star, plain.no_break⟩
  rcases marked with rfl | rfl
  · refine ⟨by simpa using line.1, by simpa using line.2, fun c start => ?_⟩
    rcases ordinary with rfl | plain
    · simp at start
    · cases blank : isBlank c with
      | false => rfl
      | true => simpa [plain.first c start] using Text.isSpace_of_isBlank blank
  · refine ⟨?_, List.forall_mem_append.mpr ⟨by decide, line.2⟩, ?_⟩
    · rw [List.mem_append, not_or]
      exact ⟨by decide, line.1⟩
    · rintro c ⟨⟩
      decide

/-- Lines without tags and stars are searched without finding a segment. -/
theorem quiet_continueLines {style : Style} {indent : Text} {lines : List Text}
    (blanks : ∀ c ∈ indent, isBlank c = true) (each : ∀ line ∈ lines, '@' ∉ line ∧ '*' ∉ line)
    : Quiet ((Margin.ofStyle style indent).continueLines lines) := by
  refine Quiet.of_no_at ((Margin.closeless_continueLines_iff blanks).mpr fun line member => ?_)
    fun member => ?_
  · exact Closeless.of_no_star (each line member).2
  · rcases Margin.mem_continueLines blanks member with blank | star | feed | ⟨line, among, inside⟩
    · exact absurd blank (by decide)
    · exact absurd star (by decide)
    · exact absurd feed (by decide)
    · exact (each line among).1 inside

/-- A description without tags and stars is searched without finding a segment or the end of the
comment. -/
theorem quiet_lines {style : Style} {declaration : Declaration} {indent gap : Text}
    {lines : List Text} (blanks : ∀ c ∈ indent, isBlank c = true)
    (each : ∀ line ∈ lines, '@' ∉ line ∧ '*' ∉ line)
    (unnamed : declaration.isMacro = false ∨ style.emitMacroDef = false) (hollow : Hollow gap)
    : Quiet
        (openingText style (.ofStyle style indent) declaration
          ++ ((Margin.ofStyle style indent).continueLines lines ++ '\n' :: gap)) := by
  obtain ⟨marker, marked, opening⟩ := openingText_of_undefined unnamed (.ofStyle style indent)
  have lines := @quiet_continueLines style indent _ blanks each
  have feed : Quiet ['\n'] := Quiet.of_no_at (Closeless.of_no_star (by decide)) (by decide)
  have behind := lines.append (feed.append hollow.quiet (by simp)) (by simp)
  have margin : Hollow (if style.firstLineInline then [' ']
      else '\n' :: (Margin.ofStyle style indent).lead) := by
    split
    · exact Hollow.of_blanks (by decide)
    · have empty : Hollow [] := Hollow.of_blanks (by simp)
      exact empty.append_feed (Margin.hollow_lead blanks)
  have mark : Quiet marker ∧ marker.head? ≠ some '/' := by
    rcases marked with rfl | rfl
    · exact ⟨Quiet.of_no_at Closeless.nil (by simp), by simp⟩
    · exact ⟨Documentation.quiet_briefMarker, by decide⟩
  -- The description may start with a slash, so the opening must not end with a star.
  have last : ((if style.firstLineInline then [' ']
      else '\n' :: (Margin.ofStyle style indent).lead) ++ marker).getLast? = some ' ' := by
    obtain ⟨front, ends⟩ := Margin.lead_ofStyle style indent
    rcases marked with rfl | rfl
    · rw [List.append_nil]
      split
      · rfl
      · rw [ends, ← List.cons_append, List.getLast?_concat]
    · simp [briefMarker, List.getLast?_cons]
  rw [opening]
  refine (margin.quiet.append mark.1 fun joint => mark.2 joint.2).append behind fun joint => ?_
  rw [last] at joint
  exact absurd joint.1 (by decide)

/-- A plain description is searched without finding a segment or the end of the comment. -/
theorem quiet_written {style : Style} {declaration : Declaration} {indent gap : Text}
    (blanks : ∀ c ∈ indent, isBlank c = true) (prose : Prose declaration.description)
    (unnamed : declaration.isMacro = false ∨ style.emitMacroDef = false) (hollow : Hollow gap)
    : Quiet
        (openingText style (.ofStyle style indent) declaration
          ++ ((Margin.ofStyle style indent).continueLines (Text.lines declaration.description)
            ++ '\n' :: gap)) := by
  refine quiet_lines blanks (fun line member => ?_) unnamed hollow
  rcases prose.each line member with rfl | plain
  · simp
  · exact ⟨plain.no_at, plain.no_star⟩

/-- A plain description is read back from its block. -/
theorem descriptionOf_written {style : Style} {declaration : Declaration} {indent gap : Text}
    (blanks : ∀ c ∈ indent, isBlank c = true) (prose : Prose declaration.description)
    (unnamed : declaration.isMacro = false ∨ style.emitMacroDef = false)
    (short : style.firstLineInline = false ∨ (Text.lines declaration.description).length ≤ 1)
    (hollow : Hollow gap)
    : Documentation.descriptionOf
          (openingText style (.ofStyle style indent) declaration
            ++ ((Margin.ofStyle style indent).continueLines (Text.lines declaration.description)
              ++ '\n' :: gap))
      = declaration.description := by
  obtain ⟨marker, marked, opening⟩ := openingText_of_undefined unnamed (.ofStyle style indent)
  obtain ⟨first, rest, shape⟩ :=
    List.exists_cons_of_ne_nil (Text.lines_ne_nil declaration.description)
  have whole := Text.unlines_lines declaration.description
  have lines : first :: rest = [[]] ∨ Paragraphs (first :: rest) := by
    rw [← shape]
    exact prose.imp (fun empty => by rw [empty]; rfl) id
  have each := prose.each
  rw [shape, List.forall_mem_cons] at each
  obtain ⟨star, inner, start⟩ := marked_inner marked each.1
  rw [shape] at whole
  rw [opening, shape, Margin.continueLines]
  refine Eq.trans ?_ whole
  by_cases inline : style.firstLineInline = true
  · obtain rfl : rest = [] := by
      have size := short.resolve_left (by simp [inline])
      rw [shape] at size
      exact List.eq_nil_of_length_eq_zero (by simpa using size)
    have free : ∀ c ∈ ' ' :: (marker ++ first), c ≠ '\r' ∧ c ≠ '\n' :=
      List.forall_mem_cons.mpr ⟨by decide, inner⟩
    have undecorate : undecorated (' ' :: (marker ++ first)) = marker ++ first := by
      rw [Documentation.undecorated_of_no_star (by simpa using star)]
      exact @Text.dropWhile_run isBlank [' '] _ (by decide) start
    have shown : undecoratedLines (' ' :: (marker ++ first) ++ '\n' :: gap)
        = [] ++ (Text.trimEnd (marker ++ first) :: [] ++ undecoratedLines gap) := by
      rw [Documentation.undecoratedLines_append_feed fun member => (free _ member).1 rfl,
        Documentation.undecoratedLines_single free, undecorate]
      rfl
    rw [← Documentation.descriptionOf_shown marked shown (by simp) hollow.lines lines]
    simp [inline]
  · have block : style.firstLineInline = false := by simpa using inline
    obtain ⟨before, decoration, wider⟩ := @Margin.decoration_ofStyle style indent blanks
    have space : (Margin.ofStyle style indent).space = [' '] := by simp [Margin.ofStyle, block]
    have lead : (Margin.ofStyle style indent).lead = before ++ '*' :: [' '] := by
      rw [Margin.lead, decoration, space, List.append_assoc]
      rfl
    have free : ∀ c ∈ before ++ '*' :: ' ' :: (marker ++ first), c ≠ '\r' ∧ c ≠ '\n' := by
      refine List.forall_mem_append.mpr ⟨fun c member => ?_, ?_⟩
      · constructor <;> (rintro rfl; exact absurd (wider _ member) (by decide))
      · exact List.forall_mem_cons.mpr ⟨by decide, List.forall_mem_cons.mpr ⟨by decide, inner⟩⟩
    have reads : ∀ line ∈ rest, (Margin.ofStyle style indent).ReadsAs line (id line) :=
      fun line member => Margin.readsAs_plain blanks block (each.2 line member)
    have shown := Margin.undecoratedLines_continued reads free gap
    rw [Documentation.undecorated_star_blank wider (by decide), List.map_id] at shown
    have behind := @Documentation.undecoratedLines_append_feed [] (by simp)
      (before ++ '*' :: ' ' :: (marker ++ first)
        ++ (rest.flatMap (Margin.ofStyle style indent).continuation ++ '\n' :: gap))
    rw [shown] at behind
    rw [← Documentation.descriptionOf_shown marked behind (by decide) hollow.lines lines]
    simp [block, lead]

end DocBlock.Block
