import DocBlock.Proofs.Block.Regeneration

/-! The keyword of an undocumented return value. A style may choose any word for it, and a comment
written in that style is read back whole only where the word begins with a keyword that the reader
knows; any other tag is read as part of the text before it.
-/

namespace DocBlock.Block

open Documentation (Plain Hollow Tagged OpensSegment Returnless returnKeywords)
open Snippet (expansion)
open Text (isBlank isWord)

variable {style : Style} {declaration : Declaration} {indent : Text}

--------------------------------------------------------------------------------
-- Keywords
--------------------------------------------------------------------------------

/-- The keyword of a style holds neither a tag nor a star. -/
theorem keyword_inner (style : Style) : ∀ c ∈ style.returnKeyword, c ≠ '@' ∧ c ≠ '*' := by
  have valid := style.keyword_valid
  rw [isKeyword, Bool.and_eq_true, List.all_eq_true] at valid
  intro c member
  constructor <;> (rintro rfl; exact absurd (valid.2 _ member) (by decide +kernel))

/-- A keyword whose word is known opens a segment. -/
theorem opensSegment_keyword (known : style.returnKeyword.takeWhile isWord ∈ returnKeywords)
    : OpensSegment (style.returnKeyword ++ [' ']) := by
  have word := List.takeWhile_prefix (l := style.returnKeyword) isWord
  refine ⟨.inr ?_, ?_⟩
  · exact ((Documentation.returnKeyword_start known).trans word).trans (List.prefix_append _ _)
  · exact List.forall_mem_append.mpr ⟨keyword_inner style, by decide⟩

/-- The line of a known keyword is one return segment and holds no parameter. -/
theorem findAll_keywordLine (known : style.returnKeyword.takeWhile isWord ∈ returnKeywords)
    {text : Text} (tagged : Tagged [style.returnKeyword ++ [' ']] text)
    : Text.findAll Documentation.parameterSegment? text = []
      ∧ Text.findAll Documentation.returnSegment? text ≠ [] := by
  have outside : ∀ c, (style.returnKeyword.dropWhile isWord ++ [' ']).head? = some c
      → isWord c = false := by
    intro c first
    cases shape : style.returnKeyword.dropWhile isWord with
    | nil =>
        rw [shape] at first
        obtain rfl : ' ' = c := by simpa using first
        decide +kernel
    | cons d rest =>
        rw [shape] at first
        exact Text.head?_dropWhile (by rw [shape]; exact first)
  have split : style.returnKeyword ++ [' ']
      = style.returnKeyword.takeWhile isWord
        ++ (style.returnKeyword.dropWhile isWord ++ [' ']) := by
    rw [← List.append_assoc, List.takeWhile_append_dropWhile]
  rw [split] at tagged
  obtain ⟨gap, rest, -, behind, parameters, returns⟩ := tagged.findAll_keyword known outside
  rw [parameters, returns]
  exact ⟨behind.findAll_close.1, by simp⟩

--------------------------------------------------------------------------------
-- A tag that is not read
--------------------------------------------------------------------------------

/-- No return tag starts in lines of other tags, by induction on these. -/
theorem returnless_tagBlock (blanks : ∀ c ∈ indent, isBlank c = true) {tags : List Text}
    (others : ∀ tag ∈ tags, "param".toList <+: tag ∧ '@' ∉ tag)
    : Returnless ((Margin.ofStyle style indent).tagBlock tags) := by
  have decoration : Returnless (Margin.ofStyle style indent).decoration :=
    .of_no_at ((Margin.hollow_decoration blanks).not_mem (by decide))
  have lead : Returnless (Margin.ofStyle style indent).lead :=
    .of_no_at ((Margin.hollow_lead blanks).not_mem (by decide))
  have feed : Returnless ['\n'] := .of_no_at (by decide)
  have lines : Returnless (tags.flatMap (Margin.ofStyle style indent).tagLine) := by
    induction tags with
    | nil => exact .of_no_at (by simp)
    | cons tag tags ih =>
        rw [List.forall_mem_cons] at others
        obtain ⟨⟨⟨name, rfl⟩, absent⟩, later⟩ := others
        have line : Returnless ('@' :: ("param".toList ++ name)) :=
          Returnless.cons (by decide) (.of_no_at absent)
        have all := (lead.append line).append (feed.append (ih later))
        simpa [Margin.tagLine] using all
  have block := decoration.append (feed.append lines)
  simpa [Margin.tagBlock] using block

/-- No return tag starts before the return lines of a block. -/
theorem returnless_front (blanks : ∀ c ∈ indent, isBlank c = true)
    (prose : Prose declaration.description) (unnamed : declaration.isMacro = false)
    (legible : ∀ parameter ∈ declaration.parameters, LegibleParameter parameter)
    : Returnless
        ("/**".toList ++ openingText style (.ofStyle style indent) declaration
          ++ (Margin.ofStyle style indent).continueLines (Text.lines declaration.description)
          ++ '\n'
            :: if declaration.parameters.isEmpty then []
              else
                (Margin.ofStyle style indent).tagBlock
                  (declaration.parameters.map
                    (parameterTag (nameWidth style declaration.parameters)))) := by
  have opening : Returnless "/**".toList := .of_no_at (by decide)
  have empty : Hollow [] := Hollow.of_blanks (by simp)
  have body :=
    (@quiet_written style declaration indent [] blanks prose (.inl unnamed) empty).returnless
  have tags : Returnless (if declaration.parameters.isEmpty then []
      else
        (Margin.ofStyle style indent).tagBlock
          (declaration.parameters.map
            (parameterTag (nameWidth style declaration.parameters)))) := by
    split
    · exact .of_no_at (by simp)
    · apply returnless_tagBlock blanks
      intro tag member
      obtain ⟨parameter, among, rfl⟩ := List.mem_map.mp member
      have line := (legible parameter among).opensSegment (nameWidth style declaration.parameters)
      refine ⟨?_, fun mark => (line.inner _ mark).1 rfl⟩
      rw [(legible parameter among).parameterTag_eq]
      exact List.prefix_append _ _
  have whole := (opening.append body).append tags
  simpa using whole

/-- A comment under a keyword that is not known shows no return value. -/
theorem findAll_unknown (blanks : ∀ c ∈ indent, isBlank c = true)
    (prose : Prose declaration.description) (unnamed : declaration.isMacro = false)
    (legible : ∀ parameter ∈ declaration.parameters, LegibleParameter parameter)
    (returns : declaration.returns = true) (undescribed : declaration.returnDescriptions = [])
    (unknown : style.returnKeyword.takeWhile isWord ∉ returnKeywords)
    : Text.findAll Documentation.returnSegment? (expansion (snippet style indent [] declaration))
      = [] := by
  have front := @returnless_front style declaration indent blanks prose unnamed legible
  have margin : Returnless
      ((Margin.ofStyle style indent).decoration
        ++ '\n' :: (Margin.ofStyle style indent).lead) := by
    have decoration : Returnless (Margin.ofStyle style indent).decoration :=
      .of_no_at ((Margin.hollow_decoration blanks).not_mem (by decide))
    have feed : '@' ∉ '\n' :: (Margin.ofStyle style indent).lead := by
      simpa using (Margin.hollow_lead blanks).not_mem (by decide)
    exact decoration.append (.of_no_at feed)
  have tag : Documentation.returnSegment?
      ('@' :: (style.returnKeyword ++ ' ' :: '\n' :: (indent ++ " */".toList))) = none := by
    apply Documentation.returnSegment?_of_unknown
    rwa [Text.takeWhile_append_stop (by decide +kernel)]
  have behind : Returnless (style.returnKeyword ++ ' ' :: '\n' :: (indent ++ " */".toList)) := by
    refine .of_no_at fun mark => ?_
    have indented : '@' ∉ indent := fun member => absurd (blanks _ member) (by decide)
    have free : '@' ∉ style.returnKeyword := fun member => (keyword_inner style _ member).1 rfl
    simp [free, indented] at mark
  have whole : expansion (snippet style indent [] declaration)
      = "/**".toList ++ openingText style (.ofStyle style indent) declaration
          ++ (Margin.ofStyle style indent).continueLines (Text.lines declaration.description)
          ++ '\n'
            :: (if declaration.parameters.isEmpty then []
              else
                (Margin.ofStyle style indent).tagBlock
                  (declaration.parameters.map
                    (parameterTag (nameWidth style declaration.parameters))))
        ++ ((Margin.ofStyle style indent).decoration
            ++ '\n' :: (Margin.ofStyle style indent).lead
          ++ '@' :: (style.returnKeyword ++ ' ' :: '\n' :: (indent ++ " */".toList))) := by
    rw [expansion_snippet, expansion_descriptionPieces prose]
    simp [tagText, returns, undescribed, returnTags, Margin.tagBlock, Margin.tagLine]
  have last := @Returnless.findAll_returnSegment? _ [] behind
  rw [List.append_nil] at last
  rw [whole, front.findAll_returnSegment?, margin.findAll_returnSegment?,
    Text.findAll_cons_of_none tag, last]
  rfl

--------------------------------------------------------------------------------
-- Reading a comment back
--------------------------------------------------------------------------------

/-- The comment of a function whose return value has no description is read back with its return
value, its description and those of its parameters exactly if the keyword of the style, up to the
first character that is not part of a word, is one that the reader knows. Witness: under any other
keyword no return segment starts in the comment at all.
-/
theorem keyword_read_back_iff (returns : declaration.returns = true)
    (unnamed : declaration.isMacro = false) (undescribed : declaration.returnDescriptions = [])
    (plain : declaration.description = [] ∨ Plain declaration.description)
    (legible : ∀ parameter ∈ declaration.parameters, LegibleParameter parameter)
    (blanks : ∀ c ∈ indent, isBlank c = true) (keepDirection : Bool)
    : ((reread style keepDirection indent declaration).returns = true
        ∧ (reread style keepDirection indent declaration).description = declaration.description
        ∧ (reread style keepDirection indent declaration).parameters.map (·.description)
          = declaration.parameters.map (·.description))
      ↔ style.returnKeyword.takeWhile isWord ∈ returnKeywords := by
  have line : Text.lines declaration.description = [declaration.description] := by
    apply Text.lines_single
    rcases plain with empty | plain
    · simp [empty]
    · exact fun feed => (plain.no_break _ feed).2 rfl
  have prose : Prose declaration.description := by
    refine plain.imp id fun plain => ?_
    rw [line]
    refine ⟨?_, ?_, ?_, ?_⟩
    · simpa using .inr plain
    · simpa using plain
    · simpa using plain
    · simpa using Ne.symm plain.nonempty
  rw [reread, expand_snippet]
  constructor
  · rintro ⟨shown, -⟩
    by_contra unknown
    have none := findAll_unknown blanks prose unnamed legible returns undescribed unknown
    simp [Documentation.read, none] at shown
  · intro known
    have tags : [style.returnKeyword ++ [' ']]
        = if declaration.returns then returnTags style declaration.returnDescriptions else [] := by
      simp [returns, undescribed, returnTags]
    obtain ⟨later, behind, read⟩ := @read_block style declaration indent blanks prose (.inl unnamed)
      (.inr (by simp [line])) legible _ tags
      (List.forall_mem_singleton.mpr (opensSegment_keyword known))
      (fun rest tagged => (findAll_keywordLine known tagged).1) keepDirection
    rw [read]
    refine ⟨?_, rfl, ?_⟩
    · simpa using (findAll_keywordLine known behind).2
    · have each :=
        congrArg (List.map (·.description)) (List.zipIdx_map_fst 0 declaration.parameters)
      rw [List.map_map] at each ⊢
      exact each

/-- A function with a described parameter and a return value that is not described. -/
def returningCount : Declaration :=
  {
    name := "count".toList
    returns := true
    description := "Count the words.".toList
    parameters :=
      [
        {
          name := "text".toList
          direction := some "in".toList
          description := "the text".toList
        }
      ]
  }

/-- The style that writes return values under a keyword. -/
def keywordStyle (keyword : Text) (valid : isKeyword keyword = true) : Style :=
  { Style.default with returnKeyword := keyword, keyword_valid := valid }

/-- Under the keyword `retval` the comment of the function is read back. -/
theorem keyword_read_back_retval
    : (reread (keywordStyle "retval".toList (by decide +kernel)) true [] returningCount).returns
        = true
      ∧ "retval".toList.takeWhile isWord ∈ returnKeywords := by
  have known : "retval".toList.takeWhile isWord ∈ returnKeywords := by decide +kernel
  have legible : ∀ parameter ∈ returningCount.parameters, LegibleParameter parameter := by
    simp only [returningCount, List.forall_mem_singleton]
    refine ⟨by decide +kernel, by decide, ?_⟩
    rintro text ⟨⟩
    decide
  have read := @keyword_read_back_iff (keywordStyle "retval".toList (by decide +kernel))
    returningCount [] rfl rfl rfl (by decide) legible (by simp) true
  exact ⟨(read.mpr known).1, known⟩

/-- Under the keyword `result` the tag is read as part of the description of the last parameter, and
the function seems to return nothing. -/
theorem keyword_moves_into_parameter
    : let comment :=
        reread (keywordStyle "result".toList (by decide +kernel)) true [] returningCount
      comment.returns = false
      ∧ comment.parameters.map (·.description) = ["the text @result".toList]
      ∧ returningCount.parameters.map (·.description) = ["the text".toList] := by
  decide +kernel

end DocBlock.Block
