import DocBlock.Proofs.Block.Fields
import DocBlock.Proofs.Comment.Words
import DocBlock.Proofs.Declaration.Filling
import DocBlock.Proofs.Signature.Names

/-! What becomes of the words of a comment when it is regenerated for its function. A word of the
description, of a parameter or of a return description is shown again, with two exceptions: the name
behind a leading `@def`, and the word in which a parameter is named, if it goes on behind the name.
Of the other parts behind the description nothing is kept.
-/

namespace DocBlock.Block

open Documentation (Ordinary comment tagParts descriptionSource laterParts readParts unreadParts
  isRead parameterPart? returnPart? parameterOf? namedWord)
open Snippet (expansion)
open Text (isSpace isWord words)

variable {word part : Text}

--------------------------------------------------------------------------------
-- Words of a description
--------------------------------------------------------------------------------

/-- The name behind a leading `@def`. -/
def definedName? (description : Text) : Option Text :=
  (Text.after? "@def".toList (description.dropWhile isSpace)).map fun rest =>
    (rest.dropWhile isSpace).takeWhile (!isSpace ·)

/-- A word without tags stays when the marker of a macro is removed, unless it is the name behind
the marker. -/
theorem mem_words_afterDefTag {description : Text} (member : word ∈ words description)
    (mark : '@' ∉ word)
    : definedName? description = some word
      ∨ word ∈ words ((afterDefTag? description).getD description) := by
  have unspaced := Text.unspaced_of_mem_words member
  have start := Text.mem_words_dropWhile member unspaced
  unfold definedName? afterDefTag?
  cases found : Text.after? "@def".toList (description.dropWhile isSpace) with
  | none => exact .inr (by simpa using member)
  | some rest =>
      have behind :=
        @Text.mem_words_after? word "def".toList _ rest '@' found start (by decide) mark
      have trimmed := Text.mem_words_dropWhile behind unspaced
      have some : (rest.dropWhile isSpace).isEmpty = false := by
        simpa using Text.ne_nil_of_mem_words trimmed
      simp only [Option.map_some, Option.bind_eq_bind, Option.bind_some, some]
      rcases Text.mem_words_first trimmed with named | later
      · exact .inl (by rw [named])
      · exact .inr (by simpa using Text.mem_words_dropWhile later unspaced)

/-- A word without tags stays when markers are removed. Witness: induction on the length of the
text; what is passed over at a marker holds no part of the word.
-/
theorem isInfix_unmarked {text : Text} (member : word ∈ words text) (mark : '@' ∉ word)
    : word <:+: Text.replaceAll briefMarker? text := by
  induction size : text.length using Nat.strong_induction_on generalizing text with
  | _ n ih =>
      cases text with
      | nil => simp at member
      | cons c rest =>
          cases found : Text.after? "@brief".toList (c :: rest) with
          | none =>
              have read : briefMarker? (c :: rest) = none := by rw [briefMarker?, found]; rfl
              rcases Text.mem_words_cons member with ⟨behind, whole⟩ | later
              · rw [← whole, Text.replaceAll_append]
                · exact (List.prefix_append _ _).isInfix
                · intro d more position
                  have other : d ≠ '@' := by
                    rintro rfl
                    exact mark (position.subset List.mem_cons_self)
                  rw [List.cons_append, briefMarker?]
                  simp [Text.after?_cons_of_ne other]
              · rw [Text.replaceAll_cons_of_none read]
                exact (ih rest.length (by simp [← size]) later rfl).trans
                  (List.suffix_cons c _).isInfix
          | some behind =>
              have whole := Text.after?_eq_some_iff.mp found
              have read : briefMarker? (c :: rest) = some ([], behind.dropWhile isSpace) := by
                rw [briefMarker?, found]
                rfl
              have shape : c :: rest
                  = "@brief".toList ++ behind.takeWhile isSpace ++ behind.dropWhile isSpace := by
                rw [List.append_assoc, List.takeWhile_append_dropWhile, whole]
              have inner := @Text.mem_words_after? word "brief".toList _ behind '@' found member
                (by decide) mark
              have later := Text.mem_words_dropWhile inner (Text.unspaced_of_mem_words inner)
              rw [shape] at read size
              rw [shape, Text.replaceAll_of_some read (by simp), List.nil_append]
              refine ih _ ?_ later rfl
              rw [← size, List.length_append]
              simp

/-- A word without tags is shown in a line of the description, unless it is the name behind a
leading `@def`. -/
theorem isInfix_descriptionLines {description : Text} (member : word ∈ words description)
    (mark : '@' ∉ word)
    : definedName? description = some word
      ∨ ∃ line ∈ descriptionLines description, word <:+: line := by
  refine (mem_words_afterDefTag member mark).imp_right fun kept => ?_
  obtain ⟨nonempty, unspaced, -⟩ := Text.mem_words_iff.mp member
  obtain ⟨whole, among, inside⟩ :=
    Text.exists_word_of_isInfix nonempty unspaced (isInfix_unmarked kept mark)
  rw [Text.words_unicodeLines, List.mem_flatMap] at among
  obtain ⟨line, source, shown⟩ := among
  have trimmed : word <:+: Text.trimEnd line :=
    Text.isInfix_dropEndWhile nonempty (inside.trans (Text.isInfix_of_mem_words shown)) unspaced
  refine ⟨Text.trimEnd line, Text.mem_trimLines (List.mem_map_of_mem source) ?_, trimmed⟩
  simpa using trimmed.ne_nil nonempty

theorem isInfix_continueLines {margin : Margin} {lines : List Text} {line : Text}
    (member : line ∈ lines)
    : line <:+: margin.continueLines lines := by
  cases lines with
  | nil => contradiction
  | cons first rest =>
      rw [Margin.continueLines]
      rcases List.mem_cons.mp member with rfl | later
      · exact (List.prefix_append _ _).isInfix
      · have shown : line <:+: margin.continuation line := by
          unfold Margin.continuation
          split
          · next empty =>
            obtain rfl := List.isEmpty_iff.mp empty
            exact List.nil_infix
          · exact (List.suffix_append _ _).isInfix
        exact shown.trans ((Text.isInfix_flatMap later).trans (List.suffix_append _ _).isInfix)

/-- A line that is not empty stays in one of the paragraphs. -/
theorem mem_splitParagraph {lines first rest : List Text} {line : Text}
    (split : splitParagraph? lines = some (first, rest)) (member : line ∈ lines)
    (shown : line.isEmpty = false)
    : line ∈ first ∨ line ∈ rest := by
  unfold splitParagraph? at split
  obtain ⟨-, parts⟩ := Option.ite_none_right_eq_some.mp split
  obtain ⟨rfl, rfl⟩ := Prod.mk.inj (Option.some.inj parts)
  rw [← @List.takeWhile_append_dropWhile _ (!List.isEmpty ·) lines, List.mem_append] at member
  exact member.imp_right fun later => Text.mem_dropWhile later shown

/-- What a line of the description shows is shown in the block. -/
theorem isInfix_descriptionText {margin : Margin} {declaration : Declaration} {line : Text}
    (member : line ∈ descriptionLines declaration.description) (nonempty : part ≠ [])
    (unspaced : ∀ c ∈ part, isSpace c = false) (inside : part <:+: line)
    : part <:+: descriptionText margin declaration := by
  unfold descriptionText
  dsimp only
  split
  · next first rest found =>
    have split : splitParagraph? (descriptionLines declaration.description)
        = some (first, rest) := by
      split at found
      · exact found
      · contradiction
    have shown : line.isEmpty = false := by simpa using inside.ne_nil nonempty
    rcases mem_splitParagraph split member shown with earlier | later
    · have trimmed : part <:+: Text.trim line := Text.isInfix_trimBy nonempty inside unspaced
      have joined := trimmed.trans
        (@Text.isInfix_join _ [' '] _ (List.mem_map_of_mem earlier))
      rw [List.append_assoc, List.append_assoc]
      exact joined.trans (List.prefix_append _ _).isInfix
    · exact inside.trans ((isInfix_continueLines later).trans (List.suffix_append _ _).isInfix)
  · exact inside.trans (isInfix_continueLines member)

--------------------------------------------------------------------------------
-- What a block shows
--------------------------------------------------------------------------------

section Shown

variable {style : Style} {indent lead : Text} {declaration : Declaration}

/-- What the description shows is shown in the block. -/
theorem isInfix_of_description
    (inside : part <:+: descriptionText (.ofStyle style indent) declaration)
    : part <:+: expansion (snippet style indent lead declaration) := by
  rw [expansion_snippet, expansion_description]
  exact inside.trans ⟨lead ++ "/**".toList ++ openingText style (.ofStyle style indent) declaration,
    '\n' :: tagText style (.ofStyle style indent) declaration ++ indent ++ " */".toList, by simp⟩

theorem isInfix_of_tagText
    (inside : part <:+: tagText style (.ofStyle style indent) declaration)
    : part <:+: expansion (snippet style indent lead declaration) := by
  rw [expansion_snippet]
  exact inside.trans ⟨lead ++ "/**".toList ++ openingText style (.ofStyle style indent) declaration
    ++ expansion (descriptionPieces (.ofStyle style indent) declaration) ++ ['\n'],
    indent ++ " */".toList, by simp⟩

theorem isInfix_tagBlock {margin : Margin} {tags : List Text} {tag : Text} (member : tag ∈ tags)
    : tag <:+: margin.tagBlock tags := by
  have line : tag <:+: margin.tagLine tag :=
    ⟨margin.lead ++ ['@'], ['\n'], by simp [Margin.tagLine]⟩
  have whole := line.trans (@Text.isInfix_flatMap _ margin.tagLine _ _ member)
  exact whole.trans ⟨margin.decoration ++ ['\n'], [], by simp [Margin.tagBlock]⟩

/-- What the line of a parameter shows is shown in the block. -/
theorem isInfix_of_parameter {parameter : Parameter} (member : parameter ∈ declaration.parameters)
    (inside : part <:+: parameterTag (nameWidth style declaration.parameters) parameter)
    : part <:+: expansion (snippet style indent lead declaration) := by
  apply isInfix_of_tagText
  have some : declaration.parameters.isEmpty = false := by
    simpa using List.ne_nil_of_mem member
  have line := inside.trans (@isInfix_tagBlock (.ofStyle style indent) _ _
    (List.mem_map_of_mem member))
  rw [tagText, some]
  exact line.trans (List.prefix_append _ _).isInfix

/-- What the line of a return description shows is shown in the block. -/
theorem isInfix_of_return {description tag : Text} (returns : declaration.returns = true)
    (member : description ∈ declaration.returnDescriptions)
    (shown : returnTag? description = some tag) (inside : part <:+: tag)
    : part <:+: expansion (snippet style indent lead declaration) := by
  apply isInfix_of_tagText
  have some : declaration.returnDescriptions.isEmpty = false := by
    simpa using List.ne_nil_of_mem member
  have among : tag ∈ returnTags style declaration.returnDescriptions := by
    rw [returnTags, some]
    exact List.mem_filterMap.mpr ⟨description, member, shown⟩
  rw [tagText, returns]
  exact inside.trans ((isInfix_tagBlock among).trans (List.suffix_append _ _).isInfix)

end Shown

--------------------------------------------------------------------------------
-- What merging keeps
--------------------------------------------------------------------------------

/-- A declaration without any text of its own. -/
structure Undescribed (declaration : Declaration) : Prop where
  description : declaration.description = []
  returnDescriptions : declaration.returnDescriptions = []
  parameters : ∀ parameter ∈ declaration.parameters, parameter.description = []

theorem undescribed_of_lastFunction {text : Text} {function : Declaration}
    (found : Signature.lastFunction? true text = some function)
    : Undescribed function := by
  obtain ⟨prototype, -, rfl⟩ := Option.map_eq_some_iff.mp found
  refine ⟨rfl, rfl, fun parameter member => ?_⟩
  obtain ⟨name, type, index, rfl, -⟩ := Signature.Prototype.exists_declared member
  rfl

section Merged

variable {style : Style} {indent lead : Text} {declaration documentation : Declaration}

/-- A word of the documented description is shown again, unless it is the name behind a leading
`@def`. -/
theorem isInfix_merged_description (undescribed : Undescribed declaration)
    (member : word ∈ words documentation.description) (mark : '@' ∉ word)
    : definedName? documentation.description = some word
      ∨ word <:+: expansion
          (snippet style indent lead (Declaration.merge true declaration documentation)) := by
  refine (isInfix_descriptionLines member mark).imp_right fun ⟨line, among, inside⟩ => ?_
  obtain ⟨nonempty, unspaced, -⟩ := Text.mem_words_iff.mp member
  have text : (Declaration.merge true declaration documentation).description
      = documentation.description := by
    simp [Declaration.merge, undescribed.description, Declaration.orElse]
  rw [← text] at among
  exact isInfix_of_description (isInfix_descriptionText among nonempty unspaced inside)

/-- Where the documented names differ, what is documented about a declared parameter is shown
again. -/
theorem isInfix_merged_parameter (undescribed : Undescribed declaration) {donor : Parameter}
    (distinct : (documentation.parameters.map (·.name)).Nodup)
    (present : donor ∈ documentation.parameters)
    (known : ∃ parameter ∈ declaration.parameters, parameter.name = donor.name)
    (nonempty : word ≠ []) (unspaced : ∀ c ∈ word, isSpace c = false)
    (inside : (∃ direction ∈ donor.direction, word <:+: direction)
      ∨ word <:+: donor.description
      ∨ word = donor.name)
    : word <:+: expansion
        (snippet style indent lead (Declaration.merge true declaration documentation)) := by
  obtain ⟨parameter, own, named, member⟩ :=
    @Declaration.exists_filled_of_name true _ _ _ distinct present known
  refine isInfix_of_parameter member ?_
  have description : (Declaration.fill true donor parameter).description
      = donor.description := by
    simp [Declaration.fill, Declaration.orElse, undescribed.parameters parameter own]
  have name : (Declaration.fill true donor parameter).name = donor.name := named
  have direction : (Declaration.fill true donor parameter).direction = donor.direction := rfl
  generalize Declaration.fill true donor parameter = filled at description name direction
  rw [parameterTag, description, name]
  generalize List.replicate _ ' ' = padding
  rcases inside with ⟨text, shown, inside⟩ | inside | rfl
  · have some : text.isEmpty = false := by simpa using inside.ne_nil nonempty
    have brackets : directionText filled = '[' :: text ++ [']'] := by
      simp [directionText, direction, Option.mem_def.mp shown, some]
    rw [brackets]
    exact inside.trans ⟨parameterKeyword ++ ['['],
      ']' :: ' ' :: donor.name ++ ' ' :: padding ++ Text.trim donor.description, by simp⟩
  · exact (Text.isInfix_trimBy nonempty inside unspaced).trans (List.suffix_append _ _).isInfix
  · exact ⟨parameterKeyword ++ directionText filled ++ [' '],
      ' ' :: padding ++ Text.trim donor.description, by simp⟩

/-- What is documented about the result of a function that returns is shown again. -/
theorem isInfix_merged_return (undescribed : Undescribed declaration)
    (returns : declaration.returns = true) {keyword body : Text}
    (known : keyword ∈ Documentation.returnKeywords)
    (member : keyword ++ ' ' :: body ∈ documentation.returnDescriptions)
    (nonempty : word ≠ []) (unspaced : ∀ c ∈ word, isSpace c = false) (inside : word <:+: body)
    : word <:+: expansion
        (snippet style indent lead (Declaration.merge true declaration documentation)) := by
  have kept : (Declaration.merge true declaration documentation).returnDescriptions
      = documentation.returnDescriptions := by
    simp [Declaration.merge, undescribed.returnDescriptions, returns]
  have text := (Text.isInfix_dropWhile nonempty inside unspaced).ne_nil nonempty
  have tag := returnTag?_of_text (Documentation.returnKeyword_word known).1
    (Documentation.returnKeyword_unspaced known) text
  rw [← kept] at member
  refine isInfix_of_return (by simp [Declaration.merge, returns]) member tag ?_
  exact inside.trans ⟨keyword ++ [' '], [], by simp⟩

end Merged

--------------------------------------------------------------------------------
-- Regenerating
--------------------------------------------------------------------------------

/-- The parameter segments of a comment. -/
def parameterSegments (body : Text) : List Text :=
  (tagParts body).filterMap parameterPart?

/-- The name under which a segment documents a parameter. -/
def documentedName? (segment : Text) : Option Text :=
  (parameterOf? true segment 0).map (·.name)

/-- The tags of a comment fit a declaration: every parameter tag names one of its parameters, none
twice, and there is a return tag only if it returns. -/
structure Fits (declaration : Declaration) (body : Text) : Prop where
  named : ∀ segment ∈ parameterSegments body,
    ∃ parameter ∈ declaration.parameters, documentedName? segment = some parameter.name
  once : ((parameterSegments body).filterMap documentedName?).Nodup
  returns : (tagParts body).filterMap returnPart? ≠ [] → declaration.returns = true

instance (declaration : Declaration) (body : Text) : Decidable (Fits declaration body) :=
  decidable_of_iff
    ((∀ segment ∈ parameterSegments body,
        ∃ parameter ∈ declaration.parameters, documentedName? segment = some parameter.name)
      ∧ ((parameterSegments body).filterMap documentedName?).Nodup
      ∧ ((tagParts body).filterMap returnPart? ≠ [] → declaration.returns = true))
    ⟨fun ⟨named, once, returns⟩ => ⟨named, once, returns⟩,
      fun ⟨named, once, returns⟩ => ⟨named, once, returns⟩⟩

/-- The comment of a declaration, written again with what it said. -/
def regenerated (declaration : Declaration) (body : Text) : Text :=
  Snippet.expand
    (snippet .default declaration.indent []
      (Declaration.merge true declaration (Documentation.read true (comment body)))).render

theorem documentedName?_eq (segment : Text) (index : Nat)
    : (parameterOf? true segment index).map (·.name) = documentedName? segment := by
  rw [documentedName?, Documentation.parameterOf?_eq, Documentation.parameterOf?_eq,
    Option.map_map, Option.map_map]
  rfl

/-- The names of the documented parameters are those of the segments. -/
theorem names_segments (segments : List Text)
    : (segments.zipIdx.filterMap fun (segment, index) => parameterOf? true segment index).map
          (·.name)
      = segments.filterMap documentedName? := by
  rw [List.map_filterMap]
  simp only [documentedName?_eq]
  conv_rhs => rw [← List.zipIdx_map_fst 0 segments, List.filterMap_map]
  rfl

section Reading

variable {declaration : Declaration} {body : Text}

/-- A parameter tag of a comment that fits is followed by some text. -/
theorem Fits.tagParts_ne (fits : Fits declaration body)
    : ∀ part ∈ tagParts body, part ≠ "@param".toList := by
  rintro _ member rfl
  obtain ⟨parameter, -, named⟩ := fits.named []
    (List.mem_filterMap.mpr ⟨_, member, by decide⟩)
  have none : documentedName? [] = none := by decide
  rw [none] at named
  contradiction

/-- A word of prose stands in the text of the description, in a part that is read or in one that is
not. -/
theorem word_cases (member : word ∈ words body) (mark : '@' ∉ word)
    : word ∈ words (descriptionSource body)
      ∨ (∃ part ∈ readParts body, word ∈ words part)
      ∨ ∃ part ∈ unreadParts body, word ∈ words part := by
  rw [← Documentation.descriptionSource_append body] at member
  obtain ⟨part, among, inside⟩ := Documentation.exists_part_of_mem_words
    (Documentation.tagged_laterParts body) member mark
  rcases List.mem_cons.mp among with rfl | later
  · exact .inl inside
  · by_cases reads : isRead part = true
    · exact .inr (.inl ⟨part, List.mem_filter.mpr ⟨later, reads⟩, inside⟩)
    · exact .inr (.inr ⟨part, List.mem_filter.mpr ⟨later, by simpa using reads⟩, inside⟩)

/-- Where a word of prose stands that is not kept: in a part from which nothing is read, as the word
that names a parameter and goes on behind the name, or as the name behind a leading `@def`. -/
inductive Unkept (body word : Text) : Prop where
  | unread (part : Text) (member : part ∈ unreadParts body) (inside : word ∈ words part)
  | named (segment : Text) (member : segment ∈ parameterSegments body)
    (same : word = namedWord segment) (longer : documentedName? segment ≠ some word)
  | defined (same : definedName? (Documentation.descriptionOf (descriptionSource body)) = some word)

/-- Every segment that names a parameter documents it. -/
theorem exists_documented {segments : List Text} {segment name : Text} (member : segment ∈ segments)
    (named : documentedName? segment = some name)
    : ∃ index,
        ∃ donor ∈ segments.zipIdx.filterMap fun (segment, index) =>
            parameterOf? true segment index,
          parameterOf? true segment index = some donor ∧ donor.name = name := by
  obtain ⟨index, stands⟩ := List.mem_iff_getElem?.mp member
  rw [← documentedName?_eq segment index] at named
  obtain ⟨donor, read, rfl⟩ := Option.map_eq_some_iff.mp named
  exact ⟨index, donor,
    List.mem_filterMap.mpr ⟨(segment, index), List.mem_zipIdx_iff_getElem?.mpr stands, read⟩,
    read, rfl⟩

/-- A word of prose in a part that is read is shown again, unless it is the word that names a
parameter. -/
theorem isInfix_of_readPart {style : Style} {indent lead : Text} {documentation : Declaration}
    (undescribed : Undescribed declaration) (fits : Fits declaration body)
    (parameters : documentation.parameters
      = (parameterSegments body).zipIdx.filterMap fun (segment, index) =>
        parameterOf? true segment index)
    (returns : documentation.returnDescriptions = (tagParts body).filterMap returnPart?)
    (among : part ∈ readParts body) (member : word ∈ words part) (ordinary : Ordinary word)
    : word <:+: expansion
          (snippet style indent lead (Declaration.merge true declaration documentation))
      ∨ Unkept body word := by
  obtain ⟨nonempty, unspaced, -⟩ := Text.mem_words_iff.mp member
  obtain ⟨tag, reads⟩ := Documentation.mem_readParts.mp among
  rw [isRead, Bool.or_eq_true, Option.isSome_iff_exists, Option.isSome_iff_exists] at reads
  rcases reads with ⟨segment, found⟩ | ⟨description, found⟩
  · have listed : segment ∈ parameterSegments body := List.mem_filterMap.mpr ⟨part, tag, found⟩
    rw [Text.after?_eq_some_iff.mp found] at member
    obtain ⟨parameter, own, named⟩ := fits.named segment listed
    obtain ⟨index, donor, present, read, same⟩ := exists_documented listed named
    rw [← parameters] at present
    have distinct : (documentation.parameters.map (·.name)).Nodup := by
      rw [parameters, names_segments]
      exact fits.once
    have kept := @isInfix_merged_parameter word style indent lead _ _ undescribed donor distinct
      present ⟨parameter, own, same.symm⟩ nonempty unspaced
    rcases Documentation.word_of_parameterPart read member ordinary with shown | shown | first
    · exact .inl (kept (.inl shown))
    · exact .inl (kept (.inr (.inl shown)))
    · by_cases whole : documentedName? segment = some word
      · have name : word = donor.name := by
          rw [same]
          exact Option.some.inj (whole.symm.trans named)
        exact .inl (kept (.inr (.inr name)))
      · exact .inr (.named segment listed first whole)
  · have listed : description ∈ (tagParts body).filterMap returnPart? :=
      List.mem_filterMap.mpr ⟨part, tag, found⟩
    have result := fits.returns (List.ne_nil_of_mem listed)
    obtain ⟨keyword, known, text, rfl, shown⟩ :=
      Documentation.word_of_returnPart found member ordinary
    rw [← returns] at listed
    exact .inl (isInfix_merged_return undescribed result known listed nonempty unspaced shown)

/-- Comments with the same description and the same parts that are read say the same. -/
theorem Fits.read_congr (fits : Fits declaration body) {other : Text}
    (source : descriptionSource other = descriptionSource body)
    (parts : readParts other = readParts body)
    : Documentation.read true (comment other) = Documentation.read true (comment body) := by
  have named : ∀ part ∈ tagParts other, part ≠ "@param".toList := by
    rintro _ member rfl
    have reads : isRead "@param".toList = true := by decide
    have same := Documentation.mem_readParts.mpr ⟨member, reads⟩
    rw [parts] at same
    exact fits.tagParts_ne _ (Documentation.mem_readParts.mp same).1 rfl
  have parameters (part : Text) (unread : isRead part = false) : parameterPart? part = none := by
    rw [isRead, Bool.or_eq_false_iff] at unread
    simpa using unread.1
  have returns (part : Text) (unread : isRead part = false) : returnPart? part = none := by
    rw [isRead, Bool.or_eq_false_iff] at unread
    simpa using unread.2
  rw [Documentation.read_comment named, Documentation.read_comment fits.tagParts_ne, source,
    Documentation.filterMap_readParts parameters, Documentation.filterMap_readParts parameters,
    Documentation.filterMap_readParts returns, Documentation.filterMap_readParts returns, parts]

end Reading

/-- A word of prose in a comment that fits its function is shown in the regenerated comment, unless
it stands where words are not kept; and the parts from which nothing is read leave no trace: without
them, or with others in their place, the regenerated comment is the same.
-/
theorem prose_kept {text body : Text} {function : Declaration}
    (found : Signature.lastFunction? true text = some function) (fits : Fits function body)
    : (∀ word ∈ words body, Ordinary word
        → word <:+: regenerated function body ∨ Unkept body word)
      ∧ ∀ other, descriptionSource other = descriptionSource body
        → readParts other = readParts body
        → regenerated function other = regenerated function body := by
  have undescribed := undescribed_of_lastFunction found
  constructor
  · intro word member ordinary
    have read := Documentation.read_comment fits.tagParts_ne true
    rw [regenerated, expand_snippet]
    generalize Documentation.read true (comment body) = documentation at read
    have description : documentation.description
        = Documentation.descriptionOf (descriptionSource body) := by rw [read]
    have parameters : documentation.parameters
        = (parameterSegments body).zipIdx.filterMap fun (segment, index) =>
          parameterOf? true segment index := by rw [read]; rfl
    have returns : documentation.returnDescriptions
        = (tagParts body).filterMap returnPart? := by rw [read]
    rcases word_cases member ordinary.mark
      with inside | ⟨part, among, inside⟩ | ⟨part, among, inside⟩
    · have shown := Documentation.mem_words_descriptionOf inside ordinary.star ordinary.mark
      rw [← description] at shown
      rcases isInfix_merged_description undescribed shown ordinary.mark with named | kept
      · exact .inr (.defined (by rw [← description]; exact named))
      · exact .inl kept
    · exact isInfix_of_readPart undescribed fits parameters returns among inside ordinary
    · exact .inr (.unread part among inside)
  · intro other source parts
    rw [regenerated, regenerated, fits.read_congr source parts]

/-- The body of a comment with a note behind its tags. -/
def notedBody (note : Text) : Text :=
  "\n * Adds.\n * @param a The a.\n * @returns The sum.\n * @note ".toList ++ note

theorem prose_kept_noted
    : ∃ function,
        Signature.lastFunction? true "int f(int a);".toList = some function
          ∧ Fits function (notedBody "Careful. ".toList)
          ∧ "sum.".toList <:+: regenerated function (notedBody "Careful. ".toList)
          ∧ regenerated function (notedBody "None. ".toList)
            = regenerated function (notedBody "Careful. ".toList) := by
  have checked : (Signature.lastFunction? true "int f(int a);".toList).map
      (fun function => decide (Fits function (notedBody "Careful. ".toList))) = some true := by
    decide +kernel
  obtain ⟨function, found, decided⟩ := Option.map_eq_some_iff.mp checked
  have fits := of_decide_eq_true decided
  refine ⟨function, found, fits, ?_,
    (prose_kept found fits).2 _ (by decide +kernel) (by decide +kernel)⟩
  refine ((prose_kept found fits).1 "sum.".toList (by decide +kernel) (by decide)).resolve_right ?_
  rintro (⟨part, member, inside⟩ | ⟨segment, member, same, -⟩ | same)
  · have apart : ∀ part ∈ unreadParts (notedBody "Careful. ".toList),
        "sum.".toList ∉ words part := by decide +kernel
    exact apart part member inside
  · have other : ∀ segment ∈ parameterSegments (notedBody "Careful. ".toList),
        "sum.".toList ≠ namedWord segment := by decide +kernel
    exact other segment member same
  · exact absurd same (by decide +kernel)

/-- A word of each kind that is not kept: in a note behind a parameter, in the name of a parameter
with a colon, and behind a `@def` that names nothing. -/
def losses : List (Text × Text) :=
  [
    (" Adds.\n * @param a The a.\n * @note Careful. ".toList, "Careful.".toList),
    (" Adds.\n * @param a: The a. ".toList, "a:".toList),
    (" @def\n * Adds numbers. ".toList, "Adds".toList)
  ]

theorem prose_lost
    : ∃ function,
        Signature.lastFunction? true "int f(int a);".toList = some function
          ∧ ∀ loss ∈ losses,
              Fits function loss.1
                ∧ loss.2 ∈ words loss.1
                ∧ Ordinary loss.2
                ∧ ¬ loss.2 <:+: regenerated function loss.1 := by
  have checked : (Signature.lastFunction? true "int f(int a);".toList).map
      (fun function => decide (∀ loss ∈ losses,
        Fits function loss.1
          ∧ loss.2 ∈ words loss.1
          ∧ Ordinary loss.2
          ∧ ¬ loss.2 <:+: regenerated function loss.1)) = some true := by
    decide +kernel
  obtain ⟨function, found, decided⟩ := Option.map_eq_some_iff.mp checked
  exact ⟨function, found, of_decide_eq_true decided⟩

end DocBlock.Block
