import DocBlock.Proofs.Comment.Tags

/-! A comment as a sequence of parts. Cutting it before every tag that ends a segment leaves a first
part without tags and one part for each tag, and a reader understands every part by itself: no tag
reaches from one part into the next, and a comment is closed only at its end.
-/

namespace DocBlock.Documentation

open Text (isSpace isWord)

--------------------------------------------------------------------------------
-- Text in which no tag starts
--------------------------------------------------------------------------------

/-- The tags that end a parameter or return segment. -/
def segmentTags : List String :=
  ["@param", "@ret", "@note", "@warning", "@info"]

/-- The tags that end the main description. -/
def descriptionTags : List String :=
  ["@param", "@ret"]

/-- Which tag starts a text is settled before a character that no tag holds behind its first. -/
theorem startsWithTag_append_stop {tags : List String} {text : Text} {c : Char}
    (outside : ∀ tag ∈ tags, c ∉ tag.toList.tail) (nonempty : text ≠ []) (rest : Text)
    : startsWithTag tags (text ++ c :: rest) = startsWithTag tags text := by
  induction tags with
  | nil => rfl
  | cons tag tags ih =>
      rw [List.forall_mem_cons] at outside
      have later := ih outside.2
      unfold startsWithTag at later ⊢
      rw [List.any_cons, List.any_cons, Text.startsWith_append_stop outside.1 nonempty, later]

theorem startsWithTag_append {tags : List String} {text : Text}
    (starts : startsWithTag tags text = true) (rest : Text)
    : startsWithTag tags (text ++ rest) = true := by
  rw [startsWithTag, List.any_eq_true] at starts ⊢
  obtain ⟨tag, member, here⟩ := starts
  refine ⟨tag, member, Text.startsWith_iff.mpr ?_⟩
  exact (Text.startsWith_iff.mp here).trans (List.prefix_append _ _)

theorem startsWithTag_mono {tags others : List String} (among : ∀ tag ∈ tags, tag ∈ others)
    {text : Text} (none : startsWithTag others text = false)
    : startsWithTag tags text = false := by
  rw [startsWithTag, List.any_eq_false] at none ⊢
  exact fun tag member => none tag (among tag member)

/-- No tag of a list starts in the text. -/
def Untagged (tags : List String) (text : Text) : Prop :=
  ∀ c later, c :: later <:+ text → startsWithTag tags (c :: later) = false

namespace Untagged

variable {tags : List String} {front rest : Text}

theorem of_no_at (marked : ∀ tag ∈ tags, '@' ∈ tag.toList) (absent : '@' ∉ front)
    : Untagged tags front := by
  intro c later position
  rw [startsWithTag, List.any_eq_false]
  intro tag member starts
  have prefixed := Text.startsWith_iff.mp starts
  exact absent (position.subset (prefixed.subset (marked tag member)))

theorem of_isSuffix (untagged : Untagged tags front) (tail : rest <:+ front)
    : Untagged tags rest :=
  fun c later position => untagged c later (position.trans tail)

theorem mono {others : List String} (untagged : Untagged others front)
    (among : ∀ tag ∈ tags, tag ∈ others)
    : Untagged tags front :=
  fun c later position => startsWithTag_mono among (untagged c later position)

/-- At a position of untagged text no tag starts, whatever follows behind a character that no tag
holds. -/
theorem startsWithTag_eq_false {c d : Char} {later : Text} (untagged : Untagged tags front)
    (position : c :: later <:+ front) (outside : ∀ tag ∈ tags, d ∉ tag.toList.tail) (rest : Text)
    : startsWithTag tags (c :: later ++ d :: rest) = false := by
  rw [startsWithTag_append_stop outside (by simp)]
  exact untagged c later position

theorem append {d : Char} (first : Untagged tags front) (second : Untagged tags (d :: rest))
    (outside : ∀ tag ∈ tags, d ∉ tag.toList.tail)
    : Untagged tags (front ++ d :: rest) := by
  intro c later position
  rcases Text.suffix_append_cases position with ⟨inside, rfl, within⟩ | behind
  · exact first.startsWithTag_eq_false within outside rest
  · exact second c later behind

theorem cons {c : Char} (here : startsWithTag tags (c :: rest) = false)
    (untagged : Untagged tags rest)
    : Untagged tags (c :: rest) := by
  intro d later position
  rcases List.suffix_cons_iff.mp position with same | inside
  · rwa [same]
  · exact untagged d later inside

end Untagged

--------------------------------------------------------------------------------
-- What stands behind a part
--------------------------------------------------------------------------------

/-- What stands behind a part of a comment: the next tag, or the end of the comment. -/
def Follows (rest : Text) : Prop :=
  rest = "*/".toList ∨ startsWithTag segmentTags rest = true

theorem head_of_startsWithTag {rest : Text} (starts : startsWithTag segmentTags rest = true)
    : ∃ later, rest = '@' :: later := by
  obtain ⟨tag, member, here⟩ := List.any_eq_true.mp starts
  have checked : ∀ tag ∈ segmentTags, ∃ name, tag.toList = '@' :: name := by
    simp [segmentTags]
  obtain ⟨name, shape⟩ := checked tag member
  obtain ⟨later, rfl⟩ := Text.startsWith_iff.mp here
  exact ⟨name ++ later, by rw [shape]; rfl⟩

/-- Text without tags may stand in front. -/
theorem Untagged.append_left {front rest : Text} (absent : '@' ∉ front)
    (untagged : Untagged segmentTags rest)
    : Untagged segmentTags (front ++ rest) := by
  intro c later position
  rcases Text.suffix_append_cases position with ⟨inside, rfl, within⟩ | behind
  · rw [Bool.eq_false_iff]
    intro starts
    obtain ⟨more, shape⟩ := head_of_startsWithTag starts
    have mark : c ∈ front := within.subset List.mem_cons_self
    rw [(List.cons.inj shape).1] at mark
    exact absent mark
  · exact untagged c later behind

namespace Follows

variable {front rest : Text}

/-- It starts with a character that no tag holds behind its first, and that is not part of a
word. -/
theorem start (follows : Follows rest)
    : ∃ c later,
        rest = c :: later
          ∧ (∀ tag ∈ segmentTags, c ∉ tag.toList.tail)
          ∧ isWord c = false
          ∧ isSpace c = false
          ∧ c ≠ '/' := by
  rcases follows with rfl | starts
  · exact ⟨'*', ['/'], rfl, by decide, by decide +kernel, by decide, by decide⟩
  · obtain ⟨later, rfl⟩ := head_of_startsWithTag starts
    exact ⟨'@', later, rfl, by decide, by decide +kernel, by decide, by decide⟩

theorem endsSegment (follows : Follows rest) : endsSegment rest = true := by
  rcases follows with rfl | starts
  · decide
  · rw [Documentation.endsSegment, Bool.or_eq_true]
    exact .inl starts

/-- A comment does not end inside a part. -/
theorem atCommentEnd_eq_false {c : Char} (follows : Follows rest) (later : Text)
    : atCommentEnd (c :: later ++ rest) = false := by
  obtain ⟨d, more, rfl, -, -, shown, other⟩ := follows.start
  rw [atCommentEnd]
  · cases found : Text.after? "*/".toList (c :: later ++ d :: more) with
    | none => rfl
    | some behind =>
        have whole := Text.after?_eq_some_iff.mp found
        cases later with
        | nil =>
            obtain ⟨-, rfl, -⟩ : c = '*' ∧ d = '/' ∧ more = behind := by simpa using whole
            contradiction
        | cons e later =>
            obtain ⟨-, -, rfl⟩ : c = '*' ∧ e = '/' ∧ later ++ d :: more = behind := by
              simpa using whole
            simp [shown]
  · simp

/-- A segment of untagged text runs to what follows it. -/
theorem breakAt_endsSegment (follows : Follows rest) (untagged : Untagged segmentTags front)
    : Text.breakAt Documentation.endsSegment (front ++ rest) = (front, rest) := by
  refine Text.breakAt_of_stop (fun c later position => ?_) (.inr follows.endsSegment)
  obtain ⟨d, more, shape, outside, -⟩ := follows.start
  have tag : startsWithTag segmentTags (c :: later ++ rest) = false := by
    rw [shape]
    exact untagged.startsWithTag_eq_false position outside more
  rw [Documentation.endsSegment, follows.atCommentEnd_eq_false]
  rw [segmentTags] at tag
  rw [tag]
  rfl

end Follows

theorem parameterSegment?_of_startsWith {text : Text}
    (untagged : ¬ Text.startsWith "@param".toList text = true)
    : parameterSegment? text = none := by
  rw [parameterSegment?, Option.not_isSome_iff_eq_none.mp untagged]

theorem returnSegment?_of_startsWith {text : Text}
    (untagged : ¬ Text.startsWith "@ret".toList text = true)
    : returnSegment? text = none := by
  have missing : ¬ "@ret".toList <+: text := fun starts => untagged (Text.startsWith_iff.mpr starts)
  cases text with
  | nil => rfl
  | cons c text =>
      by_cases mark : c = '@'
      · subst mark
        apply returnSegment?_of_unknown
        intro known
        have word := (returnKeyword_start known).trans (List.takeWhile_prefix isWord)
        exact missing (List.cons_prefix_cons.mpr ⟨rfl, word⟩)
      · have unread : Text.after? ['@'] (c :: text) = none := Text.after?_cons_of_ne mark [] _
        rw [returnSegment?, unread]
        rfl

/-- Untagged text is passed over. -/
theorem Follows.findAll_append {front rest : Text} (follows : Follows rest)
    (untagged : Untagged segmentTags front)
    : Text.findAll parameterSegment? (front ++ rest) = Text.findAll parameterSegment? rest
      ∧ Text.findAll returnSegment? (front ++ rest) = Text.findAll returnSegment? rest := by
  obtain ⟨d, more, rfl, outside, -⟩ := follows.start
  have passed {c : Char} {later : Text} (position : c :: later <:+ front)
      : ∀ tag ∈ segmentTags, ¬ Text.startsWith tag.toList (c :: later ++ d :: more) = true := by
    have none := untagged.startsWithTag_eq_false position outside more
    rwa [startsWithTag, List.any_eq_false] at none
  constructor
  · exact Text.findAll_append fun c later position =>
      parameterSegment?_of_startsWith (passed position "@param" (by decide))
  · exact Text.findAll_append fun c later position =>
      returnSegment?_of_startsWith (passed position "@ret" (by decide))

--------------------------------------------------------------------------------
-- Parts
--------------------------------------------------------------------------------

/-- A tag with the text up to the next one. -/
structure TagPart (part : Text) : Prop where
  opens : startsWithTag segmentTags part = true
  inner : Untagged segmentTags part.tail

/-- The parameter segment that a part is, if it is one. -/
def parameterPart? (part : Text) : Option Text :=
  Text.after? "@param".toList part

/-- The return description that a part gives, if it opens with a return keyword. -/
def returnPart? (part : Text) : Option Text := do
  let rest ← Text.after? ['@'] part
  let (keyword, rest) ← Text.wordRun? rest
  if returnKeywords.contains keyword then
    some (if (tagBody rest).isEmpty then keyword else keyword ++ ' ' :: tagBody rest)
  else none

/-- A part gives a return description exactly if a return segment is read there. -/
theorem isSome_returnPart? (part : Text)
    : (returnPart? part).isSome = (returnSegment? part).isSome := by
  unfold returnPart? returnSegment?
  cases Text.after? ['@'] part with
  | none => rfl
  | some rest =>
      simp only [Option.bind_eq_bind, Option.bind_some]
      cases Text.wordRun? rest with
      | none => rfl
      | some found =>
          simp only [Option.bind_some]
          split <;> simp

/-- The part neither documents a parameter nor looks like a return tag, so it does not end the
description. -/
def isAside (part : Text) : Bool :=
  !startsWithTag descriptionTags part

namespace TagPart

variable {part rest : Text}

theorem shape (tagged : TagPart part) : ∃ name, part = '@' :: name :=
  head_of_startsWithTag tagged.opens

/-- A part is searched for parameters by itself. -/
theorem findAll_parameterSegment? (tagged : TagPart part) (follows : Follows rest)
    (named : part ≠ "@param".toList)
    : Text.findAll parameterSegment? (part ++ rest)
      = (parameterPart? part).toList ++ Text.findAll parameterSegment? rest := by
  obtain ⟨name, rfl⟩ := tagged.shape
  obtain ⟨d, more, shape, outside, -⟩ := follows.start
  cases found : parameterPart? ('@' :: name) with
  | none =>
      have unread : parameterSegment? ('@' :: (name ++ rest)) = none := by
        apply parameterSegment?_of_startsWith
        have apart := @Text.startsWith_append_stop "@param".toList ('@' :: name) d
          (outside "@param" (by decide)) (by simp) more
        rw [shape, ← List.cons_append, apart, Text.startsWith, ← parameterPart?, found]
        simp
      rw [List.cons_append, Text.findAll_cons_of_none unread]
      exact (follows.findAll_append tagged.inner).1
  | some segment =>
      have whole := Text.after?_eq_some_iff.mp found
      cases segment with
      | nil => exact absurd (by rw [whole, List.append_nil]) named
      | cons c body =>
          have opened : Text.after? "@param".toList ('@' :: name ++ rest)
              = some (c :: (body ++ rest)) :=
            Text.after?_eq_some_iff.mpr (by rw [whole, List.append_assoc]; rfl)
          have tail : Untagged segmentTags body := by
            refine tagged.inner.of_isSuffix ⟨"param".toList ++ [c], ?_⟩
            have inside : name = "param".toList ++ c :: body := by
              have mark : "@param".toList = '@' :: "param".toList := by decide
              rw [mark] at whole
              exact (List.cons.inj whole).2
            rw [List.tail_cons, inside, List.append_assoc]
            rfl
          have read : parameterSegment? ('@' :: name ++ rest) = some (c :: body, rest) := by
            simp only [parameterSegment?, opened, follows.breakAt_endsSegment tail]
          rw [Text.findAll_of_some read (by simp)]
          rfl

/-- A part is searched for return descriptions by itself. -/
theorem findAll_returnSegment? (tagged : TagPart part) (follows : Follows rest)
    : Text.findAll returnSegment? (part ++ rest)
      = (returnPart? part).toList ++ Text.findAll returnSegment? rest := by
  obtain ⟨name, rfl⟩ := tagged.shape
  obtain ⟨d, more, shape, -, outside, -⟩ := follows.start
  have opened (text : Text) : Text.after? ['@'] ('@' :: text) = some text := rfl
  have word : Text.wordRun? (name ++ rest)
      = (Text.wordRun? name).map fun (keyword, later) => (keyword, later ++ rest) := by
    rw [shape, Text.wordRun?_append_stop outside]
  have read : returnSegment? ('@' :: name ++ rest)
      = (returnPart? ('@' :: name)).map fun description => (description, rest) := by
    rw [List.cons_append, returnSegment?, returnPart?, opened, opened]
    simp only [Option.bind_eq_bind, Option.bind_some, word]
    cases found : Text.wordRun? name with
    | none => rfl
    | some result =>
        obtain ⟨keyword, later⟩ := result
        have tail : Untagged segmentTags later := by
          apply tagged.inner.of_isSuffix
          rw [(Text.wordRun?_sound found).2.1]
          exact List.dropWhile_suffix isWord
        simp only [Option.map_some, Option.bind_some, follows.breakAt_endsSegment tail]
        split <;> simp
  cases found : returnPart? ('@' :: name) with
  | none =>
      rw [found, Option.map_none] at read
      rw [List.cons_append] at read ⊢
      rw [Text.findAll_cons_of_none read]
      exact (follows.findAll_append tagged.inner).2
  | some description =>
      rw [found, Option.map_some] at read
      rw [Text.findAll_of_some read (by simp)]
      rfl

end TagPart

/-- Which tag starts a text is settled before the next part. -/
theorem startsWithTag_append_parts {tags : List String} {text : Text} {parts : List Text}
    (outside : ∀ tag ∈ tags, '@' ∉ tag.toList.tail) (nonempty : text ≠ [])
    (tagged : ∀ part ∈ parts, TagPart part)
    : startsWithTag tags (text ++ parts.flatten) = startsWithTag tags text := by
  cases parts with
  | nil => simp
  | cons part parts =>
      obtain ⟨name, rfl⟩ := (tagged part List.mem_cons_self).shape
      rw [List.flatten_cons, List.cons_append, startsWithTag_append_stop outside nonempty]

/-- Behind parts and the end of the comment a part may end. -/
theorem follows_flatten {parts : List Text} (tagged : ∀ part ∈ parts, TagPart part)
    : Follows (parts.flatten ++ "*/".toList) := by
  cases parts with
  | nil => exact .inl rfl
  | cons part parts =>
      rw [List.flatten_cons, List.append_assoc]
      exact .inr (startsWithTag_append (tagged part List.mem_cons_self).opens _)

/-- The parts of a comment are searched one by one, by induction on them. -/
theorem findAll_parts {parts : List Text} (tagged : ∀ part ∈ parts, TagPart part)
    (named : ∀ part ∈ parts, part ≠ "@param".toList)
    : Text.findAll parameterSegment? (parts.flatten ++ "*/".toList)
        = parts.filterMap parameterPart?
      ∧ Text.findAll returnSegment? (parts.flatten ++ "*/".toList)
        = parts.filterMap returnPart? := by
  induction parts with
  | nil => exact ⟨by decide, by decide⟩
  | cons part parts ih =>
      rw [List.forall_mem_cons] at tagged named
      have follows := follows_flatten tagged.2
      obtain ⟨parameters, returns⟩ := ih tagged.2 named.2
      rw [List.flatten_cons, List.append_assoc,
        tagged.1.findAll_parameterSegment? follows named.1,
        tagged.1.findAll_returnSegment? follows, parameters, returns, List.filterMap_cons,
        List.filterMap_cons]
      constructor
      · cases parameterPart? part <;> rfl
      · cases returnPart? part <;> rfl

/-- No tag that ends the description starts in its own text and the parts that belong to it, by
induction on these parts. -/
theorem untagged_asides {first : Text} {parts : List Text} (untagged : Untagged segmentTags first)
    (tagged : ∀ part ∈ parts, TagPart part) (asides : ∀ part ∈ parts, isAside part = true)
    : Untagged descriptionTags (first ++ parts.flatten) := by
  have outside : ∀ tag ∈ descriptionTags, '@' ∉ tag.toList.tail := by decide
  induction parts generalizing first with
  | nil =>
      rw [List.flatten_nil, List.append_nil]
      exact untagged.mono (by decide)
  | cons part parts ih =>
      rw [List.forall_mem_cons] at tagged asides
      obtain ⟨name, rfl⟩ := tagged.1.shape
      have later : Untagged descriptionTags (name ++ parts.flatten) :=
        ih tagged.1.inner tagged.2 asides.2
      have here : startsWithTag descriptionTags ('@' :: (name ++ parts.flatten)) = false := by
        have own : startsWithTag descriptionTags ('@' :: name) = false := by
          simpa [isAside] using asides.1
        rwa [← List.cons_append, startsWithTag_append_parts outside (by simp) tagged.2]
      have mono : Untagged descriptionTags first := untagged.mono (by decide)
      exact mono.append (later.cons here) outside

/-- The description of a comment is read from its first part and the parts that follow it up to a
parameter or return tag. -/
theorem breakAt_parts {first : Text} {parts : List Text} (untagged : Untagged segmentTags first)
    (tagged : ∀ part ∈ parts, TagPart part)
    : (Text.breakAt endsDescription (first ++ parts.flatten ++ "*/".toList)).1
      = first ++ (parts.takeWhile isAside).flatten := by
  have within {part : Text} {few : List Text} (sub : few <:+: parts) (member : part ∈ few)
      : TagPart part :=
    tagged part (sub.subset member)
  have front := untagged_asides untagged
    (fun part member => within (List.takeWhile_prefix isAside).isInfix member)
    fun part member => List.mem_takeWhile_imp member
  have follows := follows_flatten
    (fun part member => within (List.dropWhile_suffix isAside).isInfix member)
  have stops : endsDescription ((parts.dropWhile isAside).flatten ++ "*/".toList) = true := by
    cases shape : parts.dropWhile isAside with
    | nil => decide
    | cons part more =>
        have ends : isAside part = false := by
          have head := List.head?_dropWhile_not isAside parts
          rw [shape] at head
          simpa using head
        have own : startsWithTag descriptionTags part = true := by simpa [isAside] using ends
        rw [endsDescription, Bool.or_eq_true, List.flatten_cons, List.append_assoc]
        exact .inl (startsWithTag_append own _)
  have split : first ++ parts.flatten ++ "*/".toList
      = first ++ (parts.takeWhile isAside).flatten
        ++ ((parts.dropWhile isAside).flatten ++ "*/".toList) := by
    have whole := congrArg List.flatten (@List.takeWhile_append_dropWhile _ isAside parts)
    rw [List.flatten_append] at whole
    rw [← whole]
    simp only [List.append_assoc]
  rw [split, Text.breakAt_of_stop _ (.inr stops)]
  intro c later position
  obtain ⟨d, more, shape, outside, -⟩ := follows.start
  have tag : startsWithTag descriptionTags
      (c :: later ++ ((parts.dropWhile isAside).flatten ++ "*/".toList)) = false := by
    rw [shape]
    refine front.startsWithTag_eq_false position (fun tag member => outside tag ?_) more
    exact (by decide : ∀ tag ∈ descriptionTags, tag ∈ segmentTags) tag member
  rw [endsDescription, follows.atCommentEnd_eq_false]
  rw [descriptionTags] at tag
  rw [tag]
  rfl

/-- A comment is read part by part. -/
theorem read_parts {first : Text} {parts : List Text} (untagged : Untagged segmentTags first)
    (tagged : ∀ part ∈ parts, TagPart part) (named : ∀ part ∈ parts, part ≠ "@param".toList)
    (keepDirection : Bool)
    : read keepDirection ("/**".toList ++ (first ++ parts.flatten ++ "*/".toList))
      = {
        documented := true
        description := descriptionOf (first ++ (parts.takeWhile isAside).flatten)
        parameters :=
          (parts.filterMap parameterPart?).zipIdx.filterMap fun (segment, index) =>
            parameterOf? keepDirection segment index
        returns := !(parts.filterMap returnPart?).isEmpty
        returnDescriptions := parts.filterMap returnPart?
      } := by
  have opened : ("/**".toList ++ (first ++ parts.flatten ++ "*/".toList)).dropWhile isSpace
      = "/**".toList ++ (first ++ parts.flatten ++ "*/".toList) :=
    @Text.dropWhile_run isSpace [] _ (by simp) (by rintro c ⟨⟩; decide)
  have description : mainDescription? ("/**".toList ++ (first ++ parts.flatten ++ "*/".toList))
      = some (descriptionOf (first ++ (parts.takeWhile isAside).flatten)) := by
    rw [mainDescription?, opened, Text.after?_append, Option.map_some,
      breakAt_parts untagged tagged]
  have front : Untagged segmentTags ("/**".toList ++ first) := untagged.append_left (by decide)
  obtain ⟨parameters, returns⟩ := findAll_parts tagged named
  obtain ⟨before, above⟩ := (follows_flatten tagged).findAll_append front
  have shape : "/**".toList ++ (first ++ parts.flatten ++ "*/".toList)
      = "/**".toList ++ first ++ (parts.flatten ++ "*/".toList) := by
    simp only [List.append_assoc]
  rw [shape] at description
  rw [shape, read, description, before, above, parameters, returns, Option.getD_some]

--------------------------------------------------------------------------------
-- Cutting a comment
--------------------------------------------------------------------------------

/-- The parts of a text: what stands before the first tag, and each tag with the text up to the
next. -/
def cutAtTags : Text → List Text
  | [] => [[]]
  | c :: rest =>
    if startsWithTag segmentTags (c :: rest) then [] :: Text.consFirst c (cutAtTags rest)
    else Text.consFirst c (cutAtTags rest)

/-- The parts of a text joined are the text, and no tag starts inside a part. Witness: induction on
the text; a tag of the whole text that starts a part does not reach behind it.
-/
theorem exists_cut (text : Text)
    : ∃ first parts,
        cutAtTags text = first :: parts
          ∧ text = first ++ parts.flatten
          ∧ Untagged segmentTags first
          ∧ ∀ part ∈ parts, TagPart part := by
  induction text with
  | nil => exact ⟨[], [], rfl, rfl, fun c later position => by simp at position, by simp⟩
  | cons c rest ih =>
      obtain ⟨first, parts, cut, rfl, untagged, tagged⟩ := ih
      by_cases here : startsWithTag segmentTags (c :: (first ++ parts.flatten)) = true
      · have own : startsWithTag segmentTags (c :: first) = true := by
          rwa [← List.cons_append, startsWithTag_append_parts (by decide) (by simp) tagged] at here
        refine ⟨[], (c :: first) :: parts, ?_, by simp, fun d later position => by simp at position,
          List.forall_mem_cons.mpr ⟨⟨own, untagged⟩, tagged⟩⟩
        rw [cutAtTags, if_pos here, cut, Text.consFirst]
      · refine ⟨c :: first, parts, ?_, rfl, untagged.cons ?_, tagged⟩
        · rw [cutAtTags, if_neg here, cut, Text.consFirst]
        · rw [Bool.eq_false_iff]
          intro starts
          exact here (startsWithTag_append starts parts.flatten)

--------------------------------------------------------------------------------
-- What is read of a comment
--------------------------------------------------------------------------------

/-- A documentation comment with a body. -/
def comment (body : Text) : Text :=
  "/**".toList ++ (body ++ "*/".toList)

/-- The tags in the body of a comment, each with the text up to the next one. -/
def tagParts (body : Text) : List Text :=
  (cutAtTags body).tail

/-- The text from which the description is read. -/
def descriptionSource (body : Text) : Text :=
  (cutAtTags body).headD [] ++ ((tagParts body).takeWhile isAside).flatten

/-- The parts behind the description. -/
def laterParts (body : Text) : List Text :=
  (tagParts body).dropWhile isAside

/-- Something is read from the part: it is a parameter segment or a return description. -/
def isRead (part : Text) : Bool :=
  (parameterPart? part).isSome || (returnPart? part).isSome

/-- The parts behind the description from which something is read. -/
def readParts (body : Text) : List Text :=
  (laterParts body).filter isRead

/-- The parts behind the description from which nothing is read. -/
def unreadParts (body : Text) : List Text :=
  (laterParts body).filter (!isRead ·)

theorem tagged_laterParts (body : Text) : ∀ part ∈ laterParts body, TagPart part := by
  obtain ⟨first, parts, cut, -, -, tagged⟩ := exists_cut body
  intro part member
  have among := (List.dropWhile_suffix isAside).subset member
  rw [tagParts, cut, List.tail_cons] at among
  exact tagged part among

/-- A comment is the text of its description and the parts behind it. -/
theorem descriptionSource_append (body : Text)
    : descriptionSource body ++ (laterParts body).flatten = body := by
  obtain ⟨first, parts, cut, whole, -⟩ := exists_cut body
  have tags : tagParts body = parts := by rw [tagParts, cut, List.tail_cons]
  rw [descriptionSource, laterParts, tags, cut, List.headD_cons, List.append_assoc,
    ← List.flatten_append, List.takeWhile_append_dropWhile, ← whole]

/-- A comment whose parameter tags are followed by some text is read part by part. -/
theorem read_comment {body : Text} (named : ∀ part ∈ tagParts body, part ≠ "@param".toList)
    (keepDirection : Bool)
    : read keepDirection (comment body)
      = {
        documented := true
        description := descriptionOf (descriptionSource body)
        parameters :=
          ((tagParts body).filterMap parameterPart?).zipIdx.filterMap fun (segment, index) =>
            parameterOf? keepDirection segment index
        returns := !((tagParts body).filterMap returnPart?).isEmpty
        returnDescriptions := (tagParts body).filterMap returnPart?
      } := by
  obtain ⟨first, parts, cut, whole, untagged, tagged⟩ := exists_cut body
  have tags : tagParts body = parts := by rw [tagParts, cut, List.tail_cons]
  have source : descriptionSource body = first ++ (parts.takeWhile isAside).flatten := by
    rw [descriptionSource, tags, cut, List.headD_cons]
  rw [tags] at named
  rw [comment, source, tags, whole, read_parts untagged tagged named]

theorem isRead_of_isAside {part : Text} (aside : isAside part = true) : isRead part = false := by
  have unmarked : startsWithTag descriptionTags part = false := by simpa [isAside] using aside
  rw [startsWithTag, List.any_eq_false] at unmarked
  have parameter : parameterPart? part = none :=
    Option.not_isSome_iff_eq_none.mp (unmarked "@param" (by decide))
  have unread := returnSegment?_of_startsWith (unmarked "@ret" (by decide))
  rw [isRead, isSome_returnPart?, unread, parameter]
  rfl

/-- The parts that are read are the parameter segments and return descriptions of a comment. -/
theorem mem_readParts {part body : Text}
    : part ∈ readParts body ↔ part ∈ tagParts body ∧ isRead part = true := by
  rw [readParts, List.mem_filter]
  refine and_congr_left fun reads => ⟨fun later => ?_, fun member => ?_⟩
  · exact (List.dropWhile_suffix isAside).subset later
  · refine Text.mem_dropWhile member ?_
    rw [Bool.eq_false_iff]
    intro aside
    exact absurd (reads.symm.trans (isRead_of_isAside aside)) (by decide)

/-- What the tags say is said by the parts that are read. -/
theorem filterMap_readParts {α : Type} {say : Text → Option α}
    (silent : ∀ part, isRead part = false → say part = none) (body : Text)
    : (tagParts body).filterMap say = (readParts body).filterMap say := by
  have asides : ((tagParts body).takeWhile isAside).filterMap say = [] := by
    rw [List.filterMap_eq_nil_iff]
    exact fun part member => silent part (isRead_of_isAside (List.mem_takeWhile_imp member))
  have kept : (fun part => if isRead part = true then say part else none) = say := by
    funext part
    split
    · rfl
    · next unread => exact (silent part (by simpa using unread)).symm
  rw [← @List.takeWhile_append_dropWhile _ isAside (tagParts body), List.filterMap_append, asides,
    List.nil_append, readParts, List.filterMap_filter, kept, laterParts]

end DocBlock.Documentation
