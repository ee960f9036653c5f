import DocBlock.Proofs.Comment.Prose
import DocBlock.Proofs.Text.Scanning

/-! Cutting a comment at its tags. Text in which no tag starts is passed over by every search, and
each segment runs to the next tag or to the end of the comment.
-/

namespace DocBlock.Documentation

open Comment (Closeless)
open Text (isSpace isBlank isWord)

--------------------------------------------------------------------------------
-- Return keywords
--------------------------------------------------------------------------------

theorem returnKeyword_start {keyword : Text} (known : keyword ∈ returnKeywords)
    : "ret".toList <+: keyword :=
  (by decide : ∀ keyword ∈ returnKeywords, "ret".toList <+: keyword) keyword known

theorem starts_of_mem_returnKeywords {keyword : Text} (known : keyword ∈ returnKeywords)
    : ∃ name, keyword = 'r' :: name := by
  obtain ⟨rest, rfl⟩ := returnKeyword_start known
  exact ⟨"et".toList ++ rest, rfl⟩

/-- A return keyword is a word. -/
theorem returnKeyword_word {keyword : Text} (known : keyword ∈ returnKeywords)
    : keyword ≠ [] ∧ ∀ c ∈ keyword, isWord c = true := by
  have checked : ∀ keyword ∈ returnKeywords, keyword ≠ [] ∧ ∀ c ∈ keyword, isWord c = true := by
    decide +kernel
  exact checked keyword known

theorem returnKeyword_unspaced {keyword : Text} (known : keyword ∈ returnKeywords)
    : ∀ c ∈ keyword, isSpace c = false :=
  fun c member => Text.isSpace_of_isWord ((returnKeyword_word known).2 c member)

--------------------------------------------------------------------------------
-- Text in which no segment starts
--------------------------------------------------------------------------------

/-- No segment starts or ends in the text: a `@` opens at most a `@brief` marker. -/
structure Quiet (text : Text) : Prop where
  closeless : Closeless text
  brief : ∀ later, '@' :: later <:+ text → later.head? = some 'b'

/-- Behind a `@` only a word that is a return keyword opens a return segment. -/
theorem returnSegment?_of_unknown {text : Text}
    (unknown : text.takeWhile isWord ∉ returnKeywords)
    : returnSegment? ('@' :: text) = none := by
  have opened : Text.after? ['@'] ('@' :: text) = some text := rfl
  rw [returnSegment?, opened]
  cases word : Text.wordRun? text with
  | none => simp [word]
  | some found =>
      obtain ⟨keyword, rest⟩ := found
      rw [← (Text.wordRun?_sound word).1] at unknown
      simp [word, unknown]

/-- Only a tag that starts with `r` opens a return segment. -/
theorem returnSegment?_of_ne {c : Char} (different : c ≠ 'r') (rest : Text)
    : returnSegment? ('@' :: c :: rest) = none := by
  apply returnSegment?_of_unknown
  intro known
  obtain ⟨name, word⟩ := starts_of_mem_returnKeywords known
  have first : (c :: rest).takeWhile isWord <+: c :: rest := List.takeWhile_prefix isWord
  rw [word, List.cons_prefix_cons] at first
  exact different first.1.symm

/-- No return tag starts in the text: behind a `@` stands a character other than `r`. -/
def Returnless (text : Text) : Prop :=
  ∀ later, '@' :: later <:+ text → ∃ c, later.head? = some c ∧ c ≠ 'r'

namespace Returnless

variable {front rest : Text}

theorem of_no_at (absent : '@' ∉ front) : Returnless front :=
  fun _ position => absurd (position.subset (by simp)) absent

theorem append (first : Returnless front) (second : Returnless rest)
    : Returnless (front ++ rest) := by
  intro later position
  rcases Text.suffix_append_cases position with ⟨inside, rfl, within⟩ | behind
  · obtain ⟨c, next, other⟩ := first inside within
    exact ⟨c, by rw [List.head?_append, next]; rfl, other⟩
  · exact second later behind

/-- A tag of another name does not start a return tag. -/
theorem cons {c : Char} (other : c ≠ 'r') (returnless : Returnless (c :: rest))
    : Returnless ('@' :: c :: rest) := by
  intro later position
  rcases List.suffix_cons_iff.mp position with same | inside
  · obtain rfl := (List.cons.inj same).2
    exact ⟨c, rfl, other⟩
  · exact returnless later inside

/-- Text in which no return tag starts is passed over. -/
theorem findAll_returnSegment? (returnless : Returnless front)
    : Text.findAll returnSegment? (front ++ rest) = Text.findAll returnSegment? rest := by
  refine Text.findAll_append fun c later position => ?_
  by_cases mark : c = '@'
  · subst mark
    obtain ⟨d, next, other⟩ := returnless later position
    obtain ⟨more, rfl⟩ := List.head?_eq_some_iff.mp next
    exact returnSegment?_of_ne other _
  · have unread : Text.after? ['@'] (c :: later ++ rest) = none := Text.after?_cons_of_ne mark [] _
    rw [returnSegment?, unread]
    rfl

end Returnless

namespace Quiet

variable {front rest : Text}

theorem of_no_at (free : Closeless front) (absent : '@' ∉ front) : Quiet front :=
  ⟨free, fun _ position => absurd (position.subset (by simp)) absent⟩

theorem of_isSuffix (quiet : Quiet front) (tail : rest <:+ front) : Quiet rest :=
  ⟨quiet.closeless.of_isInfix tail.isInfix, fun _ position => quiet.brief _ (position.trans tail)⟩

/-- Quiet text stays quiet when joined, unless a comment end arises. Witness: a position in the
joined text lies in either part.
-/
theorem append (first : Quiet front) (second : Quiet rest)
    (joint : ¬ (front.getLast? = some '*' ∧ rest.head? = some '/'))
    : Quiet (front ++ rest) := by
  refine ⟨Comment.closeless_append_iff.mpr ⟨first.closeless, second.closeless, joint⟩, ?_⟩
  intro later position
  rcases Text.suffix_append_cases position with ⟨inside, rfl, within⟩ | behind
  · rw [List.head?_append, first.brief inside within]
    rfl
  · exact second.brief later behind

/-- At a position of quiet text no tag is read, unless a `b` follows its `@`. -/
theorem not_isPrefix {c d : Char} {later tag : Text} (quiet : Quiet front)
    (position : c :: later <:+ front) (different : d ≠ 'b')
    : ¬ '@' :: d :: tag <+: c :: later ++ rest := by
  rintro ⟨more, whole⟩
  obtain ⟨rfl, whole⟩ : '@' = c ∧ d :: (tag ++ more) = later ++ rest := by simpa using whole
  have second := quiet.brief later position
  cases later with
  | nil => simp at second
  | cons e later =>
      obtain ⟨rfl, -⟩ : d = e ∧ tag ++ more = later ++ rest := by simpa using whole
      exact different (by simpa using second)

theorem startsWithTag_eq_false {c : Char} {later : Text} {tags : List String} (quiet : Quiet front)
    (position : c :: later <:+ front)
    (different : ∀ tag ∈ tags, ∃ d name, tag.toList = '@' :: d :: name ∧ d ≠ 'b')
    : startsWithTag tags (c :: later ++ rest) = false := by
  rw [startsWithTag, List.any_eq_false]
  intro tag member
  obtain ⟨d, name, shape, other⟩ := different tag member
  rw [Text.startsWith_iff, shape]
  exact quiet.not_isPrefix position other

theorem atCommentEnd_eq_false {c : Char} {later : Text} (quiet : Quiet front)
    (position : c :: later <:+ front) (start : rest.head? ≠ some '/')
    : atCommentEnd (c :: later ++ rest) = false := by
  have unclosed : Text.after? "*/".toList (c :: later ++ rest) = none := by
    refine Option.eq_none_iff_forall_not_mem.mpr fun more found => ?_
    have whole := Text.after?_eq_some_iff.mp found
    obtain ⟨rfl, tail⟩ : c = '*' ∧ later ++ rest = '/' :: more := by simpa using whole
    cases later with
    | nil =>
        rw [List.nil_append] at tail
        exact start (by rw [tail, List.head?_cons])
    | cons d later =>
        obtain ⟨rfl, -⟩ : d = '/' ∧ later ++ rest = more := by simpa using tail
        exact quiet.closeless (List.IsInfix.trans ⟨[], later, rfl⟩ position.isInfix)
  rw [atCommentEnd, unclosed]
  · rfl
  · simp

theorem breakAt_endsDescription (quiet : Quiet front) (start : rest.head? ≠ some '/')
    (stops : endsDescription rest = true)
    : Text.breakAt endsDescription (front ++ rest) = (front, rest) := by
  refine Text.breakAt_of_stop (fun c later position => ?_) (.inr stops)
  rw [endsDescription, quiet.atCommentEnd_eq_false position start,
    quiet.startsWithTag_eq_false position (by simp)]
  rfl

theorem breakAt_endsSegment (quiet : Quiet front) (start : rest.head? ≠ some '/')
    (stops : endsSegment rest = true)
    : Text.breakAt endsSegment (front ++ rest) = (front, rest) := by
  refine Text.breakAt_of_stop (fun c later position => ?_) (.inr stops)
  rw [endsSegment, quiet.atCommentEnd_eq_false position start,
    quiet.startsWithTag_eq_false position (by simp)]
  rfl

theorem findAll_parameterSegment? (quiet : Quiet front)
    : Text.findAll parameterSegment? (front ++ rest) = Text.findAll parameterSegment? rest := by
  refine Text.findAll_append fun c later position => ?_
  have unread : Text.after? "@param".toList (c :: later ++ rest) = none := by
    have missing := @not_isPrefix front rest c 'p' later "aram".toList quiet position (by decide)
    exact Option.not_isSome_iff_eq_none.mp (mt Text.startsWith_iff.mp missing)
  rw [parameterSegment?, unread]

theorem returnless (quiet : Quiet front) : Returnless front :=
  fun later position => ⟨'b', quiet.brief later position, by decide⟩

theorem findAll_returnSegment? (quiet : Quiet front)
    : Text.findAll returnSegment? (front ++ rest) = Text.findAll returnSegment? rest :=
  quiet.returnless.findAll_returnSegment?

/-- A parameter segment is quiet text up to where it ends. -/
theorem parameterSegment?_append (quiet : Quiet front) (nonempty : front ≠ [])
    (start : rest.head? ≠ some '/') (stops : endsSegment rest = true)
    : parameterSegment? ("@param".toList ++ front ++ rest) = some (front, rest) := by
  obtain ⟨c, body, rfl⟩ := List.exists_cons_of_ne_nil nonempty
  have opened : Text.after? "@param".toList ("@param".toList ++ (c :: body) ++ rest)
      = some (c :: (body ++ rest)) :=
    Text.after?_eq_some_iff.mpr (by simp)
  have tail : Quiet body := quiet.of_isSuffix (List.suffix_cons c body)
  simp only [parameterSegment?, opened, tail.breakAt_endsSegment start stops]

/-- A return segment is its keyword and quiet text up to where it ends. -/
theorem returnSegment?_append {keyword : Text} (known : keyword ∈ returnKeywords)
    (quiet : Quiet front) (outside : ∀ c, (front ++ rest).head? = some c → isWord c = false)
    (start : rest.head? ≠ some '/') (stops : endsSegment rest = true)
    : returnSegment? ('@' :: keyword ++ front ++ rest)
      = some
          (
            if (tagBody front).isEmpty then keyword else keyword ++ ' ' :: tagBody front,
            rest
          ) := by
  have facts := returnKeyword_word known
  have opened : Text.after? ['@'] ('@' :: keyword ++ front ++ rest)
      = some (keyword ++ (front ++ rest)) :=
    Text.after?_eq_some_iff.mpr (by simp)
  have word : Text.wordRun? (keyword ++ (front ++ rest)) = some (keyword, front ++ rest) := by
    obtain ⟨c, later, rfl⟩ := List.exists_cons_of_ne_nil facts.1
    simp only [Text.wordRun?, Text.takeWhile_run facts.2 outside,
      Text.dropWhile_run facts.2 outside]
  simp only [returnSegment?, opened, word, Option.bind_eq_bind, Option.bind_some,
    List.contains_eq_mem, known, decide_true, if_true, quiet.breakAt_endsSegment start stops]

end Quiet

theorem quiet_briefMarker : Quiet briefMarker := by
  refine ⟨Closeless.of_no_star (by decide), fun later position => ?_⟩
  rcases List.suffix_cons_iff.mp position with same | inside
  · rw [(List.cons.inj same).2]
    rfl
  · have member : '@' ∈ "brief ".toList := inside.subset List.mem_cons_self
    exact absurd member (by decide)

theorem Hollow.quiet {gap : Text} (hollow : Hollow gap) : Quiet gap :=
  Quiet.of_no_at (Closeless.of_no_slash (hollow.not_mem (by decide))) (hollow.not_mem (by decide))

--------------------------------------------------------------------------------
-- Text cut at its tags
--------------------------------------------------------------------------------

/-- A tag that starts a segment, with the text of its line. -/
structure OpensSegment (tag : Text) : Prop where
  start : "param".toList <+: tag ∨ "ret".toList <+: tag
  inner : ∀ c ∈ tag, c ≠ '@' ∧ c ≠ '*'

/-- Lines of tags with nothing but decoration between them, up to the end of the comment. -/
inductive Tagged : List Text → Text → Prop where
  | close {gap : Text} (hollow : Hollow gap) : Tagged [] (gap ++ "*/".toList)
  | tag {gap tag rest : Text} {tags : List Text} (hollow : Hollow gap) (opens : OpensSegment tag)
    (later : Tagged tags rest)
    : Tagged (tag :: tags) (gap ++ '@' :: (tag ++ '\n' :: rest))

/-- The line of a segment, with what follows it up to the next tag, is quiet. -/
theorem OpensSegment.quiet {tag gap : Text} (opens : OpensSegment tag) (hollow : Hollow gap)
    : Quiet (tag ++ '\n' :: gap) := by
  have line : Quiet tag :=
    Quiet.of_no_at (Closeless.of_no_star fun star => (opens.inner _ star).2 rfl)
      fun mark => (opens.inner _ mark).1 rfl
  have feed : Quiet ['\n'] := Quiet.of_no_at (Closeless.of_no_star (by decide)) (by decide)
  exact line.append (feed.append hollow.quiet (by simp)) (by simp)

namespace Tagged

variable {tags : List Text} {text : Text}

/-- Empty lines in front of the tags are passed over; behind them a tag or the end of the comment
stops every segment. -/
theorem skip (tagged : Tagged tags text)
    : ∃ gap rest,
        text = gap ++ rest
          ∧ Hollow gap
          ∧ Tagged tags rest
          ∧ endsDescription rest = true
          ∧ endsSegment rest = true
          ∧ rest.head? ≠ some '/' := by
  have empty : Hollow [] := Hollow.of_blanks (by simp)
  cases tagged with
  | @close gap hollow =>
      exact ⟨gap, "*/".toList, rfl, hollow, Tagged.close empty, by decide, by decide, by decide⟩
  | @tag gap tag rest tags hollow opens later =>
      have stops (others : List String)
          : startsWithTag ("@param" :: "@ret" :: others) ('@' :: (tag ++ '\n' :: rest)) = true := by
        rw [startsWithTag, List.any_cons, List.any_cons, Bool.or_eq_true, Bool.or_eq_true,
          Text.startsWith_iff, Text.startsWith_iff]
        rcases opens.start with ⟨more, rfl⟩ | ⟨more, rfl⟩
        · exact .inl ⟨more ++ '\n' :: rest, by simp⟩
        · exact .inr (.inl ⟨more ++ '\n' :: rest, by simp⟩)
      refine ⟨gap, '@' :: (tag ++ '\n' :: rest), rfl, hollow, Tagged.tag empty opens later, ?_, ?_,
        by simp⟩
      · rw [endsDescription, stops, Bool.true_or]
      · rw [endsSegment, stops, Bool.true_or]

/-- An empty line may stand in front of the tags. -/
theorem prepend {gap : Text} (hollow : Hollow gap) (tagged : Tagged tags text)
    : Tagged tags (gap ++ '\n' :: text) := by
  cases tagged with
  | @close later empty =>
      have joined := Tagged.close (hollow.append_feed empty)
      rwa [List.append_assoc, List.cons_append] at joined
  | tag empty opens later =>
      have joined := Tagged.tag (hollow.append_feed empty) opens later
      rwa [List.append_assoc, List.cons_append] at joined

/-- Behind the last tag no segment is found. -/
theorem findAll_close (tagged : Tagged [] text)
    : Text.findAll parameterSegment? text = [] ∧ Text.findAll returnSegment? text = [] := by
  cases tagged with
  | close hollow =>
      rw [hollow.quiet.findAll_parameterSegment?, hollow.quiet.findAll_returnSegment?]
      exact ⟨by decide, by decide⟩

/-- A parameter tag is found as one parameter segment. -/
theorem findAll_parameter {segment : Text}
    (tagged : Tagged (("param".toList ++ segment) :: tags) text)
    : ∃ gap rest,
        Hollow gap
          ∧ Tagged tags rest
          ∧ Text.findAll parameterSegment? text
            = (segment ++ '\n' :: gap) :: Text.findAll parameterSegment? rest
          ∧ Text.findAll returnSegment? text = Text.findAll returnSegment? rest := by
  cases tagged with
  | @tag before _ _ _ hollow opens later =>
      obtain ⟨gap, rest, rfl, empty, tagged, -, stops, start⟩ := later.skip
      have quiet := opens.quiet empty
      refine ⟨gap, rest, empty, tagged, ?_, ?_⟩
      · have body : Quiet (segment ++ '\n' :: gap) :=
          quiet.of_isSuffix ⟨"param".toList, by rw [List.append_assoc]⟩
        have read := body.parameterSegment?_append (by simp) start stops
        have found := Text.findAll_of_some read (by simp)
        rw [hollow.quiet.findAll_parameterSegment?, ← found]
        simp
      · have other := @returnSegment?_of_ne 'p' (by decide)
          ("aram".toList ++ segment ++ '\n' :: (gap ++ rest))
        have passed := Text.findAll_cons_of_none other
        have line := @Quiet.findAll_returnSegment? _ rest quiet
        rw [hollow.quiet.findAll_returnSegment?, ← line]
        simpa using passed

/-- A return tag is found as one return segment: its keyword, and the text up to the next tag. -/
theorem findAll_keyword {keyword body : Text} (known : keyword ∈ returnKeywords)
    (outside : ∀ c, body.head? = some c → isWord c = false)
    (tagged : Tagged ((keyword ++ body) :: tags) text)
    : ∃ gap rest,
        Hollow gap
          ∧ Tagged tags rest
          ∧ Text.findAll parameterSegment? text = Text.findAll parameterSegment? rest
          ∧ Text.findAll returnSegment? text
            = (if (tagBody (body ++ '\n' :: gap)).isEmpty then keyword
                else keyword ++ ' ' :: tagBody (body ++ '\n' :: gap))
              :: Text.findAll returnSegment? rest := by
  cases tagged with
  | @tag before _ _ _ hollow opens later =>
      obtain ⟨gap, rest, rfl, empty, tagged, -, stops, start⟩ := later.skip
      have quiet := opens.quiet empty
      refine ⟨gap, rest, empty, tagged, ?_, ?_⟩
      · obtain ⟨name, rfl⟩ := starts_of_mem_returnKeywords known
        have other : parameterSegment?
              ('@' :: 'r' :: (name ++ body ++ '\n' :: (gap ++ rest)))
            = none := by
          simp [parameterSegment?, Text.after?]
        have passed := Text.findAll_cons_of_none other
        have line := @Quiet.findAll_parameterSegment? _ rest quiet
        rw [hollow.quiet.findAll_parameterSegment?, ← line]
        simpa using passed
      · have behind : Quiet (body ++ '\n' :: gap) := quiet.of_isSuffix ⟨keyword, by simp⟩
        have apart : ∀ c, (body ++ '\n' :: gap ++ rest).head? = some c → isWord c = false := by
          cases body with
          | nil =>
              rintro c ⟨⟩
              decide +kernel
          | cons d body => exact outside
        have read := behind.returnSegment?_append known apart start stops
        have found := Text.findAll_of_some read (by simp)
        rw [hollow.quiet.findAll_returnSegment?, ← found]
        simp

/-- A return tag with a plain body is found as one return segment. -/
theorem findAll_return {keyword body : Text} (known : keyword ∈ returnKeywords)
    (ordinary : body = [] ∨ Plain body) (tagged : Tagged ((keyword ++ ' ' :: body) :: tags) text)
    : ∃ rest,
        Tagged tags rest
          ∧ Text.findAll parameterSegment? text = Text.findAll parameterSegment? rest
          ∧ Text.findAll returnSegment? text
            = (if body.isEmpty then keyword else keyword ++ ' ' :: body)
              :: Text.findAll returnSegment? rest := by
  obtain ⟨gap, rest, hollow, later, parameters, returns⟩ :=
    tagged.findAll_keyword known (by rintro c ⟨⟩; decide)
  have line : tagBody (' ' :: body ++ '\n' :: gap) = body :=
    @tagBody_line [' '] body gap (by simp [isBlank]) ordinary hollow
  rw [line] at returns
  exact ⟨rest, later, parameters, returns⟩

end Tagged

end DocBlock.Documentation
