import DocBlock.Proofs.Comment.Closing
import DocBlock.Proofs.Document.Locating
import DocBlock.Proofs.Text.LineBreaks

/-! What is generated at a function, from any line of its head. A comment directly above it is
replaced by the block of the declaration merged with this comment, at the place of the comment;
otherwise the block of the declaration goes to the start of the line on which the head starts.
-/

namespace DocBlock.Document

open Comment (Closeless Hidden isDelimiter mask)
open Text (isBlank isSpace)

--------------------------------------------------------------------------------
-- The site of a declaration
--------------------------------------------------------------------------------

/-- A documentation comment on lines of its own: the blanks in front of it, and the text between its
opening and its end. -/
structure CommentAbove where
  indent : Text
  body : Text
  indented : ∀ c ∈ indent, isBlank c = true
  closeless : Closeless body
  unclosed : body.head? ≠ some '/'

/-- The comment from its opening to its end. -/
def CommentAbove.comment (above : CommentAbove) : Text :=
  "/**".toList ++ above.body ++ "*/".toList

/-- A head in a document: finished code in front of it, maybe a comment directly above it, its
indentation, and behind it white space and a separator. -/
structure DeclarationSite where
  front : Text
  comment? : Option CommentAbove
  indent : Text
  head : Text
  space : Text
  separator : Char
  rest : Text
  settled : Settled front
  indented : ∀ c ∈ indent, isBlank c = true
  spaced : ∀ c ∈ space, isSpace c = true
  separates : separator = ';' ∨ separator = '{'

namespace DeclarationSite

variable (site : DeclarationSite)

/-- The lines of the comment above the head. -/
def above : Text :=
  match site.comment? with
  | some above => above.indent ++ above.comment ++ ['\n']
  | none => []

/-- The whole document. -/
def document : Text :=
  site.front ++ site.above ++ (site.indent ++ site.head) ++ (site.space ++ [site.separator])
    ++ site.rest

/-- The cursor stands on a line of the head, and the window around it reaches from the line on which
the comment, or else the head, starts to the separator. -/
structure Shows (style : Style) (line : Nat) : Prop where
  first : (site.front ++ site.above ++ site.indent).count '\n' ≤ line
  last : line ≤ (site.front ++ site.above ++ site.indent ++ site.head).count '\n'
  behind : line ≤ site.front.count '\n' + style.lookbehindLines
  ahead : (site.front ++ site.above ++ site.indent ++ site.head ++ site.space).count '\n'
    < line + style.lookaheadLines

/-- The text above the head is hidden. -/
theorem hidden_above : Hidden site.above := by
  unfold above
  split
  · next above _ =>
    have free : ¬ "*/".toList <:+: '*' :: above.body := by
      rw [Comment.close_infix_cons_iff]
      exact not_or.mpr ⟨above.unclosed, above.closeless⟩
    have indent : Hidden above.indent :=
      .of_space fun c member => Text.isSpace_of_isBlank (above.indented c member)
    have feed : Hidden ['\n'] := .of_space (by decide)
    exact (indent.append (.block free)).append feed
  · exact .of_space (by simp)

theorem endsLine_above : EndsLine (site.front ++ site.above) := by
  refine site.settled.ends.append ?_
  unfold above
  split
  · exact .inr (by simp)
  · exact .inl rfl

theorem unbroken_indent : '\n' ∉ site.indent :=
  fun feed => absurd (site.indented _ feed) (by decide)

variable {site} {style : Style} {line : Nat} {declaration : Declaration}

theorem plain_head {inferDirection : Bool}
    (declares : Declares inferDirection site.head declaration)
    : ∀ c ∈ site.indent ++ site.head, isDelimiter c = false ∧ c ≠ '/' := by
  refine List.forall_mem_append.mpr ⟨fun c member => ?_, declares.plain⟩
  have space := Text.isSpace_of_isBlank (site.indented c member)
  exact ⟨Comment.isDelimiter_of_isSpace space, (IsBetween.outside (.inl space)).2.2.2⟩

/-- The window around a line of the head starts somewhere in front of it, its cursor splits the head
at the start of a line, and it reaches past the separator. -/
theorem exists_view (shows : site.Shows style line)
    : ∃ skipped seen started opened shown,
        site.front = skipped ++ seen
        ∧ site.indent ++ site.head = started ++ opened
        ∧ EndsLine started
        ∧ (site.front ++ site.above ++ started).count '\n' = line
        ∧ window style site.document line
          = {
            start := skipped.length
            cursor := (site.front ++ site.above ++ started).length
            before := seen ++ site.above ++ started
            after := opened ++ (site.space ++ [site.separator]) ++ shown
          } := by
  have flat : site.indent.count '\n' = 0 := List.count_eq_zero.mpr site.unbroken_indent
  have unbroken : [site.separator].count '\n' = 0 := by
    rcases site.separates with same | same <;> rw [same] <;> rfl
  have first : (site.front ++ site.above).count '\n' ≤ line := by
    simpa only [List.count_append, flat, Nat.add_zero] using shows.first
  have last : line ≤ (site.front ++ site.above ++ (site.indent ++ site.head)).count '\n' := by
    simpa only [List.append_assoc] using shows.last
  have ahead : (site.front ++ site.above ++ (site.indent ++ site.head)
        ++ (site.space ++ [site.separator])).count '\n'
      < line + style.lookaheadLines := by
    have reach := shows.ahead
    simp only [List.count_append, unbroken] at reach ⊢
    omega
  exact exists_window site.endsLine_above first last shows.behind ahead

/-- Wherever the window starts and the cursor splits the head, the window shows all from its start
to the end of the head, and the target is the whole head. Witness: the part of the head before the
cursor is kept since the last delimiter, and the part behind it is the first statement.
-/
theorem exists_target (shows : site.Shows style line)
    (declares : Declares style.inferDirection site.head declaration)
    : ∃ skipped seen lead,
        site.front = skipped ++ seen
        ∧ EndsLine lead
        ∧ (∀ c ∈ lead, IsBetween c)
        ∧ (window style site.document line).start = skipped.length
        ∧ (window style site.document line).shown
          = seen ++ site.above ++ site.indent ++ site.head
        ∧ (window style site.document line).target style.inferDirection
          = {
            declaration := some declaration
            preceding := lead ++ site.above ++ site.indent
          } := by
  obtain ⟨skipped, seen, started, opened, shown, frontSplit, headSplit, startedEnds, -, view⟩ :=
    exists_view shows
  have settled : Settled seen := Settled.of_append (frontSplit ▸ site.settled)
  obtain ⟨lead, leadEnds, between, since⟩ := settled.exists_lead
  have headEnds : (site.indent ++ site.head).getLast? = some ')' := by
    rw [List.getLast?_append, declares.ends]
    rfl
  rw [headSplit] at headEnds
  have ends : opened.getLast? = some ')' := startedEnds.getLast?_behind headEnds (by decide)
  have plain := plain_head declares
  rw [headSplit] at plain
  obtain ⟨plainStarted, plainOpened⟩ := List.forall_mem_append.mp plain
  have statement : firstStatement (opened ++ (site.space ++ [site.separator]) ++ shown)
      = opened := by
    have cut := @firstStatement_head opened site.space shown site.separator ends plainOpened
      site.spaced site.separates
    simpa using cut
  have before : Comment.sinceLastDelimiter (seen ++ site.above ++ started)
      = lead ++ (site.above ++ started) := by
    obtain ⟨blank, masked, spaces⟩ := site.hidden_above.masked started
    rw [List.append_assoc]
    refine since _ ?_
    rw [masked, Comment.mask_eq_self (.of_plain plainStarted)]
    exact List.forall_mem_append.mpr
      ⟨fun c member => Comment.isDelimiter_of_isSpace (spaces c member),
        fun c member => (plainStarted c member).1⟩
  refine ⟨skipped, seen, lead, frontSplit, leadEnds, between, ?_, ?_, ?_⟩
  · rw [view]
  · rw [view, Window.shown]
    dsimp only
    rw [statement]
    simp [headSplit]
  · refine Window.target_of_head ?_ ?_ between site.hidden_above site.indented declares
    · have start := (window style site.document line).line_isPrefix
      have after : (window style site.document line).after
          = opened ++ (site.space ++ [site.separator] ++ shown) := by
        rw [view]
        exact List.append_assoc _ _ _
      rw [after] at start
      exact isDefineLine_head ends plainOpened start
    · rw [view]
      dsimp only
      rw [statement, before]
      simp [headSplit]

end DeclarationSite

--------------------------------------------------------------------------------
-- The comment above
--------------------------------------------------------------------------------

/-- A comment with only blanks in front of it, and a line feed and blanks behind it, is a trailing
comment. -/
theorem trailingComment?_above (above : CommentAbove) {indent : Text}
    (indented : ∀ c ∈ indent, isBlank c = true)
    : trailingComment? (above.indent ++ above.comment ++ ['\n'] ++ indent)
      = some (above.indent, above.comment) := by
  exact trailingComment?_eq_some_iff.mpr
    ⟨above.body, '\n' :: indent, by simp, rfl, above.indented, above.closeless, .feed indented⟩

/-- No trailing comment is read where something else follows the blanks. -/
theorem trailingComment?_eq_none {text : Text}
    (unopened : ∀ c, (text.dropWhile isBlank).head? = some c → c ≠ '/')
    : trailingComment? text = none := by
  have missing : Text.after? "/**".toList (text.dropWhile isBlank) = none := by
    cases behind : text.dropWhile isBlank with
    | nil => rfl
    | cons c rest =>
        rw [behind] at unopened
        exact Text.after?_cons_of_ne (unopened c rfl) _ rest
  rw [trailingComment?, missing]
  rfl

/-- No trailing comment starts in front of a comment on lines of its own: the line before it ends
first. -/
theorem findFirst?_above (above : CommentAbove) {lead indent : Text} (ends : EndsLine lead)
    (between : ∀ c ∈ lead, IsBetween c) (indented : ∀ c ∈ indent, isBlank c = true)
    : Text.findFirst? trailingComment? (lead ++ (above.indent ++ above.comment ++ ['\n'] ++ indent))
      = some (lead, above.indent, above.comment) := by
  rw [Text.findFirst?_append, Text.findFirst?_here (trailingComment?_above above indented)]
  · simp
  · intro c later position
    have last : (c :: later).getLast? = some '\n' := by
      obtain ⟨passed, rfl⟩ := position
      rcases ends with empty | feed
      · simp at empty
      · simpa [List.getLast?_append] using feed
    obtain ⟨line, whole⟩ := List.getLast?_eq_some_iff.mp last
    refine trailingComment?_eq_none fun d first => ?_
    rw [whole, List.append_assoc, List.singleton_append,
      Text.dropWhile_append_stop (by decide)] at first
    cases left : line.dropWhile isBlank with
    | nil =>
        obtain rfl : '\n' = d := by simpa [left] using first
        decide
    | cons e left' =>
        obtain rfl : e = d := by simpa [left] using first
        have among : e ∈ line := (List.dropWhile_suffix isBlank).subset (left ▸ List.mem_cons_self)
        refine (between e (position.subset ?_)).outside.2.2.2
        rw [whole]
        exact List.mem_append_left _ among

theorem findFirst?_bare {text : Text} (absent : '/' ∉ text)
    : Text.findFirst? trailingComment? text = none := by
  have passed := @Text.findFirst?_append _ trailingComment? text [] fun c later position => by
    refine trailingComment?_eq_none fun d first => ?_
    rintro rfl
    rw [List.append_nil] at first
    have among := (List.dropWhile_suffix isBlank).subset (List.mem_of_head? first)
    exact absent (position.subset among)
  rw [List.append_nil] at passed
  rw [passed]
  rfl

--------------------------------------------------------------------------------
-- What is generated
--------------------------------------------------------------------------------

namespace DeclarationSite

variable {site : DeclarationSite} {style : Style} {line : Nat} {declaration : Declaration}

/-- A comment above the head is replaced. Witness: it is the trailing comment before the target, and
no slash follows it up to the end of the head.
-/
theorem generateAt_documented {above : CommentAbove} (documented : site.comment? = some above)
    (shows : site.Shows style line)
    (declares : Declares style.inferDirection site.head declaration)
    : generateAt style site.document line
      = replaceComment style site.document (site.front ++ above.indent).length above.indent
          above.comment (some declaration) := by
  obtain ⟨skipped, seen, lead, front, leadEnds, between, start, shown, target⟩ :=
    exists_target shows declares
  have lines : site.above = above.indent ++ above.comment ++ ['\n'] := by
    simp only [DeclarationSite.above, documented]
  have found := findFirst?_above above leadEnds between site.indented
  have preceding : ((window style site.document line).target style.inferDirection).preceding
      = lead ++ (above.indent ++ above.comment ++ ['\n'] ++ site.indent) := by
    rw [target, lines]
    simp
  rw [← preceding] at found
  have missing : '/' ∉ '\n' :: (site.indent ++ site.head) := by
    rw [List.mem_cons, not_or]
    exact ⟨by decide, fun slash => (plain_head declares _ slash).2 rfl⟩
  have ends : above.comment.getLast? = some '/' := by
    rw [CommentAbove.comment, List.getLast?_append]
    rfl
  have last := Text.lastIndexOf?_append ends missing (seen ++ above.indent)
  have place : Text.lastIndexOf? above.comment (window style site.document line).shown
      = some (seen ++ above.indent).length := by
    rw [shown, lines, ← last]
    simp
  rw [generateAt_of_comment found, place, start, target, front]
  simp

/-- Without a comment above the head the block goes above it. -/
theorem generateAt_undocumented (undocumented : site.comment? = none)
    (shows : site.Shows style line)
    (declares : Declares style.inferDirection site.head declaration)
    : generateAt style site.document line
      = insertAbove style site.document (site.front ++ site.indent).length declaration := by
  obtain ⟨skipped, seen, lead, front, -, between, start, shown, target⟩ :=
    exists_target shows declares
  have lines : site.above = [] := by
    simp only [DeclarationSite.above, undocumented]
  have absent : '/'
      ∉ ((window style site.document line).target style.inferDirection).preceding := by
    rw [target, lines, List.append_nil]
    intro slash
    rcases List.mem_append.mp slash with front | inside
    · exact (between _ front).outside.2.2.2 rfl
    · exact (plain_head declares _ (List.mem_append_left _ inside)).2 rfl
  have last := @Text.lastIndexOf?_append site.head [] ')' declares.ends (by simp)
    (seen ++ site.indent)
  have place : Text.lastIndexOf? declaration.signature (window style site.document line).shown
      = some (seen ++ site.indent).length := by
    rw [shown, lines, declares.whole, ← last]
    simp
  rw [generateAt_of_declaration (findFirst?_bare absent) (by rw [target]), place, start, front]
  simp

end DeclarationSite

/-- From every line of a head, what is generated is the block of its declaration. A comment directly
above the head is merged into the declaration and replaced at its place, with its own indentation;
without one the block goes to the start of the head's first line, with the indentation of the head.
Witness: the comment, or else the head, is found where it stands, on the line behind the code in
front.
-/
theorem generate_at_declaration (style : Style) (site : DeclarationSite) (line : Nat)
    (declaration : Declaration) (feeds : '\r' ∉ site.document) (shows : site.Shows style line)
    (declares : Declares style.inferDirection site.head declaration)
    : generate style site.document line
      = match site.comment? with
        | some above =>
            let merged :=
              Declaration.merge true declaration
                (Documentation.read style.inferDirection above.comment)
            {
              snippet := Block.snippet style above.indent [] merged
              anchor := {
                edit := .replace
                start := (site.front ++ above.indent).length
                stop := (site.front ++ above.indent ++ above.comment).length
                line := site.front.count '\n'
                character := above.indent.length
              }
              declaration := some merged
            }
        | none =>
            {
              snippet := Block.snippet style site.indent site.indent declaration
                ++ [.literal ['\n']]
              anchor := {
                edit := .insert
                start := site.front.length
                stop := site.front.length
                line := site.front.count '\n'
                character := 0
              }
              declaration := some declaration
            } := by
  rw [generate, Text.normaliseBreaks_of_not_mem feeds]
  have flat {indent : Text} (indented : ∀ c ∈ indent, isBlank c = true) : '\n' ∉ indent :=
    fun feed => absurd (indented _ feed) (by decide)
  cases found : site.comment? with
  | some above =>
      obtain ⟨rest, whole⟩ : ∃ rest, site.document = site.front ++ above.indent ++ rest := by
        simp [DeclarationSite.document, DeclarationSite.above, found]
      have place := anchor_append site.settled.ends (flat above.indented) .replace
        ((site.front ++ above.indent).length + above.comment.length) rest
      rw [← whole] at place
      rw [DeclarationSite.generateAt_documented found shows declares, replaceComment, place,
        ← List.length_append]
  | none =>
      obtain ⟨rest, whole⟩ : ∃ rest,
          site.document = site.front ++ site.indent ++ (site.head ++ rest) := by
        simp [DeclarationSite.document, DeclarationSite.above, found]
      have width := column_append site.settled.ends (flat site.indented) (site.head ++ rest)
      rw [← whole] at width
      have start : (site.front ++ site.indent).length - site.indent.length = site.front.length := by
        simp
      have indent : Text.indentation (site.document.drop site.front.length) = site.indent := by
        have outside : ∀ c, (site.head ++ rest).head? = some c → isBlank c = false := by
          obtain ⟨c, first, word⟩ := declares.starts
          intro d same
          rw [List.head?_append, first] at same
          obtain rfl : c = d := Option.some.inj same
          exact Text.isBlank_of_isWord word
        rw [whole, List.append_assoc, List.drop_left]
        exact Text.takeWhile_run site.indented outside
      have place := anchor_append site.settled.ends (List.not_mem_nil : '\n' ∉ []) .insert
        site.front.length (site.indent ++ (site.head ++ rest))
      rw [List.append_nil, ← List.append_assoc, ← whole] at place
      rw [DeclarationSite.generateAt_undocumented found shows declares, insertAbove]
      simp only [width, start, indent, place, List.length_nil]

/-- A function with a head of two lines. -/
def wrapped : Declaration where
  name := "move".toList
  returns := true
  parameters :=
    [
      .declared "x".toList (some "int".toList) (some 0) true,
      .declared "y".toList (some "int".toList) (some 1) true
    ]
  signature := "int move(int x,\n           int y)".toList

theorem declares_wrapped : Declares true wrapped.signature wrapped where
  starts := ⟨'i', rfl, by decide⟩
  ends := by decide
  plain := by decide
  declared := by decide +kernel
  whole := rfl

/-- A comment of three lines. -/
def wrappedComment : CommentAbove where
  indent := "  ".toList
  body := " Move.\n   * @param y the step\n   ".toList
  indented := by decide
  closeless := by decide
  unclosed := by decide

/-- The wrapped head behind a declaration and an empty line. -/
def wrappedSite (comment? : Option CommentAbove) : DeclarationSite where
  front := "int a;\n\n".toList
  comment?
  indent := "  ".toList
  head := wrapped.signature
  space := "\n".toList
  separator := '{'
  rest := "\x7d\n".toList
  settled :=
    ⟨by decide, by decide, by decide, "int a;".toList, "\n\n".toList, rfl, by simp, by decide⟩
  indented := by decide
  spaced := Text.isSpace_of_mem_feed
  separates := by decide

/-- From the second line of the head, the comment above it is replaced, and without one a block goes
above its first line. -/
theorem generate_at_wrapped
    : (generate .default (wrappedSite (some wrappedComment)).document 6).anchor
        = { edit := .replace, start := 10, stop := 48, line := 2, character := 2 }
      ∧ (generate .default (wrappedSite none).document 3).anchor
        = { edit := .insert, start := 8, stop := 8, line := 2, character := 0 } := by
  have documented := generate_at_declaration .default (wrappedSite (some wrappedComment)) 6 wrapped
    (by decide) ⟨by decide, by decide, by decide, by decide⟩ declares_wrapped
  have undocumented := generate_at_declaration .default (wrappedSite none) 3 wrapped
    (by decide) ⟨by decide, by decide, by decide, by decide⟩ declares_wrapped
  exact ⟨congrArg Generation.anchor documented, congrArg Generation.anchor undocumented⟩

end DocBlock.Document
