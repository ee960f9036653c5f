import DocBlock.Proofs.Document.CommentedHead

/-! A comment in the parameter list of a function, compared with spaces in its place. The function
is found in the text without comments, but its place in the text with them: a comment above the
function is missed, and a block goes to the line on which the head without the comment is shown, or
else to the cursor line.
-/

namespace DocBlock.Document

open Comment (isDelimiter mask)
open Text (isBlank)

--------------------------------------------------------------------------------
-- The window at a commented head
--------------------------------------------------------------------------------

/-- The same site with another head. -/
def DeclarationSite.withHead (site : DeclarationSite) (head : Text) : DeclarationSite :=
  { site with head }

theorem DeclarationSite.document_withHead (site : DeclarationSite) (head : Text)
    : (site.withHead head).document
      = site.front ++ site.above ++ (site.indent ++ head) ++ (site.space ++ [site.separator])
        ++ site.rest :=
  rfl

/-- The part of the code in front of the head that the window shows. -/
def DeclarationSite.seen (site : DeclarationSite) (style : Style) (line : Nat) : Text :=
  site.front.drop (window style site.document line).start

/-- A comment on one line stands on one side of the start of a line. -/
theorem cursor_beside_comment {front comment rest started opened : Text}
    (whole : front ++ comment ++ rest = started ++ opened) (ends : EndsLine started)
    (unbroken : '\n' ∉ comment)
    : (∃ more, front = started ++ more ∧ opened = more ++ comment ++ rest)
      ∨ ∃ more, started = front ++ comment ++ more ∧ rest = more ++ opened := by
  rcases List.append_eq_append_iff.mp whole with ⟨more, line, later⟩ | ⟨more, line, later⟩
  · exact .inr ⟨more, line, later⟩
  · rcases List.append_eq_append_iff.mp line with ⟨part, rfl, rfl⟩ | ⟨part, rfl, rfl⟩
    · have none := ends.eq_nil_of_append fun feed => unbroken (List.mem_append_left _ feed)
      subst none
      exact .inl ⟨[], by simp, by simpa using later⟩
    · exact .inl ⟨part, rfl, later⟩

namespace DeclarationSite

variable {site : DeclarationSite} {head : CommentedHead} {style : Style} {line : Nat}
variable {declaration : Declaration}

/-- A head of as many lines is shown from the same lines. -/
theorem Shows.exchange {first second : Text} (same : first.count '\n' = second.count '\n')
    (shows : (site.withHead first).Shows style line)
    : (site.withHead second).Shows style line := by
  have last : line ≤ (site.front ++ site.above ++ site.indent ++ first).count '\n' := shows.last
  have ahead : (site.front ++ site.above ++ site.indent ++ first ++ site.space).count '\n'
      < line + style.lookaheadLines := shows.ahead
  have lines (text : Text) : (text ++ first).count '\n' = (text ++ second).count '\n' := by
    rw [List.count_append, List.count_append, same]
  rw [lines] at last
  rw [List.count_append, lines, ← List.count_append] at ahead
  exact ⟨shows.first, last, shows.behind, ahead⟩

/-- The text of a commented head in front of its comment, and behind it. -/
theorem plain_commented (site : DeclarationSite)
    (declares : Declares style.inferDirection head.bare declaration)
    : (∀ c ∈ site.indent ++ head.opening, isDelimiter c = false ∧ c ≠ '/')
      ∧ ∀ c ∈ head.closing, isDelimiter c = false ∧ c ≠ '/' := by
  have plain := @plain_head (site.withHead head.bare) _ _ declares
  have whole : site.indent ++ head.bare = site.indent ++ head.opening ++ head.closing := by
    simp [CommentedHead.bare]
  exact List.forall_mem_append.mp (whole ▸ plain)

/-- A commented head that goes on behind a line start, in front of its comment, is the first
statement there. -/
theorem firstStatement_commented {more later : Text}
    (plain : ∀ c ∈ more, isDelimiter c = false ∧ c ≠ '/') (unclosed : ')' ∉ more)
    (plainClosing : ∀ c ∈ head.closing, isDelimiter c = false ∧ c ≠ '/')
    : firstStatement (more ++ head.comment ++ head.closing
        ++ (site.space ++ site.separator :: later))
      = more ++ head.comment ++ head.closing := by
  have closing := @firstStatement_head head.closing _ later _ (by simp [CommentedHead.closing])
    plainClosing site.spaced site.separates
  rw [List.append_assoc, List.append_assoc, firstStatement_append (.of_plain plain),
    CommentedHead.comment, firstStatement_block head.closeless, closing]
  · simp
  · intro c inner position
    have member := position.subset List.mem_cons_self
    have undelimited := (plain c member).1
    simp only [isDelimiter, Bool.or_eq_false_iff, decide_eq_false_iff_not] at undelimited
    refine statementEnd?_eq_none ⟨undelimited.1.2, undelimited.2, ?_⟩ _
    rintro rfl
    exact unclosed member

/-- No directive stands at the start of a line on which a commented head goes on. -/
theorem isDefineLine_commented {more rest text : Text}
    (plain : ∀ c ∈ more, isDelimiter c = false ∧ c ≠ '/')
    (start : text <+: more ++ head.comment ++ head.closing ++ rest)
    : isDefineLine text = false := by
  have opened : (more ++ head.comment ++ head.closing).dropWhile isBlank
      = more.dropWhile isBlank ++ (head.comment ++ head.closing) := by
    rw [List.append_assoc]
    exact Text.dropWhile_append_stop (by decide) more _
  cases blanks : more.dropWhile isBlank with
  | nil =>
      rw [blanks] at opened
      exact isDefineLine_of_start (by rw [opened]; rfl) (by decide) start
  | cons c inner =>
      rw [blanks] at opened
      refine isDefineLine_of_start (by rw [opened]; rfl) ?_ start
      rintro rfl
      have member : '#' ∈ more :=
        (List.dropWhile_suffix isBlank).subset (blanks ▸ List.mem_cons_self)
      exact absurd (plain _ member).1 (by decide)

/-- What a line start leaves of a commented head behind it is the first statement there, and no
directive; in front of it no delimiter is shown. Witness: the comment lies on one side of the line
start.
-/
theorem split_commented {started opened : Text}
    (declares : Declares style.inferDirection head.bare declaration)
    (whole : site.indent ++ head.written = started ++ opened) (ends : EndsLine started)
    (later : Text)
    : firstStatement (opened ++ (site.space ++ site.separator :: later)) = opened
      ∧ (∀ text, text <+: opened ++ (site.space ++ site.separator :: later)
          → isDefineLine text = false)
      ∧ ∀ c ∈ mask started, isDelimiter c = false := by
  obtain ⟨plainOpening, plainClosing⟩ := site.plain_commented declares
  have parts : site.indent ++ head.opening ++ head.comment ++ head.closing = started ++ opened := by
    rw [← whole]
    simp [CommentedHead.written]
  rcases cursor_beside_comment parts ends head.unbroken_comment with
    ⟨more, front, rfl⟩ | ⟨more, rfl, rest⟩
  · have unclosed : ')' ∉ site.indent ++ head.opening := by
      rw [List.mem_append, not_or]
      exact ⟨fun inside => absurd (site.indented _ inside) (by decide), head.close_not_mem_opening⟩
    rw [front] at plainOpening unclosed
    obtain ⟨plainStarted, plainMore⟩ := List.forall_mem_append.mp plainOpening
    refine ⟨firstStatement_commented plainMore ?_ plainClosing,
      fun text start => isDefineLine_commented plainMore start, ?_⟩
    · exact fun inside => unclosed (List.mem_append_right _ inside)
    · rw [Comment.mask_eq_self (.of_plain plainStarted)]
      exact fun c member => (plainStarted c member).1
  · have last : opened.getLast? = some ')' := by
      refine ends.getLast?_behind ?_ (by decide)
      rw [← parts, List.getLast?_append]
      simp [CommentedHead.closing]
    rw [rest] at plainClosing
    obtain ⟨plainMore, plainOpened⟩ := List.forall_mem_append.mp plainClosing
    refine ⟨firstStatement_head last plainOpened site.spaced site.separates,
      fun text start => isDefineLine_head last plainOpened start, ?_⟩
    rw [List.append_assoc, Comment.mask_append (.of_plain plainOpening), CommentedHead.comment,
      Comment.mask_block_append head.closeless, Comment.mask_eq_self (.of_plain plainMore)]
    refine List.forall_mem_append.mpr ⟨fun c member => (plainOpening c member).1,
      List.forall_mem_append.mpr ⟨fun c member => ?_, fun c member => (plainMore c member).1⟩⟩
    rcases Comment.mem_blankOut member with rfl | rfl <;> decide

/-- What a window at a commented head shows: some of the code in front, and all from there to the
end of the head. Its target is the function of the bare head, and what precedes this target is cut
where the bare head is last found behind the last delimiter. -/
structure ViewsCommented (site : DeclarationSite) (head : CommentedHead) (window : Window)
    (inferDirection : Bool) (declaration : Declaration) (skipped seen lead started : Text)
    : Prop where
  front : site.front = skipped ++ seen
  leads : lead <:+ seen
  between : ∀ c ∈ lead, IsBetween c
  starts : started <+: site.indent ++ head.written
  ends : EndsLine started
  start : window.start = skipped.length
  cursor : window.cursor = (site.front ++ site.above ++ started).length
  shown : window.shown = seen ++ site.above ++ site.indent ++ head.written
  target : window.target inferDirection
    = {
      declaration := some declaration
      preceding := beforeLast head.bare (lead ++ site.above ++ site.indent ++ head.written)
    }

/-- Of a commented head and what stands above it, stripping leaves the bare head behind white space
and delimiters. -/
theorem exists_strip_commented {lead : Text} (between : ∀ c ∈ lead, IsBetween c)
    (declares : Declares style.inferDirection head.bare declaration)
    : ∃ front,
        Comment.strip (lead ++ site.above ++ site.indent ++ head.written) = front ++ head.bare
        ∧ ∀ c ∈ front, IsBetween c := by
  obtain ⟨plainOpening, plainClosing⟩ := site.plain_commented declares
  have kept : Comment.delete Comment.block? (site.indent ++ head.written)
      = site.indent ++ head.bare := by
    calc Comment.delete Comment.block? (site.indent ++ head.written)
      _ = Comment.delete Comment.block?
          (site.indent ++ head.opening ++ (head.comment ++ head.closing)) := by
        simp [CommentedHead.written]
      _ = site.indent ++ head.opening ++ head.closing := by
        rw [Comment.delete_block_append (.of_plain plainOpening), CommentedHead.comment,
          Comment.delete_block_comment head.closeless,
          Comment.delete_block_eq_self (.of_plain plainClosing)]
      _ = site.indent ++ head.bare := List.append_assoc _ _ _
  have plainBare : ∀ c ∈ site.indent ++ head.bare, c ≠ '#' ∧ c ≠ '/' := by
    intro c member
    obtain ⟨undelimited, slashless⟩ := @plain_head (site.withHead head.bare) _ _ declares c member
    refine ⟨?_, slashless⟩
    rintro rfl
    exact absurd undelimited (by decide)
  obtain ⟨left, stripped, blanks⟩ :=
    site.hidden_above.exists_strip (fun c member => (between c member).outside.2.2) kept plainBare
  refine ⟨lead ++ left ++ site.indent, by simpa using stripped, ?_⟩
  refine List.forall_mem_append.mpr ⟨List.forall_mem_append.mpr ⟨between, ?_⟩, ?_⟩
  · exact fun c member => .inl (blanks c member)
  · exact fun c member => .inl (Text.isSpace_of_isBlank (site.indented c member))

/-- The window at any line of a commented head shows it. -/
theorem exists_views (shows : (site.withHead head.written).Shows style line)
    (declares : Declares style.inferDirection head.bare declaration)
    : ∃ skipped seen lead started,
        (site.front ++ site.above ++ started).count '\n' = line
        ∧ ViewsCommented site head (window style (site.withHead head.written).document line)
            style.inferDirection declaration skipped seen lead started := by
  obtain ⟨skipped, seen, started, opened, later, front, whole, ends, counted, view⟩
      : ∃ skipped seen started opened later,
        site.front = skipped ++ seen
        ∧ site.indent ++ head.written = started ++ opened
        ∧ EndsLine started
        ∧ (site.front ++ site.above ++ started).count '\n' = line
        ∧ window style (site.withHead head.written).document line
          = {
            start := skipped.length
            cursor := (site.front ++ site.above ++ started).length
            before := seen ++ site.above ++ started
            after := opened ++ (site.space ++ [site.separator]) ++ later
          } := exists_view shows
  have reached : opened ++ (site.space ++ [site.separator]) ++ later
      = opened ++ (site.space ++ site.separator :: later) := by simp
  rw [reached] at view
  obtain ⟨lead, -, between, since⟩ := (Settled.of_append (front ▸ site.settled)).exists_lead
  obtain ⟨statement, undirected, undelimited⟩ := split_commented declares whole ends later
  have masked : ∀ c ∈ mask (site.above ++ started), isDelimiter c = false := by
    obtain ⟨blank, shape, spaces⟩ := site.hidden_above.masked started
    rw [shape]
    exact List.forall_mem_append.mpr
      ⟨fun c member => Comment.isDelimiter_of_isSpace (spaces c member), undelimited⟩
  have before : Comment.sinceLastDelimiter (seen ++ site.above ++ started)
      = lead ++ (site.above ++ started) := by
    rw [List.append_assoc]
    exact since _ masked
  have leads : lead <:+ seen := by
    obtain ⟨passed, suffix⟩ := Comment.sinceLastDelimiter_isSuffix (seen ++ site.above ++ started)
    rw [before, List.append_assoc seen, ← List.append_assoc passed] at suffix
    exact ⟨passed, List.append_cancel_right suffix⟩
  obtain ⟨passed, stripped, separates⟩ := @exists_strip_commented site _ _ _ _ between declares
  refine ⟨skipped, seen, lead, started, counted, front, leads, between, ⟨opened, whole.symm⟩, ends,
    by rw [view], by rw [view], ?_, ?_⟩
  · simp only [view, Window.shown, statement, List.append_assoc, whole]
  · refine Window.target_of_stripped (undirected _ ?_) ?_ stripped separates declares
    · rw [view]
      exact Window.line_isPrefix _
    · rw [view]
      dsimp only
      rw [before, statement]
      simp only [List.append_assoc, whole]

end DeclarationSite

--------------------------------------------------------------------------------
-- Where the block goes
--------------------------------------------------------------------------------

/-- A block above a declaration goes to the start of its line. -/
theorem anchor_insertAbove {style : Style} {front text : Text} (ends : EndsLine front)
    (flat : '\n' ∉ text) (rest : Text) (declaration : Declaration)
    : (insertAbove style (front ++ text ++ rest) (front ++ text).length declaration).anchor
      = {
        edit := .insert
        start := front.length
        stop := front.length
        line := front.count '\n'
        character := 0
      } := by
  have start : (front ++ text).length - column (front ++ text ++ rest) (front ++ text).length
      = front.length := by
    rw [column_append ends flat, List.length_append, Nat.add_sub_cancel]
  have place := anchor_append ends (List.not_mem_nil : '\n' ∉ []) .insert front.length
    (text ++ rest)
  rw [List.append_nil, ← List.append_assoc] at place
  simp only [insertAbove, start, place, List.length_nil]

/-- It goes to a line start in front of the declaration exactly if no line starts between the
two. -/
theorem anchor_insertAbove_iff {style : Style} {front : Text} (ends : EndsLine front)
    (text rest : Text) (declaration : Declaration)
    : (insertAbove style (front ++ text ++ rest) (front ++ text).length declaration).anchor
        = {
          edit := .insert
          start := front.length
          stop := front.length
          line := front.count '\n'
          character := 0
        }
      ↔ '\n' ∉ text := by
  refine ⟨fun same => ?_, fun flat => anchor_insertAbove ends flat rest declaration⟩
  obtain ⟨lines, last, behind, whole, size, linesEnd, flat⟩ :=
    exists_lineOf (Nat.le_refl text.length)
  obtain rfl : behind = [] := by
    have total := congrArg List.length whole
    rw [List.length_append, size] at total
    exact List.eq_nil_of_length_eq_zero (by omega)
  rw [List.append_nil] at whole
  subst whole
  rw [← List.append_assoc front, anchor_insertAbove (ends.append linesEnd) flat rest] at same
  have start := congrArg Anchor.start same
  simp only [List.length_append] at start
  obtain rfl : lines = [] := List.eq_nil_of_length_eq_zero (by omega)
  exact flat

/-- What is generated for a declaration has its name, and describes this very declaration if it is
inserted. -/
theorem exists_declared {style : Style} {document : Text} {line : Int} {declaration : Declaration}
    (declared : ((window style document line).target style.inferDirection).declaration
      = some declaration)
    : ∃ described,
        (generateAt style document line).declaration = some described
        ∧ described.name = declaration.name
        ∧ ((generateAt style document line).anchor.edit = .insert → described = declaration) := by
  cases found : Text.findFirst? trailingComment?
      ((window style document line).target style.inferDirection).preceding with
  | none =>
      rw [generateAt_of_declaration found declared]
      exact ⟨declaration, rfl, rfl, fun _ => rfl⟩
  | some comment =>
      obtain ⟨passed, indent, comment⟩ := comment
      rw [generateAt_of_comment found, declared]
      exact ⟨_, rfl, rfl, by rintro ⟨⟩⟩

namespace DeclarationSite

variable {site : DeclarationSite} {head : CommentedHead} {style : Style} {line : Nat}
variable {declaration : Declaration}

/-- The anchor of a block above the head: the start of the line behind the code in front. -/
def insertion (site : DeclarationSite) : Anchor where
  edit := .insert
  start := site.front.length
  stop := site.front.length
  line := site.front.count '\n'
  character := 0

theorem above_of_undocumented (undocumented : site.comment? = none) : site.above = [] := by
  simp only [DeclarationSite.above, undocumented]

/-- Without a comment above, only white space and delimiters stand between the code in front and the
head. -/
theorem between_undocumented {lead : Text} (undocumented : site.comment? = none)
    (between : ∀ c ∈ lead, IsBetween c)
    : ∀ c ∈ lead ++ site.above ++ site.indent, IsBetween c := by
  rw [above_of_undocumented undocumented, List.append_nil]
  refine List.forall_mem_append.mpr ⟨between, fun c member => ?_⟩
  exact .inl (Text.isSpace_of_isBlank (site.indented c member))

/-- No comment is opened in front of the one in the list. -/
theorem slash_not_mem_front {front : Text} (between : ∀ c ∈ front, IsBetween c)
    (declares : Declares style.inferDirection head.bare declaration)
    : '/' ∉ front ++ head.opening := by
  rw [List.mem_append, not_or]
  exact ⟨fun slash => (between _ slash).outside.2.2.2 rfl, (head.slash_not_mem_bare declares).1⟩

/-- A bare head in the comment is taken for the head: the block goes above the line of the comment.
Witness: the comment is still open in front of it, so nothing there is a trailing comment.
-/
theorem repeated_insertion_iff (undocumented : site.comment? = none)
    (shows : (site.withHead head.written).Shows style line)
    (declares : Declares style.inferDirection head.bare declaration)
    (inside : head.bare <:+: head.body)
    : (generateAt style (site.withHead head.written).document line).anchor = site.insertion
      ↔ '\n' ∉ head.opening := by
  obtain ⟨skipped, seen, lead, started, -, views⟩ := exists_views shows declares
  obtain ⟨i, found⟩ := Text.lastIndexOf?_isSome inside
  obtain ⟨part, later, body, rfl⟩ := Text.lastIndexOf?_sound found
  rw [List.append_assoc] at body
  have above := above_of_undocumented undocumented
  have between := between_undocumented undocumented views.between
  have missing : Text.findFirst? trailingComment?
      ((window style (site.withHead head.written).document line).target
        style.inferDirection).preceding = none := by
    rw [views.target]
    dsimp only
    rw [CommentedHead.beforeLast_repeated declares body found, List.append_assoc]
    exact CommentedHead.findFirst?_open (slash_not_mem_front between declares)
      (head.closeless.of_isInfix ⟨[], head.bare ++ later, body.symm⟩)
  have place := CommentedHead.lastIndexOf?_repeated declares found
    (seen ++ site.above ++ site.indent)
  rw [← views.shown, ← declares.whole] at place
  have document : (site.withHead head.written).document
      = site.front ++ (site.indent ++ head.opening ++ "/*".toList ++ part)
        ++ (head.bare ++ later ++ "*/".toList ++ head.closing ++ (site.space ++ [site.separator])
          ++ site.rest) := by
    rw [document_withHead, above, CommentedHead.written, CommentedHead.comment, body]
    simp
  have offset : (window style (site.withHead head.written).document line).start
        + (seen ++ site.above ++ site.indent ++ head.opening ++ "/*".toList ++ part).length
      = (site.front ++ (site.indent ++ head.opening ++ "/*".toList ++ part)).length := by
    rw [views.start, views.front, above, ← List.length_append]
    simp only [List.append_nil, List.append_assoc]
  rw [generateAt_of_declaration missing (by rw [views.target]), place]
  dsimp only
  rw [offset, document]
  refine (anchor_insertAbove_iff site.settled.ends _ _ declaration).trans ?_
  have comment : '\n' ∉ part := fun feed => head.unbroken (body ▸ List.mem_append_left _ feed)
  simp [site.unbroken_indent, comment]

theorem ViewsCommented.seen_eq {skipped seen lead started : Text}
    (views : ViewsCommented site head
      (window style (site.withHead head.written).document line) style.inferDirection declaration
      skipped seen lead started)
    : (site.withHead head.written).seen style line = seen := by
  have front : (site.withHead head.written).front = skipped ++ seen := views.front
  rw [DeclarationSite.seen, views.start, front, List.drop_left]

/-- Otherwise the block goes above the head only from its first line, and only if nothing is taken
for the head or for its comment. Witness: the bare head is found in the code in front or nowhere,
and then the cursor line stands for it.
-/
theorem unrepeated_insertion_iff (undocumented : site.comment? = none)
    (shows : (site.withHead head.written).Shows style line)
    (declares : Declares style.inferDirection head.bare declaration)
    (absent : ¬ head.bare <:+: head.body)
    : (generateAt style (site.withHead head.written).document line).anchor = site.insertion
      ↔ ¬ head.bare <:+: (site.withHead head.written).seen style line
        ∧ line = site.front.count '\n'
        ∧ ¬ head.endsDocumented := by
  obtain ⟨skipped, seen, lead, started, counted, views⟩ := exists_views shows declares
  rw [views.seen_eq]
  have above := above_of_undocumented undocumented
  have between := between_undocumented undocumented views.between
  have plain : '/' ∉ head.behind := fun slash =>
    (head.slash_not_mem_bare declares).2 (List.mem_append_left _ slash)
  have preceding : ((window style (site.withHead head.written).document line).target
        style.inferDirection).preceding
      = lead ++ site.above ++ site.indent ++ head.opening ++ (head.comment ++ head.behind) := by
    rw [views.target]
    exact CommentedHead.beforeLast_unrepeated declares absent fun opened =>
      (between _ opened).outside.2.1 rfl
  have trailing := @CommentedHead.exists_trailing_iff head _ (slash_not_mem_front between declares)
    plain
  rw [← preceding] at trailing
  by_cases documented : head.endsDocumented
  · obtain ⟨⟨passed, indent, comment⟩, found⟩ := trailing.mpr documented
    rw [generateAt_of_comment found, views.target]
    refine ⟨fun same => ?_, fun conditions => absurd documented conditions.2.2⟩
    have edit : Edit.replace = Edit.insert := congrArg Anchor.edit same
    contradiction
  · have missing : Text.findFirst? trailingComment?
        ((window style (site.withHead head.written).document line).target
          style.inferDirection).preceding = none := by
      rw [Option.eq_none_iff_forall_not_mem]
      exact fun found here => documented (trailing.mp ⟨found, here⟩)
    have place : Text.lastIndexOf? declaration.signature
          (window style (site.withHead head.written).document line).shown
        = Text.lastIndexOf? head.bare seen := by
      have unclosed : ')' ∉ site.indent := fun inside =>
        absurd (site.indented _ inside) (by decide)
      rw [declares.whole, views.shown, CommentedHead.lastIndexOf?_unrepeated declares absent, above,
        List.append_nil, Text.lastIndexOf?_append_right declares.ends unclosed]
    rw [generateAt_of_declaration missing (by rw [views.target]), place]
    cases earlier : Text.lastIndexOf? head.bare seen with
    | some i =>
        obtain ⟨front, later, whole, rfl⟩ := Text.lastIndexOf?_sound earlier
        refine ⟨fun same => ?_, fun conditions => absurd ⟨front, later, whole.symm⟩ conditions.1⟩
        have start := congrArg Anchor.start same
        have positive := List.length_pos_iff.mpr head.bare_ne_nil
        have size : site.front.length
            = skipped.length + (front.length + head.bare.length + later.length) := by
          rw [views.front, whole]
          simp only [List.length_append]
        simp only [insertAbove, anchor, insertion, views.start] at start
        omega
    | none =>
        obtain ⟨opened, whole⟩ := views.starts
        have document : (site.withHead head.written).document
            = site.front ++ started
              ++ (opened ++ (site.space ++ [site.separator]) ++ site.rest) := by
          rw [document_withHead, above, ← whole]
          simp
        have cursor : (window style (site.withHead head.written).document line).cursor
            = (site.front ++ started).length := by
          rw [views.cursor, above, List.append_nil]
        have unseen : ¬ head.bare <:+: seen := by
          intro inside
          obtain ⟨i, found⟩ := Text.lastIndexOf?_isSome inside
          rw [earlier] at found
          contradiction
        dsimp only
        rw [cursor, document]
        refine (anchor_insertAbove_iff site.settled.ends _ _ declaration).trans ?_
        rw [above, List.append_nil, List.count_append] at counted
        rw [← List.count_eq_zero]
        refine ⟨fun flat => ⟨unseen, by omega, documented⟩, fun conditions => ?_⟩
        have first := conditions.2.1
        omega

/-- The comment above the head is no trailing comment of what is cut in front of a bare head, where
it is the last of its text that is shown. Witness: it is found at its own place then, with only a
gap behind it, but the text is cut further on.
-/
theorem comment_above_not_trailing {above : CommentAbove} {lead seen passed gap : Text}
    (declares : Declares style.inferDirection head.bare declaration) (leads : lead <:+ seen)
    (between : ∀ c ∈ lead, IsBetween c) (isGap : IsGap gap)
    (last : Text.lastIndexOf? above.comment
        (seen ++ above.indent ++ (above.comment ++ ('\n' :: site.indent ++ head.written)))
      = some (seen ++ above.indent).length)
    : beforeLast head.bare
        (lead ++ above.indent ++ (above.comment ++ ('\n' :: site.indent ++ head.written)))
      ≠ passed ++ (above.comment ++ gap) := by
  intro found
  have nonempty : lead ++ above.indent
      ++ (above.comment ++ ('\n' :: site.indent ++ head.written)) ≠ [] := by
    simp
  obtain ⟨rest, whole, cut⟩ := exists_cut_off head.bare nonempty
  rw [found, List.append_assoc passed, List.append_assoc above.comment] at whole
  obtain ⟨earlier, rfl⟩ := leads
  have slashless : '/' ∉ lead ++ above.indent := by
    rw [List.mem_append, not_or]
    exact ⟨fun slash => (between _ slash).outside.2.2.2 rfl,
      fun slash => absurd (above.indented _ slash) (by decide)⟩
  have behind : above.comment ++ (gap ++ rest)
      <:+ above.comment ++ ('\n' :: site.indent ++ head.written) :=
    Text.suffix_of_not_mem_left slashless ⟨passed, whole.symm⟩
  have bound : (earlier ++ passed).length ≤ (earlier ++ lead ++ above.indent).length := by
    refine @Text.length_le_of_lastIndexOf? above.comment _ (gap ++ rest) _ ?_
    rw [← last]
    congr 1
    simpa using congrArg (earlier ++ ·) whole.symm
  have total := congrArg List.length whole
  have size := behind.length_le
  simp only [List.length_append] at bound total size
  have same : above.comment ++ (gap ++ rest)
      = above.comment ++ ('\n' :: site.indent ++ head.written) := by
    refine behind.eq_of_length ?_
    simp only [List.length_append]
    omega
  exact CommentedHead.cut_off_ne declares isGap site.indented cut (List.append_cancel_left same)

/-- A comment above the head is not found. Witness: a comment that is replaced at its place would
have only a gap behind it, but the text is cut further on, in front of a bare head or of the end of
the list.
-/
theorem documented_not_replaced {above : CommentAbove} (documented : site.comment? = some above)
    (shows : (site.withHead head.written).Shows style line)
    (declares : Declares style.inferDirection head.bare declaration)
    : ¬ ((generateAt style (site.withHead head.written).document line).anchor.edit = .replace
      ∧ (generateAt style (site.withHead head.written).document line).anchor.start
        = (site.front ++ above.indent).length
      ∧ (generateAt style (site.withHead head.written).document line).anchor.stop
        = (site.front ++ above.indent).length + above.comment.length) := by
  obtain ⟨skipped, seen, lead, started, -, views⟩ := exists_views shows declares
  have lines (front : Text) : front ++ site.above ++ site.indent ++ head.written
      = front ++ above.indent ++ (above.comment ++ ('\n' :: site.indent ++ head.written)) := by
    simp [DeclarationSite.above, documented]
  cases found : Text.findFirst? trailingComment?
      ((window style (site.withHead head.written).document line).target
        style.inferDirection).preceding with
  | none =>
      rw [generateAt_of_declaration found (by rw [views.target])]
      rintro ⟨edit, -⟩
      contradiction
  | some result =>
      obtain ⟨passed, indent, comment⟩ := result
      obtain ⟨i, last⟩ := Text.lastIndexOf?_isSome (Window.comment_isInfix found)
      rw [generateAt_of_comment found, last, views.start, views.front]
      rintro ⟨-, start, stop⟩
      simp only [replaceComment, anchor, views.target, Option.getD_some, List.append_assoc,
        List.length_append] at start stop
      obtain ⟨front, later, shown, size⟩ := Text.lastIndexOf?_sound last
      rw [views.shown, lines, List.append_assoc front] at shown
      obtain ⟨rfl, text⟩ := List.append_inj shown.symm (by rw [size, List.length_append]; omega)
      obtain rfl : comment = above.comment := List.append_inj_left text (by omega)
      obtain ⟨rest, preceding, here⟩ := Text.findFirst?_sound found
      obtain ⟨body, gap, rfl, -, -, -, isGap⟩ := trailingComment?_eq_some_iff.mp here
      rw [views.shown, lines, ← size] at last
      rw [views.target, lines, List.append_assoc indent, ← List.append_assoc passed] at preceding
      exact comment_above_not_trailing declares views.leads views.between isGap last preceding

/-- With spaces in place of the comment, or without a comment at all, the block goes above the
head. -/
theorem anchor_undocumented (undocumented : site.comment? = none) (shows : site.Shows style line)
    (declares : Declares style.inferDirection site.head declaration)
    : (generateAt style site.document line).anchor = site.insertion := by
  have document : site.document
      = site.front ++ site.indent
        ++ (site.head ++ (site.space ++ [site.separator]) ++ site.rest) := by
    simp [DeclarationSite.document, above_of_undocumented undocumented]
  rw [generateAt_undocumented undocumented shows declares, document]
  exact anchor_insertAbove site.settled.ends site.unbroken_indent _ declaration

end DeclarationSite

--------------------------------------------------------------------------------
-- A comment and spaces in its place
--------------------------------------------------------------------------------

/-- Two generations have the same place, and describe a declaration of the same name with the same
parameters. -/
structure SameFinding (first second : Generation) : Prop where
  anchor : first.anchor = second.anchor
  name : first.declaration.map (·.name) = second.declaration.map (·.name)
  parameters : first.declaration.map (·.parameters) = second.declaration.map (·.parameters)

/-- A comment in the parameter list never changes the name that is found. It changes neither the
place nor the parameters exactly if no comment stands above the head, and either the comment repeats
the head on the head's first line, or the cursor is on this line, the head without the comment is
not shown in the code in front, and no documentation comment ends the list. Witness: the comment
above the head is missed; without one the block goes to the line of the bare head that is shown
last, or to the cursor line.
-/
theorem sameFinding_commented_iff (style : Style) (site : DeclarationSite) (head : CommentedHead)
    (line : Nat) (declaration : Declaration) (written blanked : Text)
    (writtenBreaks : Text.normaliseBreaks written = (site.withHead head.written).document)
    (blankedBreaks : Text.normaliseBreaks blanked = (site.withHead head.blanked).document)
    (shows : (site.withHead head.blanked).Shows style line)
    (declares : Declares style.inferDirection head.blanked declaration)
    : (generate style written line).declaration.map (·.name)
        = (generate style blanked line).declaration.map (·.name)
      ∧ (SameFinding (generate style written line) (generate style blanked line)
        ↔ site.comment? = none
          ∧ (head.bare <:+: head.body ∧ '\n' ∉ head.opening
            ∨ ¬ head.bare <:+: head.body
              ∧ ¬ head.bare <:+: (site.withHead head.written).seen style line
              ∧ line = site.front.count '\n'
              ∧ ¬ head.endsDocumented)) := by
  have showsWritten := shows.exchange head.count_written.symm
  have bare := CommentedHead.declares_bare declares
  obtain ⟨_, _, _, _, _, views⟩ := DeclarationSite.exists_views showsWritten bare
  obtain ⟨_, _, _, _, _, _, _, _, target⟩ := DeclarationSite.exists_target shows declares
  obtain ⟨first, declaredFirst, nameFirst, insertedFirst⟩ :=
    exists_declared (congrArg Target.declaration views.target)
  obtain ⟨second, declaredSecond, nameSecond, insertedSecond⟩ :=
    exists_declared (congrArg Target.declaration target)
  rw [generate, generate, writtenBreaks, blankedBreaks]
  have names
      : (generateAt style (site.withHead head.written).document line).declaration.map (·.name)
      = (generateAt style (site.withHead head.blanked).document line).declaration.map (·.name) := by
    rw [declaredFirst, declaredSecond, Option.map_some, Option.map_some, nameFirst, nameSecond]
  refine ⟨names, ?_⟩
  cases documented : site.comment? with
  | some above =>
      refine ⟨fun same => ?_, fun conditions => absurd conditions.1 (by simp)⟩
      have replaced := @DeclarationSite.generateAt_documented (site.withHead head.blanked) _ _ _ _
        documented shows declares
      refine absurd ?_ (DeclarationSite.documented_not_replaced documented showsWritten bare)
      rw [same.anchor, replaced]
      exact ⟨rfl, rfl, rfl⟩
  | none =>
      have place : (generateAt style (site.withHead head.blanked).document line).anchor
          = site.insertion :=
        DeclarationSite.anchor_undocumented documented shows declares
      have anchored : SameFinding (generateAt style (site.withHead head.written).document line)
            (generateAt style (site.withHead head.blanked).document line)
          ↔ (generateAt style (site.withHead head.written).document line).anchor
            = site.insertion := by
        refine ⟨fun same => same.anchor.trans place, fun same => ⟨same.trans place.symm, names, ?_⟩⟩
        rw [declaredFirst, declaredSecond, insertedFirst (by rw [same]; rfl),
          insertedSecond (by rw [place]; rfl)]
        rfl
      rw [anchored]
      by_cases inside : head.bare <:+: head.body
      · rw [DeclarationSite.repeated_insertion_iff documented showsWritten bare inside]
        simp [inside]
      · rw [DeclarationSite.unrepeated_insertion_iff documented showsWritten bare inside]
        simp [inside]

/-- A head of two lines with a comment on the first. -/
def noted : CommentedHead where
  callee := "int add".toList
  before := "int a ".toList
  body := " first ".toList
  behind := ",\n        int b".toList
  flat := by decide
  closeless := by decide
  unbroken := by decide
  spaced := .inl ⟨' ', by decide, by decide⟩

/-- The function of the noted head. -/
def notedFunction : Declaration where
  name := "add".toList
  returns := true
  parameters :=
    [
      .declared "a".toList (some "int".toList) (some 0) true,
      .declared "b".toList (some "int".toList) (some 1) true
    ]
  signature := noted.blanked

theorem declares_noted : Declares true noted.blanked notedFunction where
  starts := ⟨'i', by decide, by decide⟩
  ends := by decide
  plain := by decide
  declared := by decide +kernel
  whole := rfl

/-- The place of the noted head behind a declaration. -/
def notedSite : DeclarationSite where
  front := "int x;\n".toList
  comment? := none
  indent := []
  head := []
  space := []
  separator := ';'
  rest := "\n".toList
  settled :=
    ⟨by decide, by decide, by decide, "int x;".toList, "\n".toList, rfl, by simp, by decide⟩
  indented := by simp
  spaced := by simp
  separates := .inl rfl

/-- From the first line of the noted head the comment makes no difference, and from the second line
it does. -/
theorem sameFinding_noted
    : let written := "int x;\nint add(int a /* first */,\n        int b);\n".toList
      let blanked := "int x;\nint add(int a            ,\n        int b);\n".toList
      SameFinding (generate .default written 1) (generate .default blanked 1)
      ∧ ¬ SameFinding (generate .default written 2) (generate .default blanked 2) := by
  intro written blanked
  have writtenBreaks
      : Text.normaliseBreaks written = (notedSite.withHead noted.written).document := by
    decide +kernel
  have blankedBreaks
      : Text.normaliseBreaks blanked = (notedSite.withHead noted.blanked).document := by
    decide +kernel
  have first := (sameFinding_commented_iff .default notedSite noted 1 notedFunction written blanked
    writtenBreaks blankedBreaks ⟨by decide, by decide, by decide, by decide⟩ declares_noted).2
  have second := (sameFinding_commented_iff .default notedSite noted 2 notedFunction written blanked
    writtenBreaks blankedBreaks ⟨by decide, by decide, by decide, by decide⟩ declares_noted).2
  refine ⟨first.mpr ⟨rfl, .inr ?_⟩, fun same => ?_⟩
  · decide +kernel
  · exact absurd (second.mp same) (by decide +kernel)

/-- A comment in the list hides the comment above the function, moves the block from the first line
of the head to the cursor line, and is replaced itself at the end of the list. -/
theorem comment_in_list_misplaces
    : (generate .default "/** Adds. */\nint add(int a /* first */, int b);\n".toList 1).anchor
        = { edit := .insert, start := 13, stop := 13, line := 1, character := 0 }
      ∧ (generate .default "/** Adds. */\nint add(int a            , int b);\n".toList 1).anchor
        = { edit := .replace, start := 0, stop := 12, line := 0, character := 0 }
      ∧ (generate .default "int add(int a, /* first */\n        int b);\n".toList 1).anchor
        = { edit := .insert, start := 27, stop := 27, line := 1, character := 0 }
      ∧ (generate .default "int add(int a,            \n        int b);\n".toList 1).anchor
        = { edit := .insert, start := 0, stop := 0, line := 0, character := 0 }
      ∧ (generate .default "int add(int a, int b /** second */);\n".toList 0).anchor
        = { edit := .replace, start := 21, stop := 34, line := 0, character := 21 }
      ∧ (generate .default "int add(int a, int b              );\n".toList 0).anchor
        = { edit := .insert, start := 0, stop := 0, line := 0, character := 0 } := by
  decide +kernel

end DocBlock.Document
