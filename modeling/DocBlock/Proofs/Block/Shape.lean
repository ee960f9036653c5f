import DocBlock.Proofs.Block.Fields
import DocBlock.Proofs.Text.LineBreaks
import DocBlock.Proofs.Text.Search

/-! The lines of a comment block. Behind every line feed of a block stands the decoration, so a
block has the shape of a comment on every line: an opening, decorated lines and an end. Writing it
never asks for the first line or the longest name of an empty list.
-/

namespace DocBlock.Block

open Text (isSpace)

--------------------------------------------------------------------------------
-- Decoration behind every line feed
--------------------------------------------------------------------------------

/-- Behind every line feed of the text stands the decoration. -/
def Decorated (decoration text : Text) : Prop :=
  ∀ rest, '\n' :: rest <:+ text → decoration <+: rest

/-- Every line of the text starts with the decoration. -/
structure Led (decoration text : Text) : Prop where
  start : decoration <+: text
  further : Decorated decoration text

variable {decoration text rest : Text}

theorem Decorated.of_unbroken (unbroken : '\n' ∉ text) : Decorated decoration text :=
  fun _ position => absurd (position.subset List.mem_cons_self) unbroken

theorem Decorated.append (first : Decorated decoration text) (second : Decorated decoration rest)
    : Decorated decoration (text ++ rest) := by
  intro later position
  rcases Text.suffix_append_cases position with ⟨inside, rfl, within⟩ | behind
  · exact (first inside within).trans (List.prefix_append inside rest)
  · exact second later behind

theorem Decorated.flatMap {α : Type} {shown : α → Text} {items : List α}
    (each : ∀ item ∈ items, Decorated decoration (shown item))
    : Decorated decoration (items.flatMap shown) := by
  induction items with
  | nil => exact Decorated.of_unbroken (by simp)
  | cons item items ih =>
      rw [List.forall_mem_cons] at each
      exact each.1.append (ih each.2)

theorem Led.feed (led : Led decoration text) : Decorated decoration ('\n' :: text) := by
  intro rest position
  rcases List.suffix_cons_iff.mp position with whole | inside
  · exact (List.cons.inj whole).2 ▸ led.start
  · exact led.further rest inside

theorem Led.of_unbroken (unbroken : '\n' ∉ decoration ++ text)
    : Led decoration (decoration ++ text) :=
  ⟨List.prefix_append decoration text, Decorated.of_unbroken unbroken⟩

/-- A decorated line stands in front of decorated lines. -/
theorem Led.cons (led : Led decoration rest) (unbroken : '\n' ∉ decoration ++ text)
    : Led decoration (decoration ++ text ++ '\n' :: rest) := by
  refine ⟨?_, (Decorated.of_unbroken unbroken).append led.feed⟩
  rw [List.append_assoc]
  exact List.prefix_append decoration _

/-- A line with nothing but the decoration stands in front of decorated lines. -/
theorem Led.cons_bare (led : Led decoration rest) (unbroken : '\n' ∉ decoration)
    : Led decoration (decoration ++ '\n' :: rest) := by
  have bare : '\n' ∉ decoration ++ [] := by simpa using unbroken
  simpa using led.cons bare

/-- The lines of a decorated text behind the first one start with the decoration. Witness: induction
on the text; what follows a line feed is the next line, with the decoration in front.
-/
theorem Decorated.lines (unbroken : '\n' ∉ decoration) (decorated : Decorated decoration text)
    : ∀ line ∈ (Text.lines text).tail, decoration <+: line := by
  induction text with
  | nil => simp [Text.lines, Text.splitOn]
  | cons c text ih =>
      have later := ih fun rest position =>
        decorated rest (position.trans (List.suffix_cons c text))
      by_cases feed : c = '\n'
      · subst feed
        obtain ⟨behind, rfl⟩ := decorated text List.suffix_rfl
        obtain ⟨first, more, -, split⟩ := Text.exists_lines_append unbroken behind
        rw [split] at later
        rw [Text.lines_feed, List.tail_cons, split]
        exact List.forall_mem_cons.mpr ⟨List.prefix_append decoration first, later⟩
      · obtain ⟨first, more, split⟩ := List.exists_cons_of_ne_nil (Text.lines_ne_nil text)
        rw [split] at later
        rw [Text.lines_cons feed, split]
        exact later

/-- A decorated text with a last line is an opening line, decorated lines and the last one. -/
theorem Decorated.exists_lines {opening last : Text} (unbroken : '\n' ∉ decoration)
    (opened : '\n' ∉ opening) (ended : '\n' ∉ last)
    (decorated : Decorated decoration (opening ++ text ++ '\n' :: last))
    : ∃ first inner,
        opening ++ text ++ '\n' :: last = Text.unlines (first :: inner ++ [last])
        ∧ (∀ line ∈ first :: inner, '\n' ∉ line)
        ∧ opening <+: first
        ∧ ∀ line ∈ inner, decoration <+: line := by
  obtain ⟨start, inner, -, split⟩ := Text.exists_lines_append opened text
  have whole : opening ++ text ++ '\n' :: last
      = Text.unlines ((opening ++ start) :: inner ++ [last]) := by
    rw [← split, Text.unlines_append (Text.lines_ne_nil _) (by simp), Text.unlines_lines]
    rfl
  have plain : ∀ line ∈ (opening ++ start) :: inner, '\n' ∉ line :=
    fun line member => Text.unbroken_of_mem_lines (split ▸ member)
  have shown := decorated.lines unbroken
  rw [whole, Text.lines_unlines (by simp)
    (List.forall_mem_append.mpr ⟨plain, by simpa using ended⟩)] at shown
  exact ⟨opening ++ start, inner, whole, plain, List.prefix_append opening start,
    (List.forall_mem_append.mp shown).1⟩

--------------------------------------------------------------------------------
-- The parts of a block
--------------------------------------------------------------------------------

/-- The texts of a declaration, except its description, hold no line feed. -/
structure Unbroken (declaration : Declaration) : Prop where
  name : '\n' ∉ declaration.name
  parameters : ∀ parameter ∈ declaration.parameters,
    '\n' ∉ parameter.name
    ∧ (∀ direction ∈ parameter.direction, '\n' ∉ direction)
    ∧ '\n' ∉ parameter.description
  returns : ∀ description ∈ declaration.returnDescriptions, '\n' ∉ description

variable {style : Style} {margin : Margin} {declaration : Declaration}

theorem unbroken_decoration (inner : '\n' ∉ margin.lead) : '\n' ∉ margin.decoration :=
  fun member => inner (List.mem_append_left margin.space member)

theorem unbroken_descriptionLines {description line : Text}
    (member : line ∈ descriptionLines description)
    : '\n' ∉ line := by
  rw [descriptionLines, Text.trimLines, List.mem_reverse] at member
  have shown := (List.dropWhile_suffix _).subset member
  rw [List.mem_reverse] at shown
  obtain ⟨whole, among, rfl⟩ := List.mem_map.mp ((List.dropWhile_suffix _).subset shown)
  intro feed
  have inside := (Text.dropEndWhile_isPrefix isSpace whole).subset feed
  exact absurd (Text.inner_of_mem_unicodeLines among _ inside) (by decide)

/-- Lines without line feeds are joined behind the decoration. -/
theorem decorated_continueLines (inner : '\n' ∉ margin.lead) {lines : List Text}
    (unbroken : ∀ line ∈ lines, '\n' ∉ line)
    : Decorated margin.decoration (margin.continueLines lines) := by
  cases lines with
  | nil => exact Decorated.of_unbroken (by simp [Margin.continueLines])
  | cons first rest =>
      rw [List.forall_mem_cons] at unbroken
      refine (Decorated.of_unbroken unbroken.1).append (Decorated.flatMap fun line member => ?_)
      have plain := unbroken.2 line member
      unfold Margin.continuation
      split
      · exact Led.feed ⟨List.prefix_rfl, Decorated.of_unbroken (unbroken_decoration inner)⟩
      · rw [List.cons_append, List.cons_append, List.append_assoc]
        refine (Led.of_unbroken ?_).feed
        rw [Margin.lead] at inner
        simpa [plain] using inner

theorem mem_of_splitParagraph {lines first rest : List Text} {line : Text}
    (split : splitParagraph? lines = some (first, rest)) (member : line ∈ first ∨ line ∈ rest)
    : line ∈ lines := by
  obtain ⟨-, parts⟩ := Option.ite_none_right_eq_some.mp split
  obtain ⟨rfl, rfl⟩ := Prod.mk.inj (Option.some.inj parts)
  rcases member with earlier | later
  · exact (List.takeWhile_prefix _).subset earlier
  · exact (List.dropWhile_suffix _).subset ((List.dropWhile_suffix _).subset later)

theorem decorated_descriptionText (inner : '\n' ∉ margin.lead) (declaration : Declaration)
    : Decorated margin.decoration (descriptionText margin declaration) := by
  have unbroken {line : Text} (member : line ∈ descriptionLines declaration.description)
      : '\n' ∉ line :=
    unbroken_descriptionLines member
  have lead : Led margin.decoration margin.lead := Led.of_unbroken inner
  unfold descriptionText
  dsimp only
  split
  · next first rest split =>
    have parts := (Option.ite_none_right_eq_some.mp split).2
    have joined : '\n' ∉ Text.unwords (first.map Text.trim) := by
      intro feed
      rcases Text.mem_join feed with between | ⟨part, among, inside⟩
      · exact absurd between (by decide)
      · obtain ⟨line, member, rfl⟩ := List.mem_map.mp among
        exact unbroken (mem_of_splitParagraph parts (.inl member))
          ((Text.trimBy_isInfix isSpace line).subset inside)
    have second := decorated_continueLines inner fun line member =>
      unbroken (mem_of_splitParagraph parts (.inr member))
    have lead : Led margin.decoration (margin.lead ++ margin.continueLines rest) :=
      ⟨lead.start.trans (List.prefix_append _ _), lead.further.append second⟩
    have shape
        : Text.unwords (first.map Text.trim) ++ '\n' :: margin.decoration ++ '\n' :: margin.lead
            ++ margin.continueLines rest
          = Text.unwords (first.map Text.trim)
            ++ '\n' :: (margin.decoration
              ++ '\n' :: (margin.lead ++ margin.continueLines rest)) := by
      simp
    rw [shape]
    exact (Decorated.of_unbroken joined).append (lead.cons_bare (unbroken_decoration inner)).feed
  · exact decorated_continueLines inner fun line => unbroken

theorem decorated_openingText (inner : '\n' ∉ margin.lead) (unbroken : Unbroken declaration)
    : Decorated margin.decoration (openingText style margin declaration) := by
  have lead : Led margin.decoration margin.lead := Led.of_unbroken inner
  have plain (text : Text) (free : '\n' ∉ text) : Decorated margin.decoration text :=
    Decorated.of_unbroken free
  unfold openingText
  refine Decorated.append (Decorated.append ?_ ?_) ?_
  · split
    · exact plain _ (by decide)
    · exact lead.feed
  · split
    · have named : '\n' ∉ '@' :: "def ".toList ++ declaration.name := by simp [unbroken.name]
      have shape : '@' :: "def ".toList ++ declaration.name ++ '\n' :: margin.decoration
            ++ '\n' :: margin.lead
          = '@' :: "def ".toList ++ declaration.name
            ++ '\n' :: (margin.decoration ++ '\n' :: margin.lead) := by
        simp
      rw [shape]
      exact (plain _ named).append (lead.cons_bare (unbroken_decoration inner)).feed
    · exact plain _ (by simp)
  · split <;> exact plain _ (by decide)

theorem unbroken_parameterTag {parameter : Parameter}
    (unbroken : '\n' ∉ parameter.name
      ∧ (∀ direction ∈ parameter.direction, '\n' ∉ direction)
      ∧ '\n' ∉ parameter.description)
    (width : Nat)
    : '\n' ∉ parameterTag width parameter := by
  obtain ⟨name, direction, description⟩ := unbroken
  have trimmed : '\n' ∉ Text.trim parameter.description :=
    fun member => description ((Text.trimBy_isInfix isSpace _).subset member)
  simp [parameterTag, parameterKeyword, unbroken_directionText direction, name, trimmed]

theorem unbroken_returnTags {descriptions : List Text}
    (unbroken : ∀ description ∈ descriptions, '\n' ∉ description)
    : ∀ tag ∈ returnTags style descriptions, '\n' ∉ tag := by
  unfold returnTags
  split
  · have keyword : '\n' ∉ style.returnKeyword := by
      intro member
      have valid := style.keyword_valid
      rw [isKeyword, Bool.and_eq_true, List.all_eq_true] at valid
      exact absurd (valid.2 _ member) (by decide)
    simpa using keyword
  · intro tag member
    obtain ⟨description, among, written⟩ := List.mem_filterMap.mp member
    have plain := unbroken description among
    unfold returnTag? at written
    dsimp only at written
    split at written
    · contradiction
    · split at written
      · obtain rfl := Option.some.inj written
        simpa using fun member => plain ((List.takeWhile_prefix _).subset member)
      · exact Option.some.inj written ▸ plain

/-- Tags without line feeds stand on decorated lines, by induction on the tags. -/
theorem led_tagBlock (inner : '\n' ∉ margin.lead) {tags : List Text}
    (unbroken : ∀ tag ∈ tags, '\n' ∉ tag) (led : Led margin.decoration rest)
    : Led margin.decoration (margin.tagBlock tags ++ rest) := by
  have lines : Led margin.decoration (tags.flatMap margin.tagLine ++ rest) := by
    induction tags with
    | nil => exact led
    | cons tag tags ih =>
        rw [List.forall_mem_cons] at unbroken
        have shape : (tag :: tags).flatMap margin.tagLine ++ rest
            = margin.decoration ++ (margin.space ++ '@' :: tag)
              ++ '\n' :: (tags.flatMap margin.tagLine ++ rest) := by
          simp [Margin.tagLine, Margin.lead]
        rw [shape]
        refine (ih unbroken.2).cons ?_
        rw [Margin.lead] at inner
        simpa [unbroken.1] using inner
  rw [Margin.tagBlock, List.append_assoc, List.cons_append]
  exact lines.cons_bare (unbroken_decoration inner)

/-- The end of a block stands behind a line feed. -/
theorem exists_tagText_feed (style : Style) (margin : Margin) (declaration : Declaration)
    : ∃ front, '\n' :: tagText style margin declaration = front ++ ['\n'] := by
  have block (tags : List Text) : (margin.tagBlock tags).getLast? = some '\n' := by
    rcases List.eq_nil_or_concat tags with rfl | ⟨earlier, tag, rfl⟩
    · simp [Margin.tagBlock]
    · rw [List.concat_eq_append]
      simp [Margin.tagBlock, Margin.tagLine, List.getLast?_cons]
  have last : ('\n' :: tagText style margin declaration).getLast? = some '\n' := by
    unfold tagText
    split <;> split <;> simp [List.getLast?_cons, block]
  obtain ⟨front, whole⟩ := List.getLast?_eq_some_iff.mp last
  exact ⟨front, whole⟩

theorem led_tagText (inner : '\n' ∉ margin.lead) (unbroken : Unbroken declaration)
    (led : Led margin.decoration rest)
    : Led margin.decoration (tagText style margin declaration ++ rest) := by
  have returns : Led margin.decoration
      ((if declaration.returns then
          margin.tagBlock (returnTags style declaration.returnDescriptions)
        else []) ++ rest) := by
    split
    · exact led_tagBlock inner (unbroken_returnTags unbroken.returns) led
    · exact led
  rw [tagText, List.append_assoc]
  split
  · exact returns
  · refine led_tagBlock inner (fun tag member => ?_) returns
    obtain ⟨parameter, among, rfl⟩ := List.mem_map.mp member
    exact unbroken_parameterTag (unbroken.parameters parameter among) _

--------------------------------------------------------------------------------
-- Writing with partial operations
--------------------------------------------------------------------------------

/-- Lines joined behind the decoration. There is no first line to start with if there are none. -/
def Margin.continueLines? (margin : Margin) : List Text → Option Text
  | [] => none
  | first :: rest => some (first ++ rest.flatMap margin.continuation)

/-- The description, with lines joined only where there are some. -/
def descriptionPieces? (margin : Margin) (declaration : Declaration) : Option Snippet :=
  let lines := descriptionLines declaration.description
  if lines.isEmpty then some [.field []]
  else
    match if declaration.documented then splitParagraph? lines else none with
    | some (first, rest) =>
      (margin.continueLines? rest).map fun text =>
        [
          .field (Text.unwords (first.map Text.trim)),
          .literal ('\n' :: margin.decoration ++ '\n' :: margin.lead),
          .field text
        ]
    | none => (margin.continueLines? lines).map fun text => [.field text]

/-- The width to which names are padded. There is no longest name if there are none. -/
def nameWidth? (style : Style) (parameters : List Parameter) : Option Nat :=
  if style.alignParameterNames then (parameters.map (·.name.length)).max? else some 0

/-- The parameter lines behind a separator. -/
def parameterBlock? (style : Style) (margin : Margin) (parameters : List Parameter)
    : Option Snippet :=
  if parameters.isEmpty then some []
  else
    (nameWidth? style parameters).map fun width =>
      margin.separator :: parameters.flatMap (parameterPieces margin width)

/-- The comment block of a declaration, written with operations that are undefined on empty
lists. -/
def snippet? (style : Style) (indent lead : Text) (declaration : Declaration) : Option Snippet := do
  let margin := Margin.ofStyle style indent
  let description ← descriptionPieces? margin declaration
  let parameters ← parameterBlock? style margin declaration.parameters
  return openingPieces style margin lead declaration ++ description ++ [.literal ['\n']]
    ++ parameters
    ++ (if declaration.returns then
          margin.separator :: returnsPieces style margin declaration.returnDescriptions
        else [])
    ++ [.literal (indent ++ " */".toList)]

theorem Margin.continueLines?_eq_some (margin : Margin) {lines : List Text} (nonempty : lines ≠ [])
    : margin.continueLines? lines = some (margin.continueLines lines) := by
  cases lines with
  | nil => contradiction
  | cons first rest => rfl

/-- There are lines behind the first paragraph of a description: its last line is not empty and
stands behind an empty one. -/
theorem splitParagraph?_rest_ne_nil {description : Text} {first rest : List Text}
    (split : splitParagraph? (descriptionLines description) = some (first, rest))
    : rest ≠ [] := by
  obtain ⟨gap, parts⟩ := Option.ite_none_right_eq_some.mp split
  obtain ⟨-, rfl⟩ := Prod.mk.inj (Option.some.inj parts)
  have behind : [] ∈ (descriptionLines description).dropWhile (!·.isEmpty) :=
    Text.mem_dropWhile (List.contains_iff_mem.mp gap) rfl
  obtain ⟨last, ending⟩ :=
    Option.ne_none_iff_exists'.mp (mt List.getLast?_eq_none_iff.mp (List.ne_nil_of_mem behind))
  have final : last ∈ (descriptionLines description).getLast? := by
    obtain ⟨front, whole⟩ :=
      List.dropWhile_suffix (!List.isEmpty ·) (l := descriptionLines description)
    rw [← whole, List.getLast?_append, ending]
    rfl
  have shown : last.isEmpty = false := trimLines_ends (.inr final)
  exact List.ne_nil_of_mem (Text.mem_dropWhile (List.mem_of_getLast? ending) shown)

theorem descriptionPieces?_eq_some (margin : Margin) (declaration : Declaration)
    : descriptionPieces? margin declaration = some (descriptionPieces margin declaration) := by
  unfold descriptionPieces? descriptionPieces
  dsimp only
  by_cases empty : descriptionLines declaration.description = []
  · simp [empty, splitParagraph?, Margin.continueLines]
  · rw [if_neg (by simpa using empty)]
    cases split : if declaration.documented then
        splitParagraph? (descriptionLines declaration.description) else none with
    | none => simp [margin.continueLines?_eq_some empty]
    | some parts =>
        have behind := splitParagraph?_rest_ne_nil (Option.ite_none_right_eq_some.mp split).2
        simp [margin.continueLines?_eq_some behind]

theorem parameterBlock?_eq_some (style : Style) (margin : Margin) (parameters : List Parameter)
    : parameterBlock? style margin parameters
      = some (if parameters.isEmpty then []
        else
          margin.separator
            :: parameters.flatMap (parameterPieces margin (nameWidth style parameters))) := by
  cases parameters with
  | nil => rfl
  | cons parameter rest =>
      have width : nameWidth? style (parameter :: rest)
          = some (nameWidth style (parameter :: rest)) := by
        unfold nameWidth? nameWidth
        split
        · rw [List.map_cons, List.max?_cons', List.foldl_map, List.foldl_cons, Nat.zero_max]
        · rfl
      simp [parameterBlock?, width]

theorem snippet?_eq_some (style : Style) (indent lead : Text) (declaration : Declaration)
    : snippet? style indent lead declaration = some (snippet style indent lead declaration) := by
  simp only [snippet?, descriptionPieces?_eq_some, parameterBlock?_eq_some]
  rfl

--------------------------------------------------------------------------------
-- Main statement
--------------------------------------------------------------------------------

/-- A block of texts without line feeds, however its description is broken into lines, has the shape
of a comment on every line: it opens with `/**`, every line in between starts with the decoration,
and its last line is the indented end. To write it, neither the first line nor the longest name of
an empty list is needed. -/
theorem snippet_shaped (style : Style) {indent : Text} (level : '\n' ∉ indent) (lead : Text)
    {declaration : Declaration} (unbroken : Unbroken declaration)
    : (∃ first inner,
        Snippet.expand (snippet style indent lead declaration).render
          = lead ++ Text.unlines (first :: inner ++ [indent ++ " */".toList])
        ∧ (∀ line ∈ first :: inner, '\n' ∉ line)
        ∧ "/**".toList <+: first
        ∧ ∀ line ∈ inner, indent ++ " *".toList <+: line)
      ∧ snippet? style indent lead declaration = some (snippet style indent lead declaration) := by
  refine ⟨?_, snippet?_eq_some style indent lead declaration⟩
  have inner : '\n' ∉ (Margin.ofStyle style indent).lead := by
    unfold Margin.lead Margin.ofStyle
    dsimp only
    split <;> simp [level]
  have final : '\n' ∉ indent ++ " *".toList ++ "/".toList := by simp [level]
  have closing : indent ++ " *".toList ++ "/".toList = indent ++ " */".toList := by simp
  have ending : Led (indent ++ " *".toList) (indent ++ " */".toList) :=
    closing ▸ Led.of_unbroken final
  obtain ⟨tags, feed⟩ := exists_tagText_feed style (.ofStyle style indent) declaration
  have behind
      : '\n' :: (tagText style (.ofStyle style indent) declaration ++ (indent ++ " */".toList))
        = tags ++ '\n' :: (indent ++ " */".toList) := by
    rw [← List.cons_append, feed, List.append_assoc, List.singleton_append]
  have decorated : Decorated (indent ++ " *".toList)
      ("/**".toList
        ++ (openingText style (.ofStyle style indent) declaration
          ++ descriptionText (.ofStyle style indent) declaration ++ tags)
        ++ '\n' :: (indent ++ " */".toList)) := by
    rw [List.append_assoc, List.append_assoc, ← behind]
    refine (Decorated.of_unbroken (by decide)).append ?_
    refine ((decorated_openingText inner unbroken).append
      (decorated_descriptionText inner declaration)).append ?_
    exact (led_tagText inner unbroken ending).feed
  obtain ⟨first, lines, whole, plain, opened, led⟩ := decorated.exists_lines
    (unbroken_decoration inner) (by decide) (closing ▸ final)
  refine ⟨first, lines, ?_, plain, opened, led⟩
  rw [expand_snippet, expansion_snippet, expansion_description, ← whole]
  simp only [List.append_assoc, List.cons_append, ← behind]

/-- A documented macro whose description is broken in several ways. -/
def brokenMacro : Declaration :=
  {
    name := "COPY".toList
    parameters := [{ name := "from".toList, direction := some "in".toList }]
    description := "\n Copies it.\r\n\u2028\x0bSlowly\x85 and\rwhole.\n\n".toList
    documented := true
    isMacro := true
  }

/-- Every kind of line break in a description starts a decorated line. -/
theorem snippet_shaped_broken
    : Unbroken brokenMacro
      ∧ Snippet.expand (snippet .default "\t".toList [] brokenMacro).render
        = Text.unlines [
            "/**".toList, "\t * @def COPY".toList, "\t *".toList, "\t * Copies it.".toList,
            "\t *".toList, "\t * Slowly".toList, "\t *  and".toList, "\t * whole.".toList,
            "\t *".toList, "\t * @param[in] from ".toList, "\t */".toList
          ]
      ∧ ∃ first inner,
          Snippet.expand (snippet .default "\t".toList [] brokenMacro).render
            = Text.unlines (first :: inner ++ ["\t */".toList])
          ∧ (∀ line ∈ first :: inner, '\n' ∉ line)
          ∧ "/**".toList <+: first
          ∧ ∀ line ∈ inner, "\t *".toList <+: line := by
  have unbroken : Unbroken brokenMacro :=
    ⟨by decide, by simp [brokenMacro], by simp [brokenMacro]⟩
  exact ⟨unbroken, by decide, (snippet_shaped .default (by decide) [] unbroken).1⟩

end DocBlock.Block
