import DocBlock.Proofs.Block.Regeneration
import DocBlock.Proofs.Document.DeclarationSite
import DocBlock.Proofs.Document.GeneratedComment
import DocBlock.Proofs.Document.ReplacedSpan

/-! Generating a second time. A block that was inserted above a function is found there again, and
what replaces it is the same text.
-/

namespace DocBlock.Document

open Block (Legible LegibleParameter)
open Snippet (expansion)
open Text (isBlank)

--------------------------------------------------------------------------------
-- Applying a generation
--------------------------------------------------------------------------------

/-- The document with a generated comment at its place, every field at its default. -/
def Generation.applyTo (generation : Generation) (document : Text) : Text :=
  Text.splice generation.anchor.start generation.anchor.stop
    (Snippet.expand generation.snippet.render) (Text.normaliseBreaks document)

/-- Replacing a stretch of a text leaves what stands around it. -/
theorem splice_append (front middle replacement rest : Text)
    : Text.splice front.length (front.length + middle.length : Nat) replacement
        (front ++ middle ++ rest)
      = front ++ replacement ++ rest := by
  have place {offset : Nat} (bound : offset ≤ (front ++ middle ++ rest).length)
      : Text.position (front ++ middle ++ rest).length offset = offset := by
    rw [Text.position, if_neg (by omega), Int.toNat_natCast, Nat.min_eq_left bound]
  have stop : (front ++ middle ++ rest).drop (front.length + middle.length) = rest := by
    rw [← List.length_append, List.drop_left]
  rw [Text.splice, Text.before, Text.after, place (by simp), place (by simp), stop,
    List.append_assoc front middle, List.take_left]

--------------------------------------------------------------------------------
-- Functions as they are declared
--------------------------------------------------------------------------------

/-- A parameter as a declaration shows it can be shown by its tag line. -/
theorem legible_declared {name : Text} (word : name ≠ [] ∧ ∀ c ∈ name, Text.isWord c = true)
    (type : Option Text) (index : Option Int) (inferDirection : Bool)
    : LegibleParameter (Parameter.declared name type index inferDirection) where
  name := word
  description := .inl rfl
  direction := by
    intro text given
    rcases Signature.direction_declared given with rfl | rfl <;> decide

variable {style : Style} {inferDirection : Bool} {text : Text} {declaration : Declaration}

/-- A function that is read from source can be shown by a comment. -/
theorem legible_of_lastFunction
    (found : Signature.lastFunction? inferDirection text = some declaration)
    (keyword : style.returnKeyword ∈ Documentation.returnKeywords)
    : Legible style declaration := by
  obtain ⟨prototype, -, rfl⟩ := Option.map_eq_some_iff.mp found
  have short : (Text.lines []).length ≤ 1 := by decide
  refine ⟨.inl rfl, keyword, .inl rfl, .inr short, fun parameter member => ?_, ?_⟩
  · obtain ⟨name, type, index, rfl, word⟩ := Signature.Prototype.exists_declared member
    exact legible_declared word type index inferDirection
  · intro description member
    contradiction

/-- The parameters of a function have directions only if these are inferred. -/
theorem undirected_of_lastFunction
    (found : Signature.lastFunction? inferDirection text = some declaration)
    (off : inferDirection = false)
    : ∀ parameter ∈ declaration.parameters, parameter.direction = none := by
  intro parameter member
  obtain ⟨prototype, -, rfl⟩ := Option.map_eq_some_iff.mp found
  obtain ⟨name, type, index, rfl, -⟩ := Signature.Prototype.exists_declared member
  rw [Parameter.declared, off]
  rfl

theorem no_carriageReturn_direction
    (found : Signature.lastFunction? inferDirection text = some declaration)
    : ∀ parameter ∈ declaration.parameters, ∀ direction ∈ parameter.direction,
        '\r' ∉ direction := by
  intro parameter member direction given
  obtain ⟨prototype, -, rfl⟩ := Option.map_eq_some_iff.mp found
  obtain ⟨name, type, index, rfl, -⟩ := Signature.Prototype.exists_declared member
  rcases Signature.direction_declared given with rfl | rfl <;> decide

/-- The block of a function is a comment that can stand above it. -/
theorem exists_commentAbove {indent : Text}
    (found : Signature.lastFunction? inferDirection text = some declaration)
    (blanks : ∀ c ∈ indent, isBlank c = true) (style : Style)
    : ∃ above : CommentAbove,
        above.indent = indent
        ∧ above.comment = expansion (Block.snippet style indent [] declaration) := by
  have closed : Sealed declaration := by
    obtain ⟨prototype, -, rfl⟩ := Option.map_eq_some_iff.mp found
    refine ⟨fun impossible => ?_, fun line member => ?_⟩
    · contradiction
    · contradiction
  have enclosed := Signature.enclosed_of_lastFunction found
  have block := (@isDocBlock_enclosed_iff declaration enclosed style indent [] blanks (by simp)).mpr
    closed
  obtain ⟨body, shape⟩ : ∃ body, expansion (Block.snippet style indent [] declaration)
      = "/**".toList ++ body ++ "*/".toList := by
    refine ⟨Block.openingText style (.ofStyle style indent) declaration
      ++ (expansion (Block.descriptionPieces (.ofStyle style indent) declaration)
        ++ '\n' :: (Block.tagText style (.ofStyle style indent) declaration
          ++ (indent ++ [' ']))), ?_⟩
    rw [Block.expansion_snippet]
    simp
  have opened : ("/**".toList ++ body ++ "*/".toList).dropWhile isBlank
      = "/**".toList ++ body ++ "*/".toList :=
    rfl
  rw [shape, opened, Comment.isDocBlock_iff, Comment.close_infix_cons_iff, not_or] at block
  exact ⟨⟨indent, body, blanks, block.2, block.1⟩, rfl, shape.symm⟩

--------------------------------------------------------------------------------
-- The first and the second generation
--------------------------------------------------------------------------------

namespace DeclarationSite

variable {site : DeclarationSite}

/-- The site with a comment above its head. -/
def withComment (site : DeclarationSite) (above : CommentAbove) : DeclarationSite :=
  { site with comment? := some above }

/-- What stands behind the code in front of a bare head. -/
def tail (site : DeclarationSite) : Text :=
  site.indent ++ site.head ++ (site.space ++ [site.separator]) ++ site.rest

theorem document_bare (bare : site.comment? = none) : site.document = site.front ++ site.tail := by
  simp [document, above, bare, tail]

theorem above_withComment (site : DeclarationSite) (above : CommentAbove)
    : (site.withComment above).above = above.indent ++ above.comment ++ ['\n'] := rfl

theorem document_withComment (site : DeclarationSite) (above : CommentAbove)
    : (site.withComment above).document
      = site.front ++ (site.withComment above).above ++ site.tail := by
  simp [document, withComment, tail]

/-- At a bare head the block goes to the start of its first line. -/
theorem generate_bare {line : Nat} (bare : site.comment? = none) (feeds : '\r' ∉ site.document)
    (shows : site.Shows style line) (declares : Declares style.inferDirection site.head declaration)
    : generate style site.document line
      = {
        snippet := Block.snippet style site.indent site.indent declaration ++ [.literal ['\n']]
        anchor := anchor site.document .insert site.front.length site.front.length
        declaration := some declaration
      } := by
  obtain ⟨rest, whole⟩ : ∃ rest, site.document = site.front ++ site.indent ++ (site.head ++ rest) :=
    ⟨site.space ++ [site.separator] ++ site.rest, by simp [document_bare bare, tail]⟩
  have start : (site.front ++ site.indent).length
        - column site.document (site.front ++ site.indent).length
      = site.front.length := by
    rw [whole, column_append site.settled.ends site.unbroken_indent, List.length_append,
      Nat.add_sub_cancel]
  have indent : Text.indentation (site.document.drop site.front.length) = site.indent := by
    rw [whole, List.append_assoc, List.drop_left]
    apply Text.takeWhile_run site.indented
    intro c first
    obtain ⟨d, starts, word⟩ := declares.starts
    rw [List.head?_append, starts] at first
    obtain rfl : d = c := Option.some.inj first
    exact Text.isBlank_of_isWord word
  rw [generate, Text.normaliseBreaks_of_not_mem feeds, generateAt_undocumented bare shows declares,
    insertAbove]
  simp only [start, indent]

/-- From the first line of a head the window reaches the separator, and back to the first line of a
comment above the head. -/
theorem shows_first (behind : site.above.count '\n' ≤ style.lookbehindLines)
    (ahead : (site.indent ++ site.head ++ site.space).count '\n' < style.lookaheadLines)
    : site.Shows style ((site.front ++ site.above).count '\n') := by
  have flat : site.indent.count '\n' = 0 := List.count_eq_zero.mpr site.unbroken_indent
  simp only [List.count_append] at ahead
  refine ⟨?_, ?_, ?_, ?_⟩ <;> simp only [List.count_append] <;> omega

/-- The text inserted above a bare head is its block, on lines of its own. -/
theorem expand_bare {line : Nat} {above : CommentAbove} (bare : site.comment? = none)
    (feeds : '\r' ∉ site.document) (shows : site.Shows style line)
    (declares : Declares style.inferDirection site.head declaration)
    (indent : above.indent = site.indent)
    (written : above.comment = expansion (Block.snippet style site.indent [] declaration))
    : Snippet.expand (generate style site.document line).snippet.render
      = (site.withComment above).above := by
  have apart := Block.separated_snippet style site.indent site.indent declaration
    [Piece.literal ['\n']]
  rw [generate_bare bare feeds shows declares, Snippet.expand_render apart,
    Snippet.expansion_append, Block.expansion_snippet_lead, ← written, ← indent]
  rfl

/-- Inserting the block of a bare head puts a comment above it. -/
theorem applyTo_bare {line : Nat} {above : CommentAbove} (bare : site.comment? = none)
    (feeds : '\r' ∉ site.document) (shows : site.Shows style line)
    (declares : Declares style.inferDirection site.head declaration)
    (indent : above.indent = site.indent)
    (written : above.comment = expansion (Block.snippet style site.indent [] declaration))
    : (generate style site.document line).applyTo site.document
      = (site.withComment above).document := by
  have inserted := expand_bare bare feeds shows declares indent written
  have place := splice_append site.front [] (site.withComment above).above site.tail
  rw [List.append_nil, ← document_bare bare] at place
  rw [Generation.applyTo, inserted, Text.normaliseBreaks_of_not_mem feeds,
    generate_bare bare feeds shows declares, document_withComment]
  exact place

/-- The comment above a head is replaced where it stands. -/
theorem generate_withComment {line : Nat} {above : CommentAbove}
    (feeds : '\r' ∉ (site.withComment above).document)
    (shows : (site.withComment above).Shows style line)
    (declares : Declares style.inferDirection site.head declaration)
    : generate style (site.withComment above).document line
      = replaceComment style (site.withComment above).document
          (site.front ++ above.indent).length above.indent above.comment (some declaration) := by
  rw [generate, Text.normaliseBreaks_of_not_mem feeds]
  exact generateAt_documented rfl shows declares

end DeclarationSite

/-- A document in which a comment is replaced by its own text stays as it is. -/
theorem applyTo_replaceComment {document front indent comment rest : Text}
    (split : document = front ++ comment ++ rest) (feeds : '\r' ∉ document)
    (same : Snippet.expand
        (replaceComment style document front.length indent comment
          (some declaration)).snippet.render
      = comment)
    : (replaceComment style document front.length indent comment (some declaration)).applyTo
        document
      = document := by
  have kept := splice_append front comment comment rest
  rw [← split] at kept
  rw [Generation.applyTo, same, Text.normaliseBreaks_of_not_mem feeds]
  exact kept

/-- A block above a function is replaced by itself. -/
theorem expand_regenerated {above : CommentAbove} {start : Nat}
    (found : Signature.lastFunction? style.inferDirection text = some declaration)
    (keyword : style.returnKeyword ∈ Documentation.returnKeywords)
    (distinct : (declaration.parameters.map (·.name)).Nodup)
    (written : above.comment = expansion (Block.snippet style above.indent [] declaration))
    (document : Text)
    : Snippet.expand
          (replaceComment style document start above.indent above.comment
            (some declaration)).snippet.render
      = above.comment := by
  dsimp only [replaceComment]
  rw [Block.expand_snippet, written]
  exact Block.expansion_regenerated (legible_of_lastFunction found keyword) distinct
    (undirected_of_lastFunction found) above.indented

/-- Generating above a function without a comment, and then again at the function, is stable: the
second generation replaces exactly the comment that the first one inserted, by the same text.
Witness: the inserted block is the comment directly above the head, and merging the declaration with
it adds only the return tag that the block shows anyway.
-/
theorem regeneration_stable (style : Style) (site : DeclarationSite) (declaration : Declaration)
    (bare : site.comment? = none) (feeds : '\r' ∉ site.document)
    (declares : Declares style.inferDirection site.head declaration)
    (distinct : (declaration.parameters.map (·.name)).Nodup)
    (keyword : style.returnKeyword ∈ Documentation.returnKeywords)
    (ahead : (site.indent ++ site.head ++ site.space).count '\n' < style.lookaheadLines)
    (behind : (Snippet.expand
        (generate style site.document (site.front.count '\n' : Nat)).snippet.render).count '\n'
      ≤ style.lookbehindLines)
    : let line := site.front.count '\n'
      let first := generate style site.document line
      let inserted := Snippet.expand first.snippet.render
      let edited := first.applyTo site.document
      let second := generate style edited (line + inserted.count '\n' : Nat)
      first.anchor.edit = .insert
      ∧ edited = site.front ++ inserted ++ site.document.drop site.front.length
      ∧ second.anchor.edit = .replace
      ∧ second.anchor.start = (site.front ++ site.indent).length
      ∧ second.anchor.stop + 1 = (site.front ++ inserted).length
      ∧ inserted = site.indent ++ covered edited second.anchor ++ ['\n']
      ∧ Snippet.expand second.snippet.render = covered edited second.anchor
      ∧ second.applyTo edited = edited := by
  intro line first inserted edited second
  obtain ⟨above, indent, written⟩ := exists_commentAbove declares.declared site.indented style
  have none : site.above = [] := by
    simp only [DeclarationSite.above, bare]
  have shows : site.Shows style line := by
    have shown := @DeclarationSite.shows_first style site (by simp [none]) ahead
    rwa [none, List.append_nil] at shown
  have text : inserted = (site.withComment above).above :=
    DeclarationSite.expand_bare bare feeds shows declares indent written
  have result : edited = (site.withComment above).document :=
    DeclarationSite.applyTo_bare bare feeds shows declares indent written
  have split : edited = (site.front ++ above.indent) ++ above.comment ++ '\n' :: site.tail := by
    rw [result, DeclarationSite.document_withComment, DeclarationSite.above_withComment]
    simp
  have unbroken : '\r' ∉ edited := by
    have block := Block.no_carriageReturn_expansion
      (legible_of_lastFunction declares.declared keyword)
      (no_carriageReturn_direction declares.declared) site.indented (List.forall_mem_nil _)
    rw [← written] at block
    have blank : '\r' ∉ above.indent := fun member => absurd (above.indented _ member) (by decide)
    rw [DeclarationSite.document_bare bare, List.mem_append, not_or] at feeds
    rw [split]
    simp [feeds.1, feeds.2, blank, block]
  have secondRun : second
      = replaceComment style edited (site.front ++ above.indent).length above.indent above.comment
          (some declaration) := by
    have shown := @DeclarationSite.shows_first style (site.withComment above)
      (by rwa [← text]) ahead
    have replaced := DeclarationSite.generate_withComment (result ▸ unbroken) shown declares
    rwa [List.count_append, ← text, ← result] at replaced
  have same : Snippet.expand second.snippet.render = above.comment := by
    rw [secondRun]
    exact expand_regenerated declares.declared keyword distinct (indent ▸ written) edited
  have span : covered edited second.anchor = above.comment := by
    rw [secondRun, split]
    exact slice_append _ _ _
  refine ⟨?_, ?_, ?_, ?_, ?_, ?_, same.trans span.symm, ?_⟩
  · have inserts := DeclarationSite.generate_bare bare feeds shows declares
    exact congrArg (fun generation => generation.anchor.edit) inserts
  · rw [result, DeclarationSite.document_withComment, text, DeclarationSite.document_bare bare,
      List.drop_left]
  · rw [secondRun]
    rfl
  · rw [secondRun, ← indent]
    rfl
  · rw [secondRun, text, DeclarationSite.above_withComment]
    simp [replaceComment, anchor, Nat.add_assoc]
  · rw [span, text, DeclarationSite.above_withComment, indent]
  · rw [secondRun] at same ⊢
    exact applyTo_replaceComment split unbroken same

/-- The block of eight lines above the wrapped head is replaced by itself. -/
theorem regeneration_wrapped
    : let first := generate .default (wrappedSite none).document 2
      let edited := first.applyTo (wrappedSite none).document
      (Snippet.expand first.snippet.render).count '\n' = 8
      ∧ (generate .default edited 10).anchor.edit = .replace
      ∧ (generate .default edited 10).applyTo edited = edited := by
  have lines : (Snippet.expand
      (generate .default (wrappedSite none).document
        ((wrappedSite none).front.count '\n' : Nat)).snippet.render).count '\n' = 8 := by
    decide +kernel
  obtain ⟨-, -, replaces, -, -, -, -, stays⟩ :=
    regeneration_stable .default (wrappedSite none) wrapped rfl (by decide) declares_wrapped
      (by decide) (by decide) (by decide) (lines.trans_le (by decide))
  have cursor : (((wrappedSite none).front.count '\n' : Nat) : Int) = 2 := rfl
  have below : (((wrappedSite none).front.count '\n' + 8 : Nat) : Int) = 10 := rfl
  rw [lines, below, cursor] at replaces stays
  rw [cursor] at lines
  exact ⟨lines, replaces, stays⟩

end DocBlock.Document
