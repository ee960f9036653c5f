import DocBlock.Proofs.Block.Closing
import DocBlock.Proofs.Block.WholeComment
import DocBlock.Proofs.Document.Target
import DocBlock.Proofs.Signature.Names

/-! The text that a generation puts into the document is one comment, unless a macro argument or a
line of the description brings a comment end with it. All other texts in it are words, or come from
inside one comment.
-/

namespace DocBlock.Document

open Comment (Closeless)
open Signature (Enclosed)
open Text (isBlank isSpace)

theorem Window.enclosed_of_target {window : Window} {inferDirection : Bool}
    {declaration : Declaration}
    (found : (window.target inferDirection).declaration = some declaration)
    : Enclosed declaration := by
  rcases Window.declaration_source found with definition | ⟨head, function | pointer⟩
  · exact Signature.enclosed_of_lastMacro definition
  · exact Signature.enclosed_of_lastFunction function
  · exact Signature.enclosed_of_functionPointerType pointer

theorem closeless_returnTags {style : Style} {descriptions : List Text}
    (free : ∀ description ∈ descriptions, Closeless description)
    : ∀ tag ∈ Block.returnTags style descriptions, Closeless tag := by
  unfold Block.returnTags
  split
  · have word : '*' ∉ style.returnKeyword := by
      intro member
      have valid := style.keyword_valid
      rw [isKeyword, Bool.and_eq_true, List.all_eq_true] at valid
      exact absurd (valid.2 _ member) (by decide)
    have space : '*' ∉ style.returnKeyword ++ [' '] := by simp [word]
    exact List.forall_mem_singleton.mpr (Closeless.of_no_star space)
  · intro tag member
    obtain ⟨description, among, written⟩ := List.mem_filterMap.mp member
    unfold Block.returnTag? at written
    dsimp only at written
    split at written
    · contradiction
    · split at written
      · obtain rfl := Option.some.inj written
        rw [Comment.closeless_append_of_no_slash (by decide)]
        exact (free description among).of_isInfix (List.takeWhile_prefix _).isInfix
      · obtain rfl := Option.some.inj written
        exact free description among

/-- No comment end stands in the texts that a block shows as they are given: the arguments of a
macro and the lines of the description. -/
structure Sealed (declaration : Declaration) : Prop where
  arguments : declaration.isMacro = true
    → ∀ parameter ∈ declaration.parameters, Closeless parameter.name
  description : ∀ line ∈ Block.descriptionLines declaration.description, Closeless line

/-- The block of an enclosed declaration is one comment exactly if the declaration is sealed. -/
theorem isDocBlock_enclosed_iff {declaration : Declaration} (enclosed : Enclosed declaration)
    {style : Style} {indent lead : Text} (blanks : ∀ c ∈ indent, isBlank c = true)
    (before : ∀ c ∈ lead, isBlank c = true)
    : Comment.isDocBlock
          ((Snippet.expansion (Block.snippet style indent lead declaration)).dropWhile isBlank)
        = true
      ↔ Sealed declaration := by
  rw [Block.isDocBlock_snippet_iff blanks before]
  constructor
  · rintro ⟨-, lines, parameters, -⟩
    exact ⟨fun _ parameter member => (parameters parameter member).2.1, lines⟩
  · rintro ⟨arguments, lines⟩
    refine ⟨fun named => enclosed.name (Bool.and_eq_true_iff.mp named).1, lines,
      fun parameter member => ?_, fun _ => closeless_returnTags enclosed.tags.returns⟩
    refine ⟨enclosed.tags.directions parameter member, ?_,
      enclosed.tags.descriptions parameter member⟩
    cases kind : declaration.isMacro with
    | true => exact arguments kind parameter member
    | false => exact enclosed.parameters kind parameter member

/-- The text without one line feed at its end. -/
def withoutFinalFeed (text : Text) : Text :=
  if text.getLast? = some '\n' then text.dropLast else text

theorem withoutFinalFeed_concat (text : Text) : withoutFinalFeed (text ++ ['\n']) = text := by
  simp [withoutFinalFeed]

/-- A text that ends with a comment end keeps its last character. -/
theorem withoutFinalFeed_of_close (text : Text)
    : withoutFinalFeed (text ++ "*/".toList) = text ++ "*/".toList := by
  simp [withoutFinalFeed]

/-- The comment that a generation puts into the document, with every field at its default. -/
def Generation.comment (generation : Generation) : Text :=
  (withoutFinalFeed (Snippet.expand generation.snippet.render)).dropWhile isBlank

/-- The comment of a block with a line feed behind it. -/
theorem comment_of_inserted {snippet : Snippet} {anchor : Anchor}
    {declaration : Option Declaration}
    (apart : ∀ rest, Snippet.separated (snippet ++ rest) = Snippet.separated rest)
    : Generation.comment { snippet := snippet ++ [.literal ['\n']], anchor, declaration }
      = (Snippet.expansion snippet).dropWhile isBlank := by
  have whole := Snippet.expand_render (apart [.literal ['\n']])
  rw [Generation.comment, whole, Snippet.expansion_append]
  exact congrArg _ (withoutFinalFeed_concat _)

/-- The comment of a block that ends with a comment end. -/
theorem comment_of_replacing {snippet : Snippet} {anchor : Anchor}
    {declaration : Option Declaration} {text : Text}
    (apart : ∀ rest, Snippet.separated (snippet ++ rest) = Snippet.separated rest)
    (closes : Snippet.expansion snippet = text ++ "*/".toList)
    : Generation.comment { snippet, anchor, declaration }
      = (Snippet.expansion snippet).dropWhile isBlank := by
  have whole : Snippet.separated snippet = true := by
    have alone := apart []
    rwa [List.append_nil] at alone
  rw [Generation.comment, Snippet.expand_render whole, closes, withoutFinalFeed_of_close]

theorem blanks_indentation (text : Text) : ∀ c ∈ Text.indentation text, isBlank c = true :=
  fun _ member => List.mem_takeWhile_imp member

/-- What replaces a comment is one comment, unless its declaration brings a comment end. -/
theorem replaceComment_isDocBlock_iff {style : Style} {document indent body : Text} {start : Nat}
    {declaration : Option Declaration} (blanks : ∀ c ∈ indent, isBlank c = true)
    (free : Closeless body) (enclosed : ∀ found ∈ declaration, Enclosed found)
    : let generation :=
        replaceComment style document start indent ("/**".toList ++ body ++ "*/".toList) declaration
      Comment.isDocBlock generation.comment = true
      ↔ ∀ declaration ∈ generation.declaration, Sealed declaration := by
  cases declaration with
  | none =>
      have kept : Closeless (Block.commentBody ("/**".toList ++ body ++ "*/".toList)) := by
        rw [Block.commentBody_eq free, Comment.closeless_trim_iff]
        exact free
      have closed := @Block.isDocBlock_commentField indent blanks [] _ (by simp) kept
      obtain ⟨text, ends⟩ :=
        Block.commentField_ends _ [] ("/**".toList ++ body ++ "*/".toList)
      dsimp only [replaceComment]
      rw [comment_of_replacing (Block.separated_commentField indent [] _) ends, closed]
      simp
  | some declaration =>
      have merged := (enclosed declaration rfl).merge
        (Documentation.tagsCloseless_read free style.inferDirection) true
      obtain ⟨text, ends⟩ := Block.snippet_ends style indent []
        (Declaration.merge true declaration
          (Documentation.read style.inferDirection ("/**".toList ++ body ++ "*/".toList)))
      dsimp only [replaceComment]
      rw [comment_of_replacing (Block.separated_snippet style indent [] _) ends,
        isDocBlock_enclosed_iff merged blanks (by simp)]
      simp

/-- A generated text is one comment exactly if the declaration it describes brings no comment end
with it, in an argument of a macro or in a line of the description. -/
theorem generated_isDocBlock_iff (style : Style) (document : Text) (line : Int)
    : Comment.isDocBlock (generate style document line).comment = true
      ↔ ∀ declaration ∈ (generate style document line).declaration, Sealed declaration := by
  rw [generate]
  generalize Text.normaliseBreaks document = document
  have enclosed : ∀ found
      ∈ ((window style document line).target style.inferDirection).declaration,
      Enclosed found :=
    fun found member => Window.enclosed_of_target member
  cases found : Text.findFirst? trailingComment?
      ((window style document line).target style.inferDirection).preceding with
  | some result =>
      obtain ⟨passed, indent, comment⟩ := result
      obtain ⟨rest, -, here⟩ := Text.findFirst?_sound found
      obtain ⟨body, -, -, rfl, blanks, free⟩ := trailingComment?_sound here
      rw [generateAt_of_comment found]
      exact replaceComment_isDocBlock_iff blanks free enclosed
  | none =>
      cases declared : ((window style document line).target style.inferDirection).declaration with
      | some declaration =>
          rw [generateAt_of_declaration found declared]
          dsimp only [insertAbove]
          rw [comment_of_inserted (Block.separated_snippet style _ _ declaration),
            isDocBlock_enclosed_iff (enclosed declaration declared) (blanks_indentation _)
              (blanks_indentation _)]
          simp
      | none =>
          rw [generateAt_bare found declared]
          dsimp only [insertBare]
          rw [comment_of_inserted (Block.separated_commentField _ _ []),
            Block.isDocBlock_commentField (blanks_indentation _) (blanks_indentation _)
              (show Closeless (Block.commentBody []) from Closeless.nil)]
          simp

/-- A comment among the arguments of a macro closes the generated comment early, and so does a star
that the removal of a `@brief` marker brings before a slash. -/
theorem generated_closes_early
    : Comment.isDocBlock
          (generate .default "#define MAX(a /* first */, b) a\n".toList 0).comment = false
      ∧ Comment.isDocBlock
          (generate .default "/** Old *@brief /note. */\nvoid f(void);\n".toList 1).comment
        = false := by
  decide +kernel

end DocBlock.Document
