import DocBlock.Proofs.Reflow.Division
import DocBlock.Proofs.Reflow.Rereading

/-! Wrapping a comment changes its layout and nothing else. The words of the body come out in order,
blank lines still part the words that they parted, and tags that started a line still start one.
Every line fits the width or is a single word that does not, and takes all the words that fit.
-/

namespace DocBlock.Reflow

open Text (isSpace isBlank isWord)

/-- What wrapping makes of a comment with prose: its body is replaced by decorated lines that keep
the words. -/
structure Rewrapped (text : Text) (comment : Parts) (body : List Text) (output : Text) : Prop where
  whole : output = Text.unlines (withBody comment body) ++ finalBreak text
  final : Text.endsWith ['\n'] output = Text.endsWith ['\n'] text
  decoration : ∀ line ∈ body,
    line = margin comment ++ ['*']
    ∨ ∃ words ≠ [],
        (∀ word ∈ words, word ≠ [] ∧ ∀ c ∈ word, isSpace c = false)
        ∧ line = margin comment ++ "* ".toList ++ Text.unwords words
  words : List.Forall₂ Keeps (bodyWords comment.body) (bodyWords body)

/-- Lines that are filled greedily. Each fits or is a single word that does not. A line that goes on
with a paragraph stands directly behind a line with words of it, behind which its first word does
not fit. -/
structure Filled (width : Int) (layout : List (List PlacedWord)) : Prop where
  fits : ∀ line ∈ layout,
    (lineText line).length ≤ width ∨ ∃ placed, line = [placed] ∧ width < placed.word.length
  full : layout.IsChain fun line next =>
    ∀ placed ∈ next.head?,
      placed.opensParagraph = false
      → line ≠ [] ∧ width < (lineText line).length + 1 + placed.word.length

variable {width : Nat} {text : Text} {body : List Text} {lines : List (List PlacedWord)}

/-- A layout of the words of a body holds words that are shown and unspaced. -/
theorem Layout.proper (layout : Layout width (bodyWords body) lines)
    : ∀ placed ∈ lines.flatten, placed.word ≠ [] ∧ ∀ c ∈ placed.word, isSpace c = false := by
  rw [layout.whole]
  exact fun _ => word_of_mem_wordsBehind

/-- Reading the decorated lines of a layout gives words that keep what the body says. -/
theorem Layout.keeps (layout : Layout width (bodyWords body) lines) {indent : Text}
    (blanks : ∀ c ∈ indent, isBlank c = true)
    : List.Forall₂ Keeps (bodyWords body) (bodyWords (lines.map (decorated indent))) := by
  have kept := keeps_reread layout.toLaid layout.begins
  rwa [layout.whole, ← wordsBehind_decorated blanks layout.proper] at kept

theorem Layout.filled {width : Int} (positive : 1 ≤ width) {words : List PlacedWord}
    (layout : Layout width.toNat words lines)
    : Filled width lines where
  fits := by
    intro line member
    rcases layout.fits line member with short | single
    · exact .inl (by omega)
    · obtain ⟨placed, rfl⟩ := List.length_eq_one_iff.mp single
      have alone : lineText [placed] = placed.word := rfl
      by_cases short : (placed.word.length : Int) ≤ width
      · exact .inl (alone ▸ short)
      · exact .inr ⟨placed, rfl, by omega⟩
  full := by
    refine layout.follows.imp fun line next follows => ?_
    intro placed starts inside
    obtain ⟨tail, rfl⟩ := List.head?_eq_some_iff.mp starts
    obtain ⟨nonempty, full⟩ := follows.full inside
    exact ⟨nonempty, by omega⟩

/-- The lines of a comment with a layout as its body are shown and hold no line feed. -/
theorem Layout.proper_lines (layout : Layout width (bodyWords (division text).body) lines)
    : ∀ line ∈ withBody (division text) (lines.map (decorated (margin (division text)))),
        line ≠ [] ∧ '\n' ∉ line :=
  proper_withBody fun placed member => (layout.proper placed member).2

theorem Layout.unbroken (layout : Layout width (bodyWords (division text).body) lines)
    : (Text.unlines (withBody (division text)
        (lines.map (decorated (margin (division text)))))).getLast? ≠ some '\n' :=
  getLast?_unlines_ne (fun bare => (layout.proper_lines [] (List.mem_of_getLast? bare)).1 rfl)
    fun line member => (layout.proper_lines line member).2

/-- A comment with its layout as the body is what wrapping is to make of it. -/
theorem Layout.rewrapped (layout : Layout width (bodyWords (division text).body) lines)
    : Rewrapped text (division text) (lines.map (decorated (margin (division text))))
        (relaid text lines) where
  whole := rfl
  final := endsWith_append_finalBreak layout.unbroken text
  decoration := by
    intro line member
    obtain ⟨words, among, rfl⟩ := List.mem_map.mp member
    by_cases empty : words = []
    · exact .inl (by rw [decorated, if_pos empty])
    · refine .inr ⟨words.map PlacedWord.word, by simpa using empty, ?_, ?_⟩
      · intro word inside
        obtain ⟨placed, here, rfl⟩ := List.mem_map.mp inside
        exact layout.proper placed (List.mem_flatten.mpr ⟨words, among, here⟩)
      · rw [decorated, if_neg empty, lineText]
  words := layout.keeps (blanks_margin _)

--------------------------------------------------------------------------------
-- Main statements
--------------------------------------------------------------------------------

/-- Wrapping loses, adds and reorders nothing. A comment without prose stays as it is; otherwise the
opening line, the closing line and the final line feed stay, and the new body keeps the words, the
blank lines between them and the tags at the start of a line. -/
theorem reflow_keeps_words (text : Text) {width : Int} (positive : 1 ≤ width)
    : ∃ comment,
        Divides (linesOf text) comment
        ∧ (¬ HasProse comment.body → reflow width text = .ok text)
        ∧ (HasProse comment.body
          → ∃ body output,
              reflow width text = .ok output ∧ Rewrapped text comment body output) := by
  refine ⟨division text, divides_division text, fun blank => reflow_of_blank blank width, ?_⟩
  intro prose
  obtain ⟨lines, layout, wrapped⟩ := exists_reflow positive prose
  exact ⟨_, _, wrapped, layout.rewrapped⟩

/-- The words of a comment with a final line feed, a tag and a blank line are kept. -/
theorem reflow_keeps_words_tagged
    : ∃ body output,
        reflow 9 "/**\n * Opens it\n * @p now.\n\n * End.\n */\n".toList = .ok output
        ∧ Rewrapped "/**\n * Opens it\n * @p now.\n\n * End.\n */\n".toList
            {
              opening := ["/**".toList]
              body := [" * Opens it".toList, " * @p now.".toList, [], " * End.".toList]
              closing := [" */".toList]
            }
            body output := by
  obtain ⟨comment, divides, -, rewraps⟩ :=
    reflow_keeps_words "/**\n * Opens it\n * @p now.\n\n * End.\n */\n".toList
      (show (1 : Int) ≤ 9 by decide)
  obtain rfl := divides.parts_eq
  exact rewraps (hasContent_iff.mp (by decide))

/-- Wrapping lays the words of the body out within a positive width, on lines that are filled
greedily, and refuses any other width exactly if there are words to wrap. -/
theorem reflow_fills_lines (text : Text) (width : Int)
    : ∃ comment,
        Divides (linesOf text) comment
        ∧ (1 ≤ width
          → HasProse comment.body
          → ∃ layout,
              reflow width text
                = .ok (Text.unlines (withBody comment (layout.map (decorated (margin comment))))
                  ++ finalBreak text)
              ∧ Layout width.toNat (bodyWords comment.body) layout
              ∧ Filled width layout)
        ∧ (width ≤ 0
          → ∀ error,
              reflow width text = .error error
              ↔ error = { width }
                ∧ (∃ line ∈ comment.body, Text.words (content line) ≠ [])
                ∧ HasProse comment.body) := by
  refine ⟨division text, divides_division text, ?_, fun narrow _ => reflow_eq_error_iff narrow⟩
  intro positive prose
  obtain ⟨lines, layout, wrapped⟩ := exists_reflow positive prose
  exact ⟨lines, wrapped, layout, layout.filled positive⟩

/-- Two words that fit exactly share a line of width 8, and a width of zero is refused. -/
theorem reflow_fills_lines_exact
    : (∃ layout,
        reflow 8 "/**\n * Opens it now.\n */".toList
          = .ok (Text.unlines (["/**".toList] ++ layout.map (decorated [' ']) ++ [" */".toList]))
        ∧ Layout 8 [⟨.start, "Opens".toList⟩, ⟨.space, "it".toList⟩, ⟨.space, "now.".toList⟩] layout
        ∧ Filled 8 layout)
      ∧ reflow 0 "/**\n * Opens it now.\n */".toList = .error { width := 0 } := by
  have prose : HasProse [" * Opens it now.".toList] := hasContent_iff.mp (by decide)
  constructor
  · obtain ⟨comment, divides, fills, -⟩ :=
      reflow_fills_lines "/**\n * Opens it now.\n */".toList 8
    obtain rfl := divides.parts_eq
    obtain ⟨layout, wrapped, laid, filled⟩ := fills (by decide) prose
    have words : bodyWords [" * Opens it now.".toList]
        = [⟨.start, "Opens".toList⟩, ⟨.space, "it".toList⟩, ⟨.space, "now.".toList⟩] := by
      decide
    refine ⟨layout, wrapped.trans ?_, words ▸ laid, filled⟩
    rw [show finalBreak "/**\n * Opens it now.\n */".toList = [] by decide, List.append_nil]
    rfl
  · obtain ⟨comment, divides, -, refuses⟩ :=
      reflow_fills_lines "/**\n * Opens it now.\n */".toList 0
    obtain rfl := divides.parts_eq
    have worded : Text.words (content " * Opens it now.".toList) ≠ [] := by decide
    exact (refuses (by decide) _).mpr ⟨rfl, ⟨_, by decide, worded⟩, prose⟩

end DocBlock.Reflow
