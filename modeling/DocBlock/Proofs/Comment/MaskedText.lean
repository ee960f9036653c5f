import DocBlock.Proofs.Comment.Stripping
import Mathlib.Data.List.Forall2

/-! A masked text lies over the text it was made from: it shows every character in its place or a
space instead, and all line feeds. What remains of unclosed comments forms no new comment, so that
masking a second time changes nothing, and the text from the last delimiter on is cut at the last
one that the masked text shows.
-/

namespace DocBlock.Comment

--------------------------------------------------------------------------------
-- Steps of masking
--------------------------------------------------------------------------------

/-- A text and what masking shows of it, as a reader of comments goes through the text: characters
that start no comment, and comments as a whole.
-/
inductive Masked : (text shown : Text) → Prop where
  | nil : Masked [] []
  | code {c : Char} {rest shown : Text} (unread : comment? (c :: rest) = none)
    (later : Masked rest shown)
    : Masked (c :: rest) (c :: shown)
  | comment {found rest shown : Text} (reads : comment? (found ++ rest) = some (found, rest))
    (later : Masked rest shown)
    : Masked (found ++ rest) (blankOut found ++ shown)

/-- Masking shows the text as a reader goes through it, by induction on its length. -/
theorem masked (text : Text) : Masked text (mask text) := by
  induction size : text.length using Nat.strong_induction_on generalizing text with
  | _ n ih =>
      cases text with
      | nil => exact .nil
      | cons c rest =>
          cases reads : comment? (c :: rest) with
          | none =>
              have step : mask (c :: rest) = c :: mask rest :=
                Text.replaceAll_cons_of_none (by simp [reads])
              rw [step]
              exact .code reads (ih rest.length (by simp [← size]) rest rfl)
          | some parts =>
              obtain ⟨found, later⟩ := parts
              obtain ⟨nonempty, whole⟩ := comment?_sound reads
              rw [whole] at reads size ⊢
              have step : mask (found ++ later) = blankOut found ++ mask later :=
                Text.replaceAll_of_some (by simp [reads]) nonempty
              have shorter : later.length < n := by
                have := List.length_pos_of_ne_nil nonempty
                rw [← size, List.length_append]
                omega
              rw [step]
              exact .comment reads (ih later.length shorter later rfl)

--------------------------------------------------------------------------------
-- Characters in their places
--------------------------------------------------------------------------------

/-- What masking may show in the place of a character: the character, or a space unless it is a line
feed. -/
def Veils (c shown : Char) : Prop :=
  shown = c ∨ c ≠ '\n' ∧ shown = ' '

/-- A masked text shows what it may in every place, and has no other places. -/
theorem Masked.veils {text shown : Text} (steps : Masked text shown)
    : List.Forall₂ Veils text shown := by
  induction steps with
  | nil => exact .nil
  | code _ _ ih => exact .cons (.inl rfl) ih
  | @comment found rest shown _ _ ih =>
      refine List.rel_append ?_ ih
      refine List.forall₂_map_right_iff.mpr (List.forall₂_same.mpr fun c _ => ?_)
      by_cases feed : c = '\n'
      · exact .inl (by simp [feed])
      · exact .inr ⟨feed, if_neg feed⟩

theorem length_mask (text : Text) : (mask text).length = text.length :=
  (masked text).veils.length_eq.symm

/-- At every offset there is a character in both texts or in none. -/
theorem veils_getElem? {text : Text} {offset : Nat} {c : Char} (here : text[offset]? = some c)
    : ∃ shown, (mask text)[offset]? = some shown ∧ Veils c shown := by
  obtain ⟨inside, rfl⟩ := List.getElem?_eq_some_iff.mp here
  have within : offset < (mask text).length := length_mask text ▸ inside
  exact ⟨_, List.getElem?_eq_getElem within, (masked text).veils.get inside within⟩

/-- Line feeds show in their places, and none is added. -/
theorem mask_feed_iff (text : Text) (offset : Nat)
    : (mask text)[offset]? = some '\n' ↔ text[offset]? = some '\n' := by
  cases here : text[offset]? with
  | none =>
      have outside : (mask text)[offset]? = none := by
        rw [List.getElem?_eq_none_iff, length_mask]
        exact List.getElem?_eq_none_iff.mp here
      simp [outside]
  | some c =>
      obtain ⟨shown, there, same | ⟨inner, space⟩⟩ := veils_getElem? here
      · simp [there, same]
      · simp [there, space, inner]

/-- A pattern without spaces that a veiled text starts with starts the text, by induction on the
pattern. -/
theorem isPrefix_of_veils {pattern text shown : Text} (solid : ' ' ∉ pattern)
    (veils : List.Forall₂ Veils text shown) (starts : pattern <+: shown)
    : pattern <+: text := by
  induction pattern generalizing text shown with
  | nil => exact List.nil_prefix
  | cons p pattern ih =>
      rw [List.mem_cons, not_or] at solid
      cases veils with
      | nil => simp at starts
      | @cons c m rest later here behind =>
          obtain ⟨rfl, tail⟩ := List.cons_prefix_cons.mp starts
          have same : p = c := here.resolve_right fun veiled => solid.1 veiled.2.symm
          exact List.cons_prefix_cons.mpr ⟨same, ih solid.2 behind tail⟩

/-- A pattern without spaces that shows stands in the text. -/
theorem isInfix_of_veils {pattern text shown : Text} (solid : ' ' ∉ pattern)
    (veils : List.Forall₂ Veils text shown) (inside : pattern <:+: shown)
    : pattern <:+: text := by
  obtain ⟨before, later, rfl⟩ := inside
  rw [List.append_assoc] at veils
  have behind := List.forall₂_drop_append text before (pattern ++ later) veils
  have starts := isPrefix_of_veils solid behind (List.prefix_append pattern later)
  exact starts.isInfix.trans (List.drop_suffix _ _).isInfix

--------------------------------------------------------------------------------
-- Text without comments
--------------------------------------------------------------------------------

/-- No line comment and no closed block comment stands in the text. -/
structure CommentFree (text : Text) : Prop where
  line : ¬ "//".toList <:+: text
  block : ∀ body, ¬ "/*".toList ++ body ++ "*/".toList <:+: text

/-- Nothing is read where no comment stands. -/
theorem CommentFree.comment?_eq_none {text position : Text} (free : CommentFree text)
    (inside : position <:+ text)
    : comment? position = none := by
  refine Option.eq_none_iff_forall_ne_some.mpr fun parts reads => ?_
  rcases comment?_eq_some_iff.mp reads with block | ⟨-, line⟩
  · obtain ⟨body, -, rfl⟩ := block?_sound block
    exact free.block body ((List.prefix_append _ _).isInfix.trans inside.isInfix)
  · obtain ⟨note, -, -, rfl⟩ := line?_sound line
    rw [List.append_assoc] at inside
    exact free.line ((List.prefix_append _ _).isInfix.trans inside.isInfix)

theorem CommentFree.mask_eq {text : Text} (free : CommentFree text) : mask text = text :=
  Text.replaceAll_eq_self fun c later position => by
    rw [free.comment?_eq_none position, Option.map_none]

theorem slash_not_mem_blankOut (text : Text) : '/' ∉ blankOut text := by
  intro slash
  rcases mem_blankOut slash with space | feed
  · contradiction
  · contradiction

/-- A character that starts no comment starts none in the masked text. Witness: slashes and stars
that show stand in the text, so that the comment would have been read there.
-/
theorem commentFree_code {c : Char} {rest shown : Text} (unread : comment? (c :: rest) = none)
    (veils : List.Forall₂ Veils rest shown) (free : CommentFree shown)
    : CommentFree (c :: shown) := by
  obtain ⟨blockless, lineless⟩ := comment?_eq_none_iff.mp unread
  have whole : List.Forall₂ Veils (c :: rest) (c :: shown) := .cons (.inl rfl) veils
  constructor
  · intro inside
    rcases List.infix_cons_iff.mp inside with starts | behind
    · obtain ⟨later, shape⟩ := isPrefix_of_veils (by decide) whole starts
      obtain ⟨rfl, rfl⟩ := List.cons.inj shape
      exact line?_cons_eq_none_iff.mp lineless ⟨rfl, rfl⟩
    · exact free.line behind
  · intro body inside
    rcases List.infix_cons_iff.mp inside with starts | behind
    · rw [List.append_assoc] at starts
      obtain ⟨later, shape⟩ :=
        isPrefix_of_veils (by decide) whole ((List.prefix_append _ _).trans starts)
      obtain ⟨rfl, rfl⟩ := List.cons.inj shape
      obtain ⟨-, opened⟩ := List.cons_prefix_cons.mp starts
      cases veils with
      | @cons star m later shown here veils =>
          obtain ⟨-, closed⟩ := List.cons_prefix_cons.mp opened
          have ending : "*/".toList <:+: shown :=
            (List.suffix_append body _).isInfix.trans closed.isInfix
          exact closeless_of_block?_eq_none blockless (isInfix_of_veils (by decide) veils ending)
    · exact free.block body behind

/-- A masked text holds no comments, by induction along the reading. -/
theorem Masked.commentFree {text shown : Text} (steps : Masked text shown) : CommentFree shown := by
  induction steps with
  | nil => exact ⟨by simp, by simp⟩
  | code unread later ih => exact commentFree_code unread later.veils ih
  | @comment found rest shown _ _ ih =>
      have solid := slash_not_mem_blankOut found
      exact ⟨fun inside => ih.line (Text.isInfix_of_not_mem_left solid inside),
        fun body inside => ih.block body (Text.isInfix_of_not_mem_left solid inside)⟩

/-- Exactly the texts without comments are shown as they are. -/
theorem mask_eq_self_iff {text : Text} : mask text = text ↔ CommentFree text :=
  ⟨fun same => same ▸ (masked text).commentFree, CommentFree.mask_eq⟩

--------------------------------------------------------------------------------
-- The last delimiter
--------------------------------------------------------------------------------

theorem isDelimiter_iff {c : Char} : isDelimiter c = true ↔ c ∈ ['{', '}', ';', '#'] := by
  simp [isDelimiter, or_assoc]

/-- Without a cut no delimiter shows, by induction on the text. -/
theorem undelimited_of_uncut {text shown : Text} (same : shown.length = text.length)
    (uncut : fromLastDelimiter? text shown = none)
    : ∀ c ∈ shown, isDelimiter c = false := by
  induction text generalizing shown with
  | nil => simp [List.length_eq_zero_iff.mp same]
  | cons c text ih =>
      cases shown with
      | nil => simp
      | cons m shown =>
          cases later : fromLastDelimiter? text shown with
          | some found => simp [fromLastDelimiter?, later] at uncut
          | none =>
              have here : isDelimiter m = false := by
                simpa [fromLastDelimiter?, later] using uncut
              exact List.forall_mem_cons.mpr ⟨here, ih (by simpa using same) later⟩

/-- A cut is made at a delimiter that shows, and behind it none does. Witness: induction on the
text; the offset of the cut moves with the text in front.
-/
theorem fromLastDelimiter?_sound {text shown found : Text} (same : shown.length = text.length)
    (cut : fromLastDelimiter? text shown = some found)
    : ∃ start,
        found = text.drop start
        ∧ (∃ d, shown[start]? = some d ∧ isDelimiter d = true)
        ∧ ∀ c ∈ shown.drop (start + 1), isDelimiter c = false := by
  induction text generalizing shown with
  | nil => simp [fromLastDelimiter?] at cut
  | cons c text ih =>
      cases shown with
      | nil => simp [fromLastDelimiter?] at cut
      | cons m shown =>
          have sizes : shown.length = text.length := by simpa using same
          cases later : fromLastDelimiter? text shown with
          | some rest =>
              obtain rfl : rest = found := by simpa [fromLastDelimiter?, later] using cut
              obtain ⟨start, whole, delimited, undelimited⟩ := ih sizes later
              exact ⟨start + 1, whole, delimited, undelimited⟩
          | none =>
              obtain ⟨delimits, rfl⟩ : isDelimiter m = true ∧ c :: text = found := by
                simpa [fromLastDelimiter?, later] using cut
              exact ⟨0, rfl, ⟨m, rfl, delimits⟩, undelimited_of_uncut sizes later⟩

/-- The text from its last delimiter on starts at a delimiter that the masked text shows, unless it
is all of the text, and the masked text shows none behind. -/
theorem sinceLastDelimiter_spec (text : Text)
    : ∃ start,
        sinceLastDelimiter text = text.drop start
        ∧ (start = 0 ∨ ∃ d, (mask text)[start]? = some d ∧ isDelimiter d = true)
        ∧ ∀ c ∈ (mask text).drop (start + 1), isDelimiter c = false := by
  cases cut : fromLastDelimiter? text (mask text) with
  | none =>
      have undelimited := undelimited_of_uncut (length_mask text) cut
      refine ⟨0, by simp [sinceLastDelimiter, cut], .inl rfl, ?_⟩
      exact fun c member => undelimited c (List.mem_of_mem_drop member)
  | some found =>
      obtain ⟨start, whole, delimited, undelimited⟩ :=
        fromLastDelimiter?_sound (length_mask text) cut
      exact ⟨start, by simp [sinceLastDelimiter, cut, whole], .inr delimited, undelimited⟩

--------------------------------------------------------------------------------
-- Main statement
--------------------------------------------------------------------------------

/-- Masking moves nothing: line feeds stay, and every other character shows or a space in its place.
The masked text holds no comments, so that masking it changes nothing, and a text without comments
is not changed either. The text from its last delimiter on is an end of the text that starts at a
delimiter outside comments, if there is one, and holds no other.
-/
theorem mask_keeps_places (text : Text)
    : (mask text).length = text.length
      ∧ (∀ offset : Nat, (mask text)[offset]? = some '\n' ↔ text[offset]? = some '\n')
      ∧ (∀ (offset : Nat) (c : Char),
          text[offset]? = some c
          → (mask text)[offset]? = some c ∨ (mask text)[offset]? = some ' ')
      ∧ mask (mask text) = mask text
      ∧ CommentFree (mask text)
      ∧ (mask text = text ↔ CommentFree text)
      ∧ ∃ start,
          sinceLastDelimiter text = text.drop start
          ∧ (start = 0 ∨ ∃ d ∈ ['{', '}', ';', '#'], (mask text)[start]? = some d)
          ∧ ∀ d ∈ ['{', '}', ';', '#'], d ∉ (mask text).drop (start + 1) := by
  have free := (masked text).commentFree
  refine ⟨length_mask text, mask_feed_iff text, ?_, free.mask_eq, free, mask_eq_self_iff, ?_⟩
  · intro offset c here
    obtain ⟨shown, there, same | ⟨-, space⟩⟩ := veils_getElem? here
    · exact .inl (same ▸ there)
    · exact .inr (space ▸ there)
  · obtain ⟨start, whole, delimited, undelimited⟩ := sinceLastDelimiter_spec text
    refine ⟨start, whole, delimited.imp_right ?_, ?_⟩
    · rintro ⟨d, there, delimits⟩
      exact ⟨d, isDelimiter_iff.mp delimits, there⟩
    · intro d delimits member
      exact absurd (isDelimiter_iff.mpr delimits) (by simp [undelimited d member])

/-- A line comment opens with the slash of a block comment, a block comment with the star of its
end, and another is left open in front of a line comment. -/
theorem mask_keeps_places_overlapping
    : let text := "a; //*/ \x7b\n/*/ b; */ f(x /* // \x7d\ny".toList
      text[8]? = some '{'
      ∧ (mask text)[8]? = some ' '
      ∧ mask (mask text) = mask text
      ∧ ∃ start,
          sinceLastDelimiter text = text.drop start
          ∧ '}' ∉ (mask text).drop (start + 1) := by
  intro text
  obtain ⟨-, -, shown, again, -, -, start, whole, -, undelimited⟩ := mask_keeps_places text
  have hidden : (mask text)[8]? ≠ some '{' := by decide +kernel
  exact ⟨rfl, (shown 8 '{' rfl).resolve_left hidden, again, start, whole,
    undelimited '}' (by decide)⟩

end DocBlock.Comment
