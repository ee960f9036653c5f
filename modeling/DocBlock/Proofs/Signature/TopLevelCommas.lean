import DocBlock.Proofs.Signature.Balanced

/-! Splitting at the commas outside all brackets, for text of any shape: brackets may be left open
or closed without being opened. The parts joined by commas are the text, no part can be split
further, and a cut is made at every comma in front of which no closer is awaited.
-/

namespace DocBlock.Signature.Brackets

--------------------------------------------------------------------------------
-- Segments
--------------------------------------------------------------------------------

/-- No comma of the text is met while no closer is awaited, if reading starts with `stack`. -/
def Undivided (stack : List Char) (text : Text) : Prop :=
  ∀ before, before ++ [','] <+: text → before.foldl step stack ≠ []

theorem undivided_nil (stack : List Char) : Undivided stack [] := by
  intro before comma
  simp at comma

theorem Undivided.cons {stack : List Char} {c : Char} {text : Text}
    (here : ¬ (c = ',' ∧ stack = [])) (later : Undivided (step stack c) text)
    : Undivided stack (c :: text) := by
  intro before comma
  cases before with
  | nil =>
      obtain ⟨rfl, -⟩ := List.cons_prefix_cons.mp comma
      exact fun none_ => here ⟨rfl, none_⟩
  | cons d before =>
      obtain ⟨rfl, behind⟩ := List.cons_prefix_cons.mp comma
      exact later before behind

/-- The first segment of a text is all of it, or ends in front of the first comma that is met while
no closer is awaited. Witness: induction on the text with any closers awaited.
-/
theorem splitFrom_cases (stack : List Char) (text : Text)
    : (splitFrom stack text = [text] ∧ Undivided stack text)
      ∨ ∃ segment rest,
          text = segment ++ ',' :: rest
          ∧ Undivided stack segment
          ∧ segment.foldl step stack = []
          ∧ splitFrom stack text = segment :: splitAtCommas rest := by
  induction text generalizing stack with
  | nil => exact .inl ⟨rfl, undivided_nil stack⟩
  | cons c rest ih =>
      by_cases cut : c = ',' ∧ stack = []
      · obtain ⟨rfl, rfl⟩ := cut
        exact .inr ⟨[], rest, rfl, undivided_nil [], rfl, rfl⟩
      · have kept : splitFrom stack (c :: rest)
            = Text.consFirst c (splitFrom (step stack c) rest) := by
          simp [splitFrom, cut]
        rcases ih (step stack c) with ⟨whole, undivided⟩ | found
        · exact .inl ⟨by simp [kept, whole, Text.consFirst], undivided.cons cut⟩
        · obtain ⟨segment, later, rfl, undivided, closed, split⟩ := found
          refine .inr ⟨c :: segment, later, rfl, undivided.cons cut, closed, ?_⟩
          simp [kept, split, Text.consFirst]

/-- The segments of a text from the first to the last. Every cut is made where all brackets opened
in its segment are closed, so that the next segment starts with no closer awaited.
-/
inductive Segmented : (text : Text) → (parts : List Text) → Prop where
  | last {segment : Text} (undivided : Undivided [] segment) : Segmented segment [segment]
  | cut {segment rest : Text} {parts : List Text} (undivided : Undivided [] segment)
    (closed : stackAfter segment = []) (later : Segmented rest parts)
    : Segmented (segment ++ ',' :: rest) (segment :: parts)

/-- Splitting gives the segments of the text, by induction on its length. -/
theorem segmented (text : Text) : Segmented text (splitAtCommas text) := by
  induction size : text.length using Nat.strong_induction_on generalizing text with
  | _ n ih =>
      rcases splitFrom_cases [] text with ⟨whole, undivided⟩ | found
      · have alone : splitAtCommas text = [text] := whole
        rw [alone]
        exact .last undivided
      · obtain ⟨segment, rest, rfl, undivided, closed, split⟩ := found
        have first : splitAtCommas (segment ++ ',' :: rest) = segment :: splitAtCommas rest := split
        have shorter : rest.length < n := by
          simp only [List.length_append, List.length_cons] at size
          omega
        rw [first]
        exact .cut undivided closed (ih rest.length shorter rest rfl)

theorem Segmented.parts_ne_nil {text : Text} {parts : List Text} (segments : Segmented text parts)
    : parts ≠ [] := by
  cases segments <;> simp

/-- The segments joined by commas are the text. -/
theorem Segmented.join_eq {text : Text} {parts : List Text} (segments : Segmented text parts)
    : Text.join [','] parts = text := by
  induction segments with
  | last _ => rfl
  | @cut segment rest parts _ _ later ih =>
      obtain ⟨next, more, rfl⟩ := List.exists_cons_of_ne_nil later.parts_ne_nil
      simp [Text.join, ih]

theorem Segmented.undivided {text part : Text} {parts : List Text}
    (segments : Segmented text parts) (member : part ∈ parts)
    : Undivided [] part := by
  induction segments with
  | last undivided => exact List.mem_singleton.mp member ▸ undivided
  | cut undivided _ _ ih =>
      rcases List.mem_cons.mp member with rfl | behind
      · exact undivided
      · exact ih behind

/-- A text without commas outside brackets is not split. -/
theorem Undivided.splitAtCommas_eq {text : Text} (undivided : Undivided [] text)
    : splitAtCommas text = [text] := by
  obtain ⟨first, more, last, split⟩ := exists_splitFrom_enclosed undivided []
  obtain ⟨rfl, rfl⟩ : [] = first ∧ [] = more := by simpa [splitFrom] using last
  simpa [splitAtCommas] using split

--------------------------------------------------------------------------------
-- Cuts
--------------------------------------------------------------------------------

/-- A comma stands at the offset, and no closer is awaited after the text in front of it. -/
def isCut (text : Text) (offset : Nat) : Bool :=
  text[offset]? = some ',' && (stackAfter (text.take offset)).isEmpty

/-- The number of commas in front of which no closer is awaited. -/
def cuts (text : Text) : Nat :=
  (List.range text.length).countP (isCut text)

/-- A text that is not divided has no cut: the text in front of a comma awaits a closer. -/
theorem Undivided.isCut_eq_false {text : Text} (undivided : Undivided [] text) (offset : Nat)
    : isCut text offset = false := by
  by_cases comma : text[offset]? = some ','
  · have front : text.take offset ++ [','] <+: text := by
      have next := List.take_add_one (l := text) (i := offset)
      rw [comma] at next
      exact next ▸ List.take_prefix (offset + 1) text
    have awaited : stackAfter (text.take offset) ≠ [] := undivided _ front
    simp [isCut, awaited]
  · simp [isCut, comma]

theorem isCut_append_left {segment : Text} {offset : Nat} (inside : offset < segment.length)
    (rest : Text)
    : isCut (segment ++ rest) offset = isCut segment offset := by
  simp [isCut, List.getElem?_append_left inside, List.take_append_of_le_length inside.le]

theorem isCut_comma {segment : Text} (closed : stackAfter segment = []) (rest : Text)
    : isCut (segment ++ ',' :: rest) segment.length = true := by
  simp [isCut, closed]

/-- Behind a cut the offsets are those of the rest. -/
theorem isCut_append_right {segment : Text} (closed : stackAfter segment = []) (rest : Text)
    (offset : Nat)
    : isCut (segment ++ ',' :: rest) (segment.length + (offset + 1)) = isCut rest offset := by
  have awaited (later : Text) : stackAfter (segment ++ ',' :: later) = stackAfter later := by
    rw [stackAfter_append, closed]
    rfl
  have same : (segment ++ ',' :: rest)[segment.length + (offset + 1)]? = rest[offset]? := by
    rw [List.getElem?_append_right (Nat.le_add_right _ _), Nat.add_sub_cancel_left,
      List.getElem?_cons_succ]
  rw [isCut, same, List.take_length_add_append, List.take_succ_cons, awaited, isCut]

theorem cuts_of_undivided {text : Text} (undivided : Undivided [] text) : cuts text = 0 := by
  simp [cuts, List.countP_eq_zero, undivided.isCut_eq_false]

/-- The offsets of a text with a cut are those of its first segment, the comma and those of the
rest. -/
theorem cuts_append {segment : Text} (undivided : Undivided [] segment)
    (closed : stackAfter segment = []) (rest : Text)
    : cuts (segment ++ ',' :: rest) = 1 + cuts rest := by
  have offsets : List.range (segment ++ ',' :: rest).length
      = List.range segment.length
        ++ segment.length :: (List.range rest.length).map (segment.length + · + 1) := by
    rw [List.length_append, List.length_cons, List.range_add, List.range_succ_eq_map]
    simp [Function.comp_def, Nat.add_assoc]
  have front : (List.range segment.length).countP (isCut (segment ++ ',' :: rest)) = 0 := by
    refine List.countP_eq_zero.mpr fun offset member => ?_
    rw [isCut_append_left (List.mem_range.mp member), undivided.isCut_eq_false]
    exact Bool.false_ne_true
  have behind : isCut (segment ++ ',' :: rest) ∘ (segment.length + · + 1) = isCut rest :=
    funext fun offset => isCut_append_right closed rest offset
  rw [cuts, offsets, List.countP_append, front, List.countP_cons_of_pos (isCut_comma closed rest),
    List.countP_map, behind, ← cuts]
  omega

/-- A text is cut once between any two of its segments. -/
theorem Segmented.length_eq {text : Text} {parts : List Text} (segments : Segmented text parts)
    : parts.length = 1 + cuts text := by
  induction segments with
  | last undivided => simp [cuts_of_undivided undivided]
  | @cut segment rest parts undivided closed _ ih =>
      rw [cuts_append undivided closed, List.length_cons, ih]
      omega

--------------------------------------------------------------------------------
-- Main statement
--------------------------------------------------------------------------------

/-- Splitting at the commas outside all brackets loses nothing, leaves no part that could be split
again, and cuts at each comma in front of which no closer is awaited and at no other place. -/
theorem splitAtCommas_divides (text : Text)
    : Text.join [','] (splitAtCommas text) = text
      ∧ (∀ part ∈ splitAtCommas text, splitAtCommas part = [part])
      ∧ (splitAtCommas text).length = 1 + cuts text := by
  have segments := segmented text
  refine ⟨segments.join_eq, ?_, segments.length_eq⟩
  intro part member
  exact (segments.undivided member).splitAtCommas_eq

/-- Closers that are not awaited are passed over, and a list that is left open is one part with its
commas. -/
theorem splitAtCommas_divides_unbalanced
    : let text := "map<K, V> m, int (*f)(a, b]), c), d[x, (y, z".toList
      let part := " d[x, (y, z".toList
      part ∈ splitAtCommas text
      ∧ splitAtCommas part = [part]
      ∧ (splitAtCommas text).length = 4 := by
  intro text part
  have member : part ∈ splitAtCommas text := by decide +kernel
  obtain ⟨-, alone, count⟩ := splitAtCommas_divides text
  refine ⟨member, alone part member, count.trans ?_⟩
  decide +kernel

end DocBlock.Signature.Brackets
