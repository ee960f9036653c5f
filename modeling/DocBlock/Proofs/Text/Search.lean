import DocBlock.Proofs.Text.Runs
import DocBlock.Text.Scan
import Mathlib.Data.List.Infix

/-! What the searches of a text find, in terms of the text itself: a reader of a fixed pattern
succeeds on the texts that start with it, a cut is made at the first occurrence, and the last
occurrence is where the pattern is found from behind.
-/

namespace DocBlock.Text

--------------------------------------------------------------------------------
-- Front of a text
--------------------------------------------------------------------------------

/-- Reading a fixed pattern splits the text behind it, by induction on the pattern. -/
theorem after?_eq_some_iff {pattern text rest : Text}
    : after? pattern text = some rest ↔ text = pattern ++ rest := by
  induction pattern generalizing text with
  | nil => simp [after?]
  | cons p pattern ih =>
      cases text with
      | nil => simp [after?]
      | cons c text =>
          by_cases same : p = c
          · simp [after?, same, ih]
          · simp [after?, same, Ne.symm same]

@[simp]
theorem after?_append (pattern rest : Text) : after? pattern (pattern ++ rest) = some rest :=
  after?_eq_some_iff.mpr rfl

theorem startsWith_iff {pattern text : Text}
    : startsWith pattern text = true ↔ pattern <+: text := by
  rw [startsWith, Option.isSome_iff_exists]
  constructor
  · rintro ⟨rest, found⟩
    exact ⟨rest, (after?_eq_some_iff.mp found).symm⟩
  · rintro ⟨rest, rfl⟩
    exact ⟨rest, after?_append pattern rest⟩

/-- A pattern that lacks a character is found in front of it, by induction on that text. -/
theorem isPrefix_of_append_stop {pattern text rest : Text} {c : Char} (absent : c ∉ pattern)
    (starts : pattern <+: text ++ c :: rest)
    : pattern <+: text := by
  induction text generalizing pattern with
  | nil =>
      cases pattern with
      | nil => exact List.nil_prefix
      | cons p pattern =>
          rw [List.nil_append, List.cons_prefix_cons] at starts
          exact absurd (starts.1 ▸ List.mem_cons_self) absent
  | cons d text ih =>
      cases pattern with
      | nil => exact List.nil_prefix
      | cons p pattern =>
          rw [List.cons_append, List.cons_prefix_cons] at starts
          rw [List.mem_cons, not_or] at absent
          exact List.cons_prefix_cons.mpr ⟨starts.1, ih absent.2 starts.2⟩

/-- Whether a pattern starts a text is settled before a character that stands nowhere but at the
start of the pattern. -/
theorem startsWith_append_stop {pattern text : Text} {c : Char} (absent : c ∉ pattern.tail)
    (nonempty : text ≠ []) (rest : Text)
    : startsWith pattern (text ++ c :: rest) = startsWith pattern text := by
  rw [Bool.eq_iff_iff, startsWith_iff, startsWith_iff]
  refine ⟨fun starts => ?_, fun starts => starts.trans (List.prefix_append _ _)⟩
  obtain ⟨d, text, rfl⟩ := List.exists_cons_of_ne_nil nonempty
  cases pattern with
  | nil => exact List.nil_prefix
  | cons p pattern =>
      rw [List.cons_append, List.cons_prefix_cons] at starts
      exact List.cons_prefix_cons.mpr ⟨starts.1, isPrefix_of_append_stop absent starts.2⟩

theorem endsWith_iff {pattern text : Text} : endsWith pattern text = true ↔ pattern <:+ text := by
  rw [endsWith, startsWith_iff, List.reverse_prefix]

theorem after?_cons_of_ne {p c : Char} (differ : c ≠ p) (pattern rest : Text)
    : after? (p :: pattern) (c :: rest) = none := by
  simp [after?, Ne.symm differ]

theorem after?_of_not_mem {pattern text : Text} {c : Char} (member : c ∈ pattern)
    (absent : c ∉ text)
    : after? pattern text = none := by
  refine Option.eq_none_iff_forall_not_mem.mpr fun rest found => absent ?_
  rw [after?_eq_some_iff.mp found]
  exact List.mem_append_left rest member

/-- A word is the run of word characters at the front, which is not empty. -/
theorem wordRun?_sound {text word rest : Text} (found : wordRun? text = some (word, rest))
    : word = text.takeWhile isWord ∧ rest = text.dropWhile isWord ∧ word ≠ [] := by
  unfold wordRun? at found
  split at found
  · contradiction
  · next nonempty =>
    obtain ⟨rfl, rfl⟩ := Prod.mk.inj (Option.some.inj found)
    exact ⟨rfl, rfl, nonempty⟩

/-- A word is settled before a character that is not part of it. -/
theorem wordRun?_append_stop {c : Char} (outside : isWord c = false) (text rest : Text)
    : wordRun? (text ++ c :: rest)
      = (wordRun? text).map fun (word, later) => (word, later ++ c :: rest) := by
  have taken := takeWhile_append_stop outside text rest
  have left := dropWhile_append_stop outside text rest
  unfold wordRun?
  rw [taken, left]
  split <;> simp_all

--------------------------------------------------------------------------------
-- Breaking at a stop
--------------------------------------------------------------------------------

/-- A break passes over a front inside which nothing stops, and is made where the rest stops.
Witness: induction on the front; every position of it lies before the rest.
-/
theorem breakAt_of_stop {stop : Text → Bool} {front rest : Text}
    (passes : ∀ c later, c :: later <:+ front → stop (c :: later ++ rest) = false)
    (stops : rest = [] ∨ stop rest = true)
    : breakAt stop (front ++ rest) = (front, rest) := by
  induction front with
  | nil =>
      cases rest with
      | nil => rfl
      | cons c later =>
          have here : stop (c :: later) = true := stops.resolve_left (by simp)
          simp [breakAt, here]
  | cons c front ih =>
      have here := passes c front List.suffix_rfl
      have later := ih fun d more suffix =>
        passes d more (suffix.trans (List.suffix_cons c front))
      simp only [List.cons_append] at here
      simp [breakAt, here, later]

/-- A break is made at the latest where the rest stops, by induction on the front. -/
theorem breakAt_isPrefix {stop : Text → Bool} {rest : Text} (stops : stop rest = true)
    (nonempty : rest ≠ []) (front : Text)
    : (breakAt stop (front ++ rest)).1 <+: front := by
  induction front with
  | nil =>
      obtain ⟨c, later, rfl⟩ := List.exists_cons_of_ne_nil nonempty
      simp [breakAt, stops]
  | cons c front ih =>
      by_cases here : stop (c :: (front ++ rest)) = true
      · simp [breakAt, here]
      · simpa [breakAt, here] using ih

--------------------------------------------------------------------------------
-- First occurrence
--------------------------------------------------------------------------------

theorem cut?_append {pattern : Text} (nonempty : pattern ≠ []) (rest : Text)
    : cut? pattern (pattern ++ rest) = some ([], rest) := by
  obtain ⟨p, pattern, rfl⟩ := List.exists_cons_of_ne_nil nonempty
  have here := after?_append (p :: pattern) rest
  simp only [List.cons_append] at here
  simp [cut?, here]

/-- What is not cut does not occur, by induction on the text. -/
theorem cut?_eq_none {pattern text : Text} (missing : cut? pattern text = none)
    : ¬ pattern <:+: text := by
  induction text with
  | nil =>
      intro occurs
      rw [List.infix_nil] at occurs
      subst occurs
      simp [cut?, after?] at missing
  | cons c rest ih =>
      cases here : after? pattern (c :: rest) with
      | some later => simp [cut?, here] at missing
      | none =>
          simp only [cut?, here, Option.map_eq_none_iff] at missing
          intro occurs
          rcases List.infix_cons_iff.mp occurs with start | inside
          · have starts := startsWith_iff.mpr start
            simp [startsWith, here] at starts
          · exact ih missing inside

/-- A position in a joined text lies in either part. -/
theorem suffix_append_cases {left right rest : Text} {c : Char}
    (position : c :: rest <:+ left ++ right)
    : (∃ inside, rest = inside ++ right ∧ c :: inside <:+ left) ∨ c :: rest <:+ right := by
  obtain ⟨before, whole⟩ := position
  rcases List.append_eq_append_iff.mp whole with ⟨middle, front, later⟩ | ⟨middle, -, later⟩
  · cases middle with
    | nil => exact .inr ⟨[], later⟩
    | cons d inside =>
        obtain ⟨rfl, rfl⟩ : c = d ∧ rest = inside ++ right := by simpa using later
        exact .inl ⟨inside, rfl, before, front.symm⟩
  · exact .inr ⟨middle, later.symm⟩

/-- A position at a character that the second part lacks lies in the first part. -/
theorem suffix_of_not_mem_right {left right rest : Text} {c : Char} (absent : c ∉ right)
    (position : c :: rest <:+ left ++ right)
    : ∃ inside, rest = inside ++ right ∧ c :: inside <:+ left := by
  rcases suffix_append_cases position with inside | behind
  · exact inside
  · exact absurd (behind.subset List.mem_cons_self) absent

/-- A position at a character that the first part lacks lies in the second part. -/
theorem suffix_of_not_mem_left {left right rest : Text} {c : Char} (absent : c ∉ left)
    (position : c :: rest <:+ left ++ right)
    : c :: rest <:+ right := by
  rcases suffix_append_cases position with ⟨inside, -, within⟩ | behind
  · exact absurd (within.subset List.mem_cons_self) absent
  · exact behind

/-- A pattern that starts with a character the first part lacks stands in the second part. -/
theorem isInfix_of_not_mem_left {left right pattern : Text} {c : Char} (absent : c ∉ left)
    (inside : c :: pattern <:+: left ++ right)
    : c :: pattern <:+: right := by
  obtain ⟨before, later, whole⟩ := inside
  have position : c :: (pattern ++ later) <:+ left ++ right := ⟨before, by simpa using whole⟩
  obtain ⟨front, rfl⟩ := suffix_of_not_mem_left absent position
  exact ⟨front, later, by simp⟩

/-- A pair of characters occurs in a joined text inside one part or across the joint. -/
theorem pair_infix_append {a b : Char} {left right : Text}
    : [a, b] <:+: left ++ right
      ↔ [a, b] <:+: left
        ∨ [a, b] <:+: right
        ∨ (left.getLast? = some a ∧ right.head? = some b) := by
  rw [List.infix_append_iff_ne_nil]
  refine or_congr_right (or_congr_right ?_)
  constructor
  · rintro ⟨first, second, firstNonempty, secondNonempty, whole, ⟨front, rfl⟩, ⟨rest, rfl⟩⟩
    obtain ⟨x, first, rfl⟩ := List.exists_cons_of_ne_nil firstNonempty
    obtain ⟨y, second, rfl⟩ := List.exists_cons_of_ne_nil secondNonempty
    cases first with
    | nil =>
        simp only [List.cons_append, List.nil_append, List.cons.injEq] at whole
        obtain ⟨rfl, rfl, -⟩ := whole
        simp
    | cons z first => simp at whole
  · rintro ⟨last, first⟩
    obtain ⟨front, rfl⟩ := List.getLast?_eq_some_iff.mp last
    obtain ⟨rest, rfl⟩ := List.head?_eq_some_iff.mp first
    exact ⟨[a], [b], by simp, by simp, rfl, List.suffix_append front [a], by simp⟩

/-- Cutting at a pair of characters splits the text around an occurrence before which there is
none. Witness: induction on the text, following the search.
-/
theorem cut?_pair_sound {a b : Char} {text before later : Text}
    (found : cut? [a, b] text = some (before, later))
    : text = before ++ a :: b :: later ∧ ¬ [a, b] <:+: before := by
  induction text generalizing before with
  | nil => simp [cut?, after?] at found
  | cons c rest ih =>
      cases here : after? [a, b] (c :: rest) with
      | some tail =>
          simp only [cut?, here, Option.some.injEq, Prod.mk.injEq] at found
          obtain ⟨rfl, rfl⟩ := found
          exact ⟨by simpa using after?_eq_some_iff.mp here, by simp⟩
      | none =>
          simp only [cut?, here, Option.map_eq_some_iff, Prod.mk.injEq] at found
          obtain ⟨⟨front, tail⟩, cut, rfl, rfl⟩ := found
          obtain ⟨rfl, free⟩ := ih cut
          refine ⟨rfl, ?_⟩
          rw [List.infix_cons_iff]
          rintro (start | inside)
          · obtain ⟨more, same⟩ := start
            have starts : after? [a, b] (c :: (front ++ a :: b :: tail))
                = some (more ++ a :: b :: tail) :=
              after?_eq_some_iff.mpr (by rw [← List.cons_append, ← same]; simp)
            simp [starts] at here
          · exact free inside

/-- A pair of distinct characters is cut at the end of a front in which it does not occur.
Witness: induction on the front; the pair cannot start at its last character.
-/
theorem cut?_pair {a b : Char} {front : Text} (distinct : a ≠ b)
    (free : ¬ [a, b] <:+: front) (later : Text)
    : cut? [a, b] (front ++ a :: b :: later) = some (front, later) := by
  induction front with
  | nil => simp [cut?, after?]
  | cons c front ih =>
      rw [List.infix_cons_iff, not_or] at free
      have rest := ih free.2
      have here : after? [a, b] (c :: (front ++ a :: b :: later)) = none := by
        cases front with
        | nil => simp [after?, Ne.symm distinct]
        | cons d front =>
            have start : ¬ (a = c ∧ b = d) := by
              rintro ⟨rfl, rfl⟩
              exact free.1 (by simp)
            by_cases same : a = c
            · have other : b ≠ d := fun equal => start ⟨same, equal⟩
              simp [after?, other]
            · simp [after?, same]
      simp [cut?, here, rest]

--------------------------------------------------------------------------------
-- Last occurrence
--------------------------------------------------------------------------------

/-- Where a pattern was last found, it stands, by induction on the text. -/
theorem lastIndexOf?_sound {pattern text : Text} {i : Nat}
    (found : lastIndexOf? pattern text = some i)
    : ∃ front later, text = front ++ pattern ++ later ∧ front.length = i := by
  induction text generalizing i with
  | nil =>
      simp only [lastIndexOf?, List.isEmpty_iff, Option.ite_none_right_eq_some,
        Option.some.injEq] at found
      obtain ⟨rfl, rfl⟩ := found
      exact ⟨[], [], rfl, rfl⟩
  | cons c rest ih =>
      cases behind : lastIndexOf? pattern rest with
      | some j =>
          simp only [lastIndexOf?, behind, Option.some.injEq] at found
          obtain ⟨front, later, rfl, rfl⟩ := ih behind
          exact ⟨c :: front, later, rfl, found⟩
      | none =>
          simp only [lastIndexOf?, behind, Option.ite_none_right_eq_some,
            Option.some.injEq] at found
          obtain ⟨starts, rfl⟩ := found
          obtain ⟨later, whole⟩ := startsWith_iff.mp starts
          exact ⟨[], later, whole.symm, rfl⟩

theorem lastIndexOf?_isSome {pattern text : Text} (occurs : pattern <:+: text)
    : ∃ i, lastIndexOf? pattern text = some i := by
  induction text with
  | nil =>
      rw [List.infix_nil] at occurs
      exact ⟨0, by simp [lastIndexOf?, occurs]⟩
  | cons c rest ih =>
      cases later : lastIndexOf? pattern rest with
      | some j => exact ⟨j + 1, by simp [lastIndexOf?, later]⟩
      | none =>
          rcases List.infix_cons_iff.mp occurs with start | inside
          · exact ⟨0, by simp [lastIndexOf?, later, startsWith_iff.mpr start]⟩
          · obtain ⟨j, found⟩ := ih inside
            simp [later] at found

theorem lastIndexOf?_eq_none {pattern text : Text} (absent : ¬ pattern <:+: text)
    : lastIndexOf? pattern text = none := by
  cases found : lastIndexOf? pattern text with
  | none => rfl
  | some i =>
      obtain ⟨front, later, whole, -⟩ := lastIndexOf?_sound found
      exact absurd ⟨front, later, whole.symm⟩ absent

/-- Text in front moves the last occurrence, by induction on that text. -/
theorem lastIndexOf?_append_left {pattern text : Text} {i : Nat}
    (found : lastIndexOf? pattern text = some i) (front : Text)
    : lastIndexOf? pattern (front ++ text) = some (front.length + i) := by
  induction front with
  | nil => simpa using found
  | cons c front ih =>
      simp only [List.cons_append, lastIndexOf?, ih, List.length_cons, Option.some.injEq]
      omega

/-- The last occurrence is the one behind which the last character of the pattern is missing.
Witness: an occurrence further on would end behind this one, with that character.
-/
theorem lastIndexOf?_append {pattern later : Text} {c : Char}
    (last : pattern.getLast? = some c) (missing : c ∉ later) (front : Text)
    : lastIndexOf? pattern (front ++ pattern ++ later) = some front.length := by
  cases pattern with
  | nil => simp at last
  | cons p pattern =>
      have absent : ¬ p :: pattern <:+: pattern ++ later := by
        rintro ⟨before, behind, whole⟩
        have shown : (pattern ++ later)[pattern.length + before.length]? = some c := by
          rw [← whole, List.append_assoc, List.getElem?_append_right (by omega),
            Nat.add_sub_cancel, List.getElem?_append_left (by simp), ← last,
            List.getLast?_eq_getElem?, List.length_cons, Nat.add_sub_cancel]
        rw [List.getElem?_append_right (by omega), Nat.add_sub_cancel_left] at shown
        exact missing (List.mem_of_getElem? shown)
      have starts : startsWith (p :: pattern) (p :: (pattern ++ later)) = true :=
        startsWith_iff.mpr ⟨later, rfl⟩
      have here : lastIndexOf? (p :: pattern) (p :: pattern ++ later) = some 0 := by
        simp [lastIndexOf?, lastIndexOf?_eq_none absent, starts]
      simpa only [List.append_assoc, Nat.add_zero] using lastIndexOf?_append_left here front

/-- No occurrence stands behind the last one. -/
theorem length_le_of_lastIndexOf? {pattern front later : Text} {i : Nat}
    (found : lastIndexOf? pattern (front ++ pattern ++ later) = some i)
    : front.length ≤ i := by
  obtain ⟨j, behind⟩ := lastIndexOf?_isSome (List.prefix_append pattern later).isInfix
  rw [List.append_assoc, lastIndexOf?_append_left behind front, Option.some.injEq] at found
  omega

/-- A tail without the last character of the pattern has no part in an occurrence, by induction on
the text in front of it. -/
theorem lastIndexOf?_append_right {pattern tail : Text} {c : Char}
    (last : pattern.getLast? = some c) (missing : c ∉ tail) (text : Text)
    : lastIndexOf? pattern (text ++ tail) = lastIndexOf? pattern text := by
  have member : c ∈ pattern := List.mem_of_getLast? last
  induction text with
  | nil =>
      have none : lastIndexOf? pattern [] = none :=
        lastIndexOf?_eq_none fun inside => by
          rw [List.infix_nil] at inside
          simp [inside] at member
      rw [none]
      exact lastIndexOf?_eq_none fun inside => missing (inside.subset member)
  | cons d text ih =>
      have starts : startsWith pattern (d :: (text ++ tail)) = startsWith pattern (d :: text) := by
        rw [Bool.eq_iff_iff, startsWith_iff, startsWith_iff]
        refine ⟨fun inside => ?_, fun inside => inside.trans (List.prefix_append _ tail)⟩
        obtain ⟨rest, whole⟩ := inside
        rw [← List.cons_append] at whole
        rcases List.append_eq_append_iff.mp whole with ⟨more, here, -⟩ | ⟨more, here, behind⟩
        · exact ⟨more, here.symm⟩
        · rcases List.eq_nil_or_concat more with rfl | ⟨inner, e, rfl⟩
          · simp [here]
          · rw [here, List.getLast?_append] at last
            obtain rfl : e = c := by simpa using last
            exact absurd (by simp [behind]) missing
      simp only [List.cons_append, lastIndexOf?, ih, starts]

/-- An occurrence lies on either side of a character that the pattern lacks, by induction on the
text in front of it. -/
theorem lastIndexOf?_separated {pattern : Text} {c : Char} (absent : c ∉ pattern)
    (nonempty : pattern ≠ []) (left right : Text)
    : lastIndexOf? pattern (left ++ c :: right)
      = ((lastIndexOf? pattern right).map (left.length + 1 + ·)).or
          (lastIndexOf? pattern left) := by
  cases behind : lastIndexOf? pattern right with
  | some i =>
      have moved := lastIndexOf?_append_left behind (left ++ [c])
      simpa using moved
  | none =>
      rw [Option.map_none, Option.none_or]
      have differs : startsWith pattern (c :: right) = false := by
        obtain ⟨p, pattern, rfl⟩ := List.exists_cons_of_ne_nil nonempty
        rw [Bool.eq_false_iff, ne_eq, startsWith_iff, List.cons_prefix_cons]
        exact fun starts => absent (starts.1 ▸ List.mem_cons_self)
      induction left with
      | nil => simp [lastIndexOf?, behind, differs, nonempty]
      | cons d left ih =>
          have starts := startsWith_append_stop (mt List.mem_of_mem_tail absent)
            (List.cons_ne_nil d left) right
          rw [List.cons_append] at starts
          simp only [List.cons_append, lastIndexOf?, ih, starts]

--------------------------------------------------------------------------------
-- First position of a recogniser
--------------------------------------------------------------------------------

/-- What is found first stands behind the text passed over, and nothing is recognised earlier,
by induction on the text. -/
theorem findFirst?_sound {α : Type} {recognise : Text → Option α} {text before : Text} {value : α}
    (found : findFirst? recognise text = some (before, value))
    : ∃ rest, text = before ++ rest ∧ recognise rest = some value := by
  induction text generalizing before with
  | nil =>
      simp only [findFirst?, Option.map_eq_some_iff, Prod.mk.injEq] at found
      obtain ⟨_, here, rfl, rfl⟩ := found
      exact ⟨[], rfl, here⟩
  | cons c rest ih =>
      cases here : recognise (c :: rest) with
      | some first =>
          simp only [findFirst?, here, Option.some.injEq, Prod.mk.injEq] at found
          obtain ⟨rfl, rfl⟩ := found
          exact ⟨c :: rest, rfl, here⟩
      | none =>
          simp only [findFirst?, here, Option.map_eq_some_iff, Prod.mk.injEq] at found
          obtain ⟨⟨front, _⟩, later, rfl, rfl⟩ := found
          obtain ⟨tail, rfl, recognised⟩ := ih later
          exact ⟨tail, rfl, recognised⟩

/-- A recogniser that fails throughout a front finds what it finds first in the rest. -/
theorem findFirst?_append {α : Type} {recognise : Text → Option α} {front rest : Text}
    (fails : ∀ c later, c :: later <:+ front → recognise (c :: later ++ rest) = none)
    : findFirst? recognise (front ++ rest)
      = (findFirst? recognise rest).map fun (before, value) => (front ++ before, value) := by
  induction front with
  | nil => simp
  | cons c front ih =>
      have here := fails c front List.suffix_rfl
      have later := ih fun d more suffix =>
        fails d more (suffix.trans (List.suffix_cons c front))
      simp only [List.cons_append] at here
      simp only [List.cons_append, findFirst?, here, later, Option.map_map]
      rfl

/-- A recogniser that succeeds on the whole text is satisfied at its start. -/
theorem findFirst?_here {α : Type} {recognise : Text → Option α} {text : Text} {value : α}
    (here : recognise text = some value)
    : findFirst? recognise text = some ([], value) := by
  cases text with
  | nil => simp [findFirst?, here]
  | cons c rest => simp [findFirst?, here]

/-- Something is found if it is recognised at some position, by induction on the text in front. -/
theorem findFirst?_isSome {α : Type} {recognise : Text → Option α} {rest : Text} {value : α}
    (here : recognise rest = some value) (front : Text)
    : ∃ found, findFirst? recognise (front ++ rest) = some found := by
  induction front with
  | nil => exact ⟨_, findFirst?_here here⟩
  | cons c front ih =>
      obtain ⟨found, later⟩ := ih
      cases first : recognise (c :: (front ++ rest)) with
      | some other => exact ⟨_, findFirst?_here first⟩
      | none => simp [findFirst?, first, later]

/-- There is one way to split a text around the last occurrence of a character. -/
theorem append_cons_unique {c : Char} {left right first second : Text} (absent : c ∉ right)
    (missing : c ∉ second) (whole : left ++ c :: right = first ++ c :: second)
    : left = first ∧ right = second := by
  rcases List.append_eq_append_iff.mp whole with ⟨more, rfl, later⟩ | ⟨more, rfl, later⟩
  all_goals
    cases more with
    | nil => simp_all
    | cons d more =>
        obtain ⟨-, rfl⟩ := List.cons.inj later
        simp at absent missing

end DocBlock.Text
