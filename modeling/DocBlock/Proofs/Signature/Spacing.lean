import DocBlock.Proofs.Text.Classes
import DocBlock.Proofs.Text.Runs
import DocBlock.Proofs.Text.Words
import DocBlock.Signature.Parameters
import Mathlib.Data.List.Forall2

/-! The width of white space between the parts of a parameter list does not matter: two lists that
differ in nothing else declare the same parameters.
-/

namespace DocBlock.Text

--------------------------------------------------------------------------------
-- Related results
--------------------------------------------------------------------------------

section

variable {α β : Type} {R : α → α → Prop} {S : β → β → Prop} {one two : Option α}

theorem rel_map {f g : α → β} (read : Option.Rel R one two)
    (keeps : ∀ value other, R value other → S (f value) (g other))
    : Option.Rel S (one.map f) (two.map g) := by
  cases read with
  | none => exact .none
  | some alike => exact .some (keeps _ _ alike)

theorem rel_bind {f g : α → Option β} (read : Option.Rel R one two)
    (keeps : ∀ value other, R value other → Option.Rel S (f value) (g other))
    : Option.Rel S (one.bind f) (two.bind g) := by
  cases read with
  | none => exact .none
  | some alike => exact keeps _ _ alike

theorem rel_orElse {more others : Option α} (read : Option.Rel R one two)
    (later : Option.Rel R more others)
    : Option.Rel R (one <|> more) (two <|> others) := by
  cases read with
  | none => exact later
  | some alike => exact .some alike

theorem eq_none_of_rel (read : Option.Rel R none two) : two = none := by
  cases read
  rfl

end

--------------------------------------------------------------------------------
-- Texts that differ in the width of their white space
--------------------------------------------------------------------------------

/-- Two texts that are the same but for the white space in their gaps. A gap of one is a gap of the
other: neither is empty. -/
inductive Respaced : Text → Text → Prop where
  | nil : Respaced [] []
  | letter {c : Char} {first second : Text} (outside : isSpace c = false)
    (more : Respaced first second)
    : Respaced (c :: first) (c :: second)
  | gap {left right first second : Text} (leftNonempty : left ≠ []) (rightNonempty : right ≠ [])
    (leftSpace : ∀ c ∈ left, isSpace c = true) (rightSpace : ∀ c ∈ right, isSpace c = true)
    (more : Respaced first second)
    : Respaced (left ++ first) (right ++ second)

namespace Respaced

variable {first second : Text}

theorem refl (text : Text) : Respaced text text := by
  induction text with
  | nil => exact .nil
  | cons c rest ih =>
      by_cases space : isSpace c = true
      · have alone : ∀ d ∈ [c], isSpace d = true := by simpa using space
        exact .gap (List.cons_ne_nil c []) (List.cons_ne_nil c []) alone alone ih
      · exact .letter (by simpa using space) ih

theorem symm (same : Respaced first second) : Respaced second first := by
  induction same with
  | nil => exact .nil
  | letter outside more ih => exact .letter outside ih
  | gap leftNonempty rightNonempty leftSpace rightSpace more ih =>
      exact .gap rightNonempty leftNonempty rightSpace leftSpace ih

theorem append {left right : Text} (front : Respaced first second) (back : Respaced left right)
    : Respaced (first ++ left) (second ++ right) := by
  induction front with
  | nil => exact back
  | letter outside more ih => exact .letter outside ih
  | gap leftNonempty rightNonempty leftSpace rightSpace more ih =>
      rw [List.append_assoc, List.append_assoc]
      exact .gap leftNonempty rightNonempty leftSpace rightSpace ih

theorem reverse (same : Respaced first second) : Respaced first.reverse second.reverse := by
  induction same with
  | nil => exact .nil
  | @letter c first second outside more ih =>
      rw [List.reverse_cons, List.reverse_cons]
      exact ih.append (.refl [c])
  | @gap left right first second leftNonempty rightNonempty leftSpace rightSpace more ih =>
      have turned : Respaced (left.reverse ++ []) (right.reverse ++ []) :=
        .gap (by simpa using leftNonempty) (by simpa using rightNonempty)
          (by simpa using leftSpace) (by simpa using rightSpace) .nil
      rw [List.append_nil, List.append_nil] at turned
      rw [List.reverse_append, List.reverse_append]
      exact ih.append turned

theorem eq_nil_iff (same : Respaced first second) : first = [] ↔ second = [] := by
  cases same with
  | nil => rfl
  | letter => simp
  | gap leftNonempty rightNonempty => simp [leftNonempty, rightNonempty]

theorem isEmpty_eq (same : Respaced first second) : first.isEmpty = second.isEmpty :=
  Bool.eq_iff_iff.mpr (by simpa only [List.isEmpty_iff] using same.eq_nil_iff)

/-- Without a gap there is no difference, by induction on the texts. -/
theorem eq_of_unspaced (same : Respaced first second) (unspaced : ∀ c ∈ second, isSpace c = false)
    : first = second := by
  induction same with
  | nil => rfl
  | letter outside more ih => rw [ih fun c member => unspaced c (List.mem_cons_of_mem _ member)]
  | @gap left right first second leftNonempty rightNonempty leftSpace rightSpace more ih =>
      obtain ⟨c, right, rfl⟩ := List.exists_cons_of_ne_nil rightNonempty
      have inside := rightSpace c List.mem_cons_self
      rw [unspaced c (by simp)] at inside
      contradiction

/-- A run of a class that holds all white space keeps its extent, by induction on the texts. -/
theorem run {p : Char → Bool} (spaces : ∀ c, isSpace c = true → p c = true)
    (same : Respaced first second)
    : Respaced (first.takeWhile p) (second.takeWhile p)
      ∧ Respaced (first.dropWhile p) (second.dropWhile p) := by
  induction same with
  | nil => exact ⟨.nil, .nil⟩
  | @letter c first second outside more ih =>
      by_cases inside : p c = true
      · rw [List.takeWhile_cons_of_pos inside, List.takeWhile_cons_of_pos inside,
          List.dropWhile_cons_of_pos inside, List.dropWhile_cons_of_pos inside]
        exact ⟨.letter outside ih.1, ih.2⟩
      · rw [List.takeWhile_cons_of_neg inside, List.takeWhile_cons_of_neg inside,
          List.dropWhile_cons_of_neg inside, List.dropWhile_cons_of_neg inside]
        exact ⟨.nil, .letter outside more⟩
  | @gap left right first second leftNonempty rightNonempty leftSpace rightSpace more ih =>
      have leftInside : ∀ c ∈ left, p c = true := fun c member => spaces c (leftSpace c member)
      have rightInside : ∀ c ∈ right, p c = true := fun c member => spaces c (rightSpace c member)
      rw [List.takeWhile_append_of_pos leftInside, List.takeWhile_append_of_pos rightInside,
        List.dropWhile_append_of_pos leftInside, List.dropWhile_append_of_pos rightInside]
      exact ⟨.gap leftNonempty rightNonempty leftSpace rightSpace ih.1, ih.2⟩

theorem spaces (same : Respaced first second)
    : Respaced (first.takeWhile isSpace) (second.takeWhile isSpace)
      ∧ Respaced (first.dropWhile isSpace) (second.dropWhile isSpace) :=
  same.run fun _ space => space

/-- A word at the front is the same word, by induction on the texts. -/
theorem word (same : Respaced first second)
    : first.takeWhile isWord = second.takeWhile isWord
      ∧ Respaced (first.dropWhile isWord) (second.dropWhile isWord) := by
  induction same with
  | nil => exact ⟨rfl, .nil⟩
  | @letter c first second outside more ih =>
      by_cases inside : isWord c = true
      · rw [List.takeWhile_cons_of_pos inside, List.takeWhile_cons_of_pos inside,
          List.dropWhile_cons_of_pos inside, List.dropWhile_cons_of_pos inside, ih.1]
        exact ⟨rfl, ih.2⟩
      · rw [List.takeWhile_cons_of_neg inside, List.takeWhile_cons_of_neg inside,
          List.dropWhile_cons_of_neg inside, List.dropWhile_cons_of_neg inside]
        exact ⟨rfl, .letter outside more⟩
  | @gap left right first second leftNonempty rightNonempty leftSpace rightSpace more ih =>
      have stop {gap : Text} (nonempty : gap ≠ []) (space : ∀ c ∈ gap, isSpace c = true)
          (rest : Text)
          : (gap ++ rest).takeWhile isWord = [] ∧ (gap ++ rest).dropWhile isWord = gap ++ rest := by
        obtain ⟨c, gap, rfl⟩ := List.exists_cons_of_ne_nil nonempty
        simp [isWord_of_isSpace (space c List.mem_cons_self)]
      rw [(stop leftNonempty leftSpace first).1, (stop rightNonempty rightSpace second).1,
        (stop leftNonempty leftSpace first).2, (stop rightNonempty rightSpace second).2]
      exact ⟨rfl, .gap leftNonempty rightNonempty leftSpace rightSpace more⟩

theorem trim (same : Respaced first second) : Respaced (Text.trim first) (Text.trim second) :=
  same.spaces.2.reverse.spaces.2.reverse

theorem withoutSpace (same : Respaced first second)
    : Text.withoutSpace first = Text.withoutSpace second := by
  have empty {gap : Text} (space : ∀ c ∈ gap, isSpace c = true) : gap.filter (!isSpace ·) = [] := by
    simpa [List.filter_eq_nil_iff] using space
  unfold Text.withoutSpace
  induction same with
  | nil => rfl
  | letter outside more ih => simp [outside, ih]
  | gap leftNonempty rightNonempty leftSpace rightSpace more ih =>
      rw [List.filter_append, List.filter_append, empty leftSpace, empty rightSpace, ih]

/-- The runs outside a class that holds all white space are the same, whatever run is being read.
Witness: induction on the texts; a gap ends the run.
-/
theorem runsFrom {p : Char → Bool} (spaces : ∀ c, isSpace c = true → p c = true)
    (same : Respaced first second) (current : Text)
    : Text.runsFrom p current first = Text.runsFrom p current second := by
  have ends {gap : Text} (nonempty : gap ≠ []) (space : ∀ c ∈ gap, isSpace c = true)
      (current rest : Text)
      : Text.runsFrom p current (gap ++ rest)
        = Text.runsFrom p current [] ++ Text.runsFrom p [] rest := by
    obtain ⟨c, gap, rfl⟩ := List.exists_cons_of_ne_nil nonempty
    obtain ⟨here, behind⟩ := List.forall_mem_cons.mp fun c member => spaces c (space c member)
    have split := runsFrom_append here current [] (gap ++ rest)
    rw [List.nil_append, runsFrom_skip behind rest] at split
    exact split
  induction same generalizing current with
  | nil => rfl
  | letter outside more ih => simp only [Text.runsFrom, ih]
  | gap leftNonempty rightNonempty leftSpace rightSpace more ih =>
      rw [ends leftNonempty leftSpace, ends rightNonempty rightSpace, ih]

theorem words (same : Respaced first second) : Text.words first = Text.words second :=
  same.runsFrom (fun _ space => space) []

theorem wordRuns (same : Respaced first second) : Text.wordRuns first = Text.wordRuns second :=
  same.runsFrom (fun _ space => by simp [isWord_of_isSpace space]) []

/-- More white space next to white space widens a gap. -/
theorem widen {front spaces rest : Text} (space : ∀ c ∈ spaces, isSpace c = true)
    (next : (∃ c, front.getLast? = some c ∧ isSpace c = true)
      ∨ ∃ c, rest.head? = some c ∧ isSpace c = true)
    : Respaced (front ++ rest) (front ++ spaces ++ rest) := by
  rcases next with ⟨c, last, here⟩ | ⟨c, first, here⟩
  · obtain ⟨inner, rfl⟩ := List.getLast?_eq_some_iff.mp last
    have wider : Respaced ([c] ++ rest) (([c] ++ spaces) ++ rest) :=
      .gap (by simp) (by simp) (by simpa using here) (by simpa using ⟨here, space⟩) (.refl rest)
    simpa using (Respaced.refl inner).append wider
  · obtain ⟨more, rfl⟩ := List.head?_eq_some_iff.mp first
    have wider : Respaced ([c] ++ more) ((spaces ++ [c]) ++ more) :=
      .gap (by simp) (by simp) (by simpa using here)
        (List.forall_mem_append.mpr ⟨space, by simpa using here⟩) (.refl more)
    simpa using (Respaced.refl front).append wider

end Respaced

end DocBlock.Text

namespace DocBlock.Signature

open Text (Respaced isSpace isSpaceOrStar rel_map rel_orElse)

--------------------------------------------------------------------------------
-- Segments
--------------------------------------------------------------------------------

namespace Brackets

/-- Only closers are awaited, and none of them is white space. -/
theorem closers_step {stack : List Char} (closers : ∀ d ∈ stack, isSpace d = false) (c : Char)
    : ∀ d ∈ step stack c, isSpace d = false := by
  unfold step
  split
  · next closer found =>
    refine List.forall_mem_cons.mpr ⟨?_, closers⟩
    unfold closer? at found
    split at found
    all_goals first | contradiction | (obtain rfl := Option.some.inj found; decide)
  · split
    · exact fun d member => closers d (List.mem_of_mem_tail member)
    · exact closers

/-- White space opens and closes no bracket. -/
theorem step_space {stack : List Char} {c : Char} (closers : ∀ d ∈ stack, isSpace d = false)
    (space : isSpace c = true)
    : step stack c = stack := by
  have unopened : closer? c = none := by
    unfold closer?
    split
    all_goals first | rfl | exact absurd space (by decide)
  have other : stack.head? ≠ some c := by
    intro first
    rw [closers c (List.mem_of_head? first)] at space
    contradiction
  simp [step, unopened, other]

theorem splitFrom_ne_nil (stack : List Char) (text : Text) : splitFrom stack text ≠ [] := by
  cases text with
  | nil => exact List.cons_ne_nil _ _
  | cons c rest =>
      rw [splitFrom]
      split
      · exact List.cons_ne_nil _ _
      · exact Text.consFirst_ne_nil c _

/-- White space in front goes to the first segment, by induction on the white space. -/
theorem exists_splitFrom_gap {stack : List Char} {gap : Text}
    (closers : ∀ d ∈ stack, isSpace d = false) (spaces : ∀ c ∈ gap, isSpace c = true) (rest : Text)
    : ∃ first more,
        splitFrom stack rest = first :: more
        ∧ splitFrom stack (gap ++ rest) = (gap ++ first) :: more := by
  induction gap with
  | nil =>
      obtain ⟨first, more, whole⟩ := List.exists_cons_of_ne_nil (splitFrom_ne_nil stack rest)
      exact ⟨first, more, whole, whole⟩
  | cons c gap ih =>
      obtain ⟨here, behind⟩ := List.forall_mem_cons.mp spaces
      obtain ⟨first, more, whole, split⟩ := ih behind
      have comma : c ≠ ',' := by
        rintro rfl
        exact absurd here (by decide)
      refine ⟨first, more, whole, ?_⟩
      simp [splitFrom, comma, step_space closers here, split, Text.consFirst]

theorem respaced_consFirst {c : Char} (outside : isSpace c = false) {parts others : List Text}
    (segments : List.Forall₂ Respaced parts others)
    : List.Forall₂ Respaced (Text.consFirst c parts) (Text.consFirst c others) := by
  cases segments with
  | nil => exact .cons (.letter outside .nil) .nil
  | cons here behind => exact .cons (.letter outside here) behind

/-- Respaced texts split into respaced segments. Witness: induction on the texts; letters change the
brackets in the same way, and white space does not change them.
-/
theorem respaced_splitFrom {first second : Text} (same : Respaced first second)
    {stack : List Char} (closers : ∀ d ∈ stack, isSpace d = false)
    : List.Forall₂ Respaced (splitFrom stack first) (splitFrom stack second) := by
  induction same generalizing stack with
  | nil => exact .cons .nil .nil
  | @letter c first second outside more ih =>
      by_cases comma : (c = ',' && stack.isEmpty) = true
      · simp only [splitFrom, comma, if_true]
        exact .cons .nil (ih closers)
      · simp only [splitFrom, comma, Bool.false_eq_true, if_false]
        exact respaced_consFirst outside (ih (closers_step closers c))
  | gap leftNonempty rightNonempty leftSpace rightSpace more ih =>
      rename_i left right first second
      obtain ⟨one, others, whole, split⟩ := exists_splitFrom_gap closers leftSpace first
      obtain ⟨two, rest, whole', split'⟩ := exists_splitFrom_gap closers rightSpace second
      have segments := ih closers
      rw [whole, whole'] at segments
      rw [split, split']
      cases segments with
      | cons here behind =>
          exact .cons (.gap leftNonempty rightNonempty leftSpace rightSpace here) behind

end Brackets

--------------------------------------------------------------------------------
-- Declarators
--------------------------------------------------------------------------------

/-- A gap in a run of array suffixes: between brackets it is passed over, and elsewhere a bracket
must follow. -/
theorem continuesArrays_gap {gap : Text} (nonempty : gap ≠ [])
    (spaces : ∀ c ∈ gap, isSpace c = true) (state : ArrayState) (rest : Text)
    : continuesArrays state (gap ++ rest)
      = continuesArrays (if state = .inside then .inside else .spaced) rest := by
  induction gap generalizing state with
  | nil => contradiction
  | cons c gap ih =>
      obtain ⟨here, behind⟩ := List.forall_mem_cons.mp spaces
      have closing : c ≠ ']' := by
        rintro rfl
        exact absurd here (by decide)
      have opening : c ≠ '[' := by
        rintro rfl
        exact absurd here (by decide)
      by_cases last : gap = []
      · subst last
        cases state <;> simp [continuesArrays, closing, opening, here]
      · cases state <;> simp [continuesArrays, closing, opening, here, ih last behind]

/-- Array suffixes are recognised whatever their spacing, by induction on the texts. -/
theorem continuesArrays_respaced {first second : Text} (same : Respaced first second)
    (state : ArrayState)
    : continuesArrays state first = continuesArrays state second := by
  induction same generalizing state with
  | nil => rfl
  | letter outside more ih => cases state <;> simp only [continuesArrays, ih]
  | gap leftNonempty rightNonempty leftSpace rightSpace more ih =>
      rw [continuesArrays_gap leftNonempty leftSpace, continuesArrays_gap rightNonempty rightSpace,
        ih]

namespace Declarator

/-- Two declarators that differ in nothing but their spacing. -/
structure Alike (one two : Declarator) : Prop where
  type : Respaced one.type two.type
  gap : Respaced one.gap two.gap
  name : one.name = two.name
  arrays : Respaced one.arrays two.arrays

/-- The spelling of a type does not depend on the spacing. -/
theorem Alike.fullType {one two : Declarator} (alike : Alike one two)
    : one.fullType = two.fullType := by
  simp only [Declarator.fullType, alike.type.words, alike.gap.withoutSpace,
    alike.arrays.withoutSpace]

/-- A name at the front is the same name. -/
theorem identifier?_respaced {first second : Text} (same : Respaced first second)
    : Option.Rel (fun one two => one.1 = two.1 ∧ Respaced one.2 two.2)
        (Text.identifier? first) (Text.identifier? second) := by
  cases same with
  | nil => exact .none
  | @letter c first second outside more =>
      obtain ⟨word, rest⟩ := more.word
      simp only [Text.identifier?]
      split
      · exact .some ⟨by rw [word], rest⟩
      · exact .none
  | @gap left right first second leftNonempty rightNonempty leftSpace rightSpace more =>
      have nameless {gap : Text} (nonempty : gap ≠ []) (space : ∀ c ∈ gap, isSpace c = true)
          (rest : Text)
          : Text.identifier? (gap ++ rest) = none := by
        obtain ⟨c, gap, rfl⟩ := List.exists_cons_of_ne_nil nonempty
        have start : Text.isIdentifierStart c ≠ true := fun start =>
          absurd (Text.isWord_of_isIdentifierStart start)
            (by simp [Text.isWord_of_isSpace (space c List.mem_cons_self)])
        simp [Text.identifier?, start]
      rw [nameless leftNonempty leftSpace, nameless rightNonempty rightSpace]
      exact .none

/-- What follows a type is read whatever its spacing. -/
theorem afterType?_respaced {first second : Text} (same : Respaced first second)
    : Option.Rel Alike (afterType? first) (afterType? second) := by
  have spaces : ∀ c, isSpace c = true → isSpaceOrStar c = true := by
    intro c space
    simp [isSpaceOrStar, space]
  obtain ⟨gap, rest⟩ := same.run spaces
  have named := identifier?_respaced rest
  simp only [afterType?]
  generalize Text.identifier? (first.dropWhile isSpaceOrStar) = one at named
  generalize Text.identifier? (second.dropWhile isSpaceOrStar) = two at named
  cases named with
  | none => exact .none
  | @some one two alike =>
      obtain ⟨name, suffixes⟩ := alike
      have arrays : isArraySuffix one.2 = isArraySuffix two.2 :=
        continuesArrays_respaced suffixes .complete
      dsimp only
      rw [gap.isEmpty_eq, arrays]
      by_cases accepted : (!(second.takeWhile isSpaceOrStar).isEmpty && isArraySuffix two.2) = true
      · rw [if_pos accepted, if_pos accepted]
        exact .some ⟨.nil, gap, name, suffixes⟩
      · rw [if_neg accepted, if_neg accepted]
        exact .none

/-- A gap is passed over in the search for the end of the type, by induction on the gap. -/
theorem read?_gap {gap : Text} (spaces : ∀ c ∈ gap, isSpace c = true) (rest : Text)
    : read? (gap ++ rest)
      = (read? rest).map fun declarator => { declarator with type := gap ++ declarator.type } := by
  induction gap with
  | nil => simp
  | cons c gap ih =>
      obtain ⟨here, behind⟩ := List.forall_mem_cons.mp spaces
      have inside : isSpaceOrStar c = true := by simp [isSpaceOrStar, here]
      rw [List.cons_append, read?, if_pos inside, ih behind, Option.map_map]
      rfl

/-- A segment is taken apart at the same places whatever its spacing. Witness: induction on the
texts; white space ends no type, so the search passes over a gap.
-/
theorem read?_respaced {first second : Text} (same : Respaced first second)
    : Option.Rel Alike (read? first) (read? second) := by
  induction same with
  | nil => exact .none
  | @letter c first second outside more ih =>
      have ended : Option.Rel Alike (if isSpaceOrStar c then none else afterType? first)
          (if isSpaceOrStar c then none else afterType? second) := by
        split
        · exact .none
        · exact afterType?_respaced more
      refine rel_orElse (rel_map ended fun _ _ alike => ?_) (rel_map ih fun _ _ alike => ?_)
      · exact ⟨.refl [c], alike.gap, alike.name, alike.arrays⟩
      · exact ⟨.letter outside alike.type, alike.gap, alike.name, alike.arrays⟩
  | gap leftNonempty rightNonempty leftSpace rightSpace more ih =>
      rw [read?_gap leftSpace, read?_gap rightSpace]
      refine rel_map ih fun _ _ alike => ?_
      exact ⟨.gap leftNonempty rightNonempty leftSpace rightSpace alike.type, alike.gap, alike.name,
        alike.arrays⟩

end Declarator

--------------------------------------------------------------------------------
-- Parameter lists
--------------------------------------------------------------------------------

variable {inferDirection : Bool}

/-- A segment declares the same parameter whatever its spacing. -/
theorem parameterOfSegment?_respaced {first second : Text} (same : Respaced first second)
    (index : Nat)
    : parameterOfSegment? inferDirection first index
      = parameterOfSegment? inferDirection second index := by
  have spaces : ∀ c, isSpace c = true → decide (c ≠ '=') = true := by
    intro c space
    rw [decide_eq_true_eq]
    rintro rfl
    exact absurd space (by decide)
  have read := Declarator.read?_respaced (same.run spaces).1.trim
  unfold parameterOfSegment?
  generalize Declarator.read? (Text.trim (first.takeWhile (· ≠ '='))) = one at read
  generalize Declarator.read? (Text.trim (second.takeWhile (· ≠ '='))) = two at read
  cases read with
  | none => rfl
  | some alike => simp only [Option.map_some, alike.name, alike.fullType]

/-- Respaced segments declare the same parameters, wherever their numbering starts. -/
theorem filterMap_respaced {parts others : List Text}
    (segments : List.Forall₂ Respaced parts others)
    (start : Nat)
    : ((parts.zipIdx start).filterMap fun (segment, index) =>
        parameterOfSegment? inferDirection segment index)
      = (others.zipIdx start).filterMap fun (segment, index) =>
        parameterOfSegment? inferDirection segment index := by
  induction segments generalizing start with
  | nil => rfl
  | cons here behind ih =>
      simp only [List.zipIdx_cons, List.filterMap_cons, parameterOfSegment?_respaced here, ih]

/-- The width of white space in a parameter list does not matter. Witness: the lists split into
respaced segments, and each segment declares the same parameter at the same place.
-/
theorem readParameters_respaced {first second : Text} (same : Respaced first second)
    : readParameters inferDirection first = readParameters inferDirection second := by
  have unspaced : ∀ c ∈ "void".toList, isSpace c = false := by decide
  have void : Text.trim first = "void".toList ↔ Text.trim second = "void".toList := by
    constructor
    · intro alone
      exact (same.symm.trim.eq_of_unspaced (alone ▸ unspaced)).trans alone
    · intro alone
      exact (same.trim.eq_of_unspaced (alone ▸ unspaced)).trans alone
  have segments := @Brackets.respaced_splitFrom _ _ same [] (by simp)
  simp only [readParameters, void, Brackets.splitAtCommas, filterMap_respaced segments 0]

end DocBlock.Signature
