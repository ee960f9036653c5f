import DocBlock.Proofs.Signature.Balanced
import DocBlock.Proofs.Signature.ReturnTypes

/-! Parameter lists as they are written: types with brackets in them, stars, names, array suffixes
and default values, separated by commas. They are read back as they are written, and segments that
name no parameter count in the numbering only.
-/

namespace DocBlock.Signature

open Text (isSpace isSpaceOrStar isWord)

--------------------------------------------------------------------------------
-- Parameters as they are written
--------------------------------------------------------------------------------

/-- An array suffix as it is written: white space, and a size between square brackets. -/
structure WrittenArray where
  gap : Text
  size : Text
  spaced : ∀ c ∈ gap, isSpace c = true
  flat : '[' ∉ size ∧ ']' ∉ size ∧ '=' ∉ size
  closed : Brackets.stackAfter size = []

/-- A named parameter as it is written: a type, a gap with stars in it, a name and array
suffixes. -/
structure WrittenDeclarator where
  type : Text
  gap : Text
  name : Text
  arrays : List WrittenArray := []
  starts : type.head?.any (!isSpace ·)
  ends : type.getLast?.any (!isSpaceOrStar ·)
  balanced : Brackets.Balanced type
  plain : '=' ∉ type
  gapped : gap ≠ [] ∧ ∀ c ∈ gap, isSpaceOrStar c = true
  named : IsIdentifier name

/-- A segment of a list that names no parameter: there is no gap in it, or it ends in no name. -/
structure Nameless (text : Text) : Prop where
  balanced : Brackets.Balanced text
  plain : '=' ∉ text
  unnamed : (∀ c ∈ text, isSpaceOrStar c = false)
    ∨ text.getLast?.any fun c => !isSpace c && !isWord c && c ≠ ']'

/-- What a segment holds between the white space around it. -/
inductive WrittenCore where
  | named (declarator : WrittenDeclarator)
  | nameless (text : Text) (nameless : Nameless text)

/-- A segment of a parameter list as it is written, with white space around it and a default
value. -/
structure Segment where
  before : Text := []
  core : WrittenCore
  behind : Text := []
  default : Option Text := none
  spaced : ∀ c ∈ before ++ behind, isSpace c = true
  balanced : ∀ value ∈ default, Brackets.Balanced value

/-- The source text. -/
def WrittenArray.text (array : WrittenArray) : Text :=
  array.gap ++ '[' :: (array.size ++ [']'])

namespace WrittenDeclarator

variable (declarator : WrittenDeclarator)

/-- The source text of the array suffixes. -/
def arraysText : Text :=
  declarator.arrays.flatMap (·.text)

/-- The source text. -/
def text : Text :=
  declarator.type ++ (declarator.gap ++ (declarator.name ++ declarator.arraysText))

/-- The parts that are taken from the source text. -/
def parts : Declarator where
  type := declarator.type
  gap := declarator.gap
  name := declarator.name
  arrays := declarator.arraysText

/-- The stars of the gap. -/
def stars : Text :=
  List.replicate (declarator.gap.count '*') '*'

/-- The type with one space for each run of white space in it, then the stars, then the array
suffixes without white space. -/
def fullType : Text :=
  Text.unwords (Text.words declarator.type)
    ++ (if declarator.stars = [] then [] else ' ' :: declarator.stars)
    ++ declarator.arrays.flatMap fun array => '[' :: (Text.withoutSpace array.size ++ [']'])

/-- The parameter that is declared at a place of the list. -/
def parameter (inferDirection : Bool) (index : Nat) : Parameter where
  name := declarator.name
  type := some declarator.fullType
  index := some index
  direction :=
    if inferDirection then some (Parameter.directionOf (some declarator.fullType)) else none

end WrittenDeclarator

/-- The source text. -/
def WrittenCore.text : WrittenCore → Text
  | .named declarator => declarator.text
  | .nameless text _ => text

namespace Segment

variable (segment : Segment)

/-- The source text of the default value. -/
def defaultText : Text :=
  match segment.default with
  | none => []
  | some value => '=' :: value

/-- The source text. -/
def text : Text :=
  segment.before ++ (segment.core.text ++ (segment.behind ++ segment.defaultText))

/-- The parameter that the segment declares, if it names one. -/
def parameter? (inferDirection : Bool) (index : Nat) : Option Parameter :=
  match segment.core with
  | .named declarator => some (declarator.parameter inferDirection index)
  | .nameless _ _ => none

end Segment

--------------------------------------------------------------------------------
-- Written segments are balanced
--------------------------------------------------------------------------------

theorem balanced_of_spaced {gap : Text} (spaced : ∀ c ∈ gap, isSpace c = true)
    : Brackets.Balanced gap :=
  .of_class (by decide) spaced

theorem WrittenArray.balanced (array : WrittenArray) : Brackets.Balanced array.text :=
  (balanced_of_spaced array.spaced).append (.bracketed array.closed array.flat.2.1)

theorem WrittenDeclarator.balanced_text (declarator : WrittenDeclarator)
    : Brackets.Balanced declarator.text := by
  have gap : Brackets.Balanced declarator.gap :=
    .of_class (by decide) declarator.gapped.2
  have name : Brackets.Balanced declarator.name :=
    .of_class (by decide) declarator.named.word
  have arrays : Brackets.Balanced declarator.arraysText := .flatMap fun array _ => array.balanced
  exact declarator.balanced.append (gap.append (name.append arrays))

theorem Segment.balanced_text (segment : Segment) : Brackets.Balanced segment.text := by
  obtain ⟨before, behind⟩ := List.forall_mem_append.mp segment.spaced
  have core : Brackets.Balanced segment.core.text := by
    cases segment.core with
    | named declarator => exact declarator.balanced_text
    | nameless text nameless => exact nameless.balanced
  have default : Brackets.Balanced segment.defaultText := by
    unfold Segment.defaultText
    cases value : segment.default with
    | none => exact ⟨rfl, by simp⟩
    | some value =>
        have equals : Brackets.Balanced ['='] := by decide
        exact equals.append (segment.balanced _ ‹_›)
  exact (balanced_of_spaced before).append
    (core.append ((balanced_of_spaced behind).append default))

--------------------------------------------------------------------------------
-- Named segments
--------------------------------------------------------------------------------

/-- Between brackets a run of array suffixes goes on to the closing one. -/
theorem continuesArrays_inside {size : Text} (flat : ']' ∉ size) (rest : Text)
    : continuesArrays .inside (size ++ ']' :: rest) = continuesArrays .complete rest := by
  induction size with
  | nil => simp [continuesArrays]
  | cons c size ih =>
      obtain ⟨here, behind⟩ := not_or.mp (mt List.mem_cons.mpr flat)
      simpa [continuesArrays, Ne.symm here] using ih behind

/-- An array suffix continues a run of them. -/
theorem WrittenArray.continuesArrays_append (array : WrittenArray) (rest : Text)
    : continuesArrays .complete (array.text ++ rest) = continuesArrays .complete rest := by
  have opened (state : ArrayState) (outside : state ≠ .inside)
      : continuesArrays state ('[' :: (array.size ++ ']' :: rest))
        = continuesArrays .complete rest := by
    rw [← continuesArrays_inside array.flat.2.1 rest]
    cases state <;> simp [continuesArrays] at outside ⊢
  have shape : array.text ++ rest = array.gap ++ '[' :: (array.size ++ ']' :: rest) := by
    simp [WrittenArray.text]
  rw [shape]
  by_cases adjacent : array.gap = []
  · rw [adjacent]
    exact opened .complete (by simp)
  · rw [continuesArrays_gap adjacent array.spaced]
    exact opened .spaced (by simp)

/-- The array suffixes are recognised as a run of them, by induction on them. -/
theorem WrittenDeclarator.isArraySuffix_arraysText (declarator : WrittenDeclarator)
    : isArraySuffix declarator.arraysText = true := by
  unfold isArraySuffix WrittenDeclarator.arraysText
  induction declarator.arrays with
  | nil => rfl
  | cons array arrays ih => rwa [List.flatMap_cons, array.continuesArrays_append]

/-- An array suffix starts with white space or a bracket. -/
theorem WrittenDeclarator.isWord_arraysText (declarator : WrittenDeclarator)
    : ∀ c ∈ declarator.arraysText.head?, isWord c = false := by
  unfold WrittenDeclarator.arraysText
  cases declarator.arrays with
  | nil => simp
  | cons array arrays =>
      have shape : ((array :: arrays).flatMap (·.text)).head? = (array.gap ++ ['[']).head? := by
        cases shape : array.gap <;> simp [WrittenArray.text, shape]
      rw [shape]
      intro c first
      have member := List.mem_of_mem_head? first
      rcases List.mem_append.mp member with inside | opening
      · exact Text.isWord_of_isSpace (array.spaced c inside)
      · rw [List.mem_singleton.mp opening]
        decide

theorem WrittenDeclarator.afterType?_eq (declarator : WrittenDeclarator)
    : Declarator.afterType? (declarator.gap ++ (declarator.name ++ declarator.arraysText))
      = some { declarator.parts with type := [] } := by
  have start : ∀ c, (declarator.name ++ declarator.arraysText).head? = some c
      → isSpaceOrStar c = false := by
    obtain ⟨d, letters, shape⟩ := List.exists_cons_of_ne_nil declarator.named.ne_nil
    rw [shape]
    rintro c ⟨⟩
    exact Text.isSpaceOrStar_of_isWord (declarator.named.word d (by simp [shape]))
  have named := declarator.named.identifier?_append declarator.isWord_arraysText
  unfold Declarator.afterType?
  rw [Text.takeWhile_run declarator.gapped.2 start, Text.dropWhile_run declarator.gapped.2 start,
    named]
  simp [declarator.gapped.1, declarator.isArraySuffix_arraysText, WrittenDeclarator.parts]

/-- A name stands in no array suffix, by induction on the gap in front of it. -/
theorem continuesArrays_name {gap name : Text} (gapped : ∀ c ∈ gap, isSpaceOrStar c = true)
    (named : IsIdentifier name) {state : ArrayState} (outside : state ≠ .inside) (rest : Text)
    : continuesArrays state (gap ++ (name ++ rest)) = false := by
  induction gap generalizing state with
  | nil =>
      obtain ⟨c, letters, rfl⟩ := List.exists_cons_of_ne_nil named.ne_nil
      have word := named.word c List.mem_cons_self
      have opening : c ≠ '[' := by
        rintro rfl
        exact absurd word (by decide)
      cases state <;> simp [continuesArrays, opening, Text.isSpace_of_isWord word] at outside ⊢
  | cons c gap ih =>
      obtain ⟨here, behind⟩ := List.forall_mem_cons.mp gapped
      have opening : c ≠ '[' := by
        rintro rfl
        exact absurd here (by decide)
      have later : continuesArrays .spaced (gap ++ (name ++ rest)) = false := ih behind (by simp)
      cases state <;> simp [continuesArrays, opening, later] at outside ⊢

/-- No run of array suffixes goes on from inside a text that closes its brackets into one in which
no run goes on. Witness: induction on the first text, where a bracket that is opened is closed.
-/
theorem continuesArrays_closed {tail rest : Text}
    (stops : ∀ state, state ≠ .inside → continuesArrays state rest = false)
    (closing : ∀ before behind, tail = before ++ '[' :: behind → ']' ∈ behind)
    {state : ArrayState} (inside : state = .inside → ']' ∈ tail)
    : continuesArrays state (tail ++ rest) = false := by
  induction tail generalizing state with
  | nil => exact stops state fun bracket => List.not_mem_nil (inside bracket)
  | cons c tail ih =>
      have later : ∀ before behind, tail = before ++ '[' :: behind → ']' ∈ behind :=
        fun before behind shape => closing (c :: before) behind (by simp [shape])
      have complete : continuesArrays .complete (tail ++ rest) = false := ih later (by simp)
      have spaced : continuesArrays .spaced (tail ++ rest) = false := ih later (by simp)
      have bracketed (closed : ']' ∈ tail) : continuesArrays .inside (tail ++ rest) = false :=
        ih later fun _ => closed
      cases state with
      | inside =>
          by_cases closes : c = ']'
          · simpa [continuesArrays, closes] using complete
          · have closed : ']' ∈ tail := by simpa [Ne.symm closes] using inside rfl
            simpa [continuesArrays, closes] using bracketed closed
      | complete | spaced =>
          by_cases opening : c = '['
          · have closed : ']' ∈ tail := closing [] tail (by simp [opening])
            simpa [continuesArrays, opening] using bracketed closed
          · simp [continuesArrays, opening, spaced]

/-- A segment is taken apart behind a type if no shorter type fits, by induction on the type. -/
theorem Declarator.read?_type {type rest : Text} {declarator : Declarator}
    (ends : type.getLast?.any (!isSpaceOrStar ·)) (found : afterType? rest = some declarator)
    (shortest : ∀ c tail, c :: tail <:+ type → tail ≠ [] → afterType? (tail ++ rest) = none)
    : read? (type ++ rest) = some { declarator with type } := by
  induction type with
  | nil => simp at ends
  | cons c type ih =>
      by_cases last : type = []
      · subst last
        have outside : isSpaceOrStar c = false := by simpa using ends
        simp [read?, outside, found]
      · have later := ih (by rwa [List.getLast?_cons_of_ne_nil last] at ends) fun d tail suffix =>
          shortest d tail (suffix.trans (List.suffix_cons c type))
        simp [read?, shortest c type List.suffix_rfl last, later]

/-- Behind a part of the type there is no name with array suffixes up to the end. -/
theorem WrittenDeclarator.afterType?_eq_none (declarator : WrittenDeclarator) {tail : Text}
    (suffix : tail <:+ declarator.type) (nonempty : tail ≠ [])
    : Declarator.afterType?
        (tail ++ (declarator.gap ++ (declarator.name ++ declarator.arraysText)))
      = none := by
  have stops (state : ArrayState) (outside : state ≠ .inside) :=
    continuesArrays_name declarator.gapped.2 declarator.named outside declarator.arraysText
  obtain ⟨c, gap, shape⟩ := List.exists_cons_of_ne_nil declarator.gapped.1
  have stop : isWord c = false := by
    have inside := declarator.gapped.2 c (by simp [shape])
    refine Bool.eq_false_iff.mpr fun word => ?_
    rw [Text.isSpaceOrStar_of_isWord word] at inside
    contradiction
  rw [shape, List.cons_append] at stops ⊢
  generalize gap ++ (declarator.name ++ declarator.arraysText) = rest at stops ⊢
  have arrays {behind : Text} (within : behind <:+ tail)
      : isArraySuffix (behind ++ c :: rest) = false := by
    refine continuesArrays_closed stops ?_ (by simp)
    rintro before inner rfl
    obtain ⟨front, whole⟩ := within.trans suffix
    have closed := declarator.balanced.closed
    rw [← whole, ← List.append_assoc] at closed
    exact Brackets.close_mem_of_closed closed
  -- The type ends in no star and no white space, so a gap in it ends there, and so does a name.
  have outside : tail.getLast?.any (!isSpaceOrStar ·) := by
    obtain ⟨front, whole⟩ := suffix
    have ends := declarator.ends
    rwa [← whole, List.getLast?_append_of_ne_nil _ nonempty] at ends
  obtain ⟨first, behind, left, whole⟩ := Text.exists_dropWhile_append outside (c :: rest)
  have within : behind.dropWhile isWord <:+ tail :=
    ((List.dropWhile_suffix isWord).trans (List.suffix_cons first behind)).trans
      (left ▸ List.dropWhile_suffix isSpaceOrStar)
  unfold Declarator.afterType?
  rw [whole, Text.identifier?, Text.dropWhile_append_stop stop]
  by_cases start : Text.isIdentifierStart first = true
  · simp [start, arrays within]
  · simp [start]

/-- A named parameter is taken apart as it is written. -/
theorem WrittenDeclarator.read?_text (declarator : WrittenDeclarator)
    : Declarator.read? declarator.text = some declarator.parts :=
  Declarator.read?_type declarator.ends declarator.afterType?_eq fun c tail suffix =>
    declarator.afterType?_eq_none ((List.suffix_cons c tail).trans suffix)

/-- The spelling of the type, by the characters that are no white space. -/
theorem WrittenDeclarator.fullType_parts (declarator : WrittenDeclarator)
    : declarator.parts.fullType = declarator.fullType := by
  have stars : Text.withoutSpace declarator.gap = declarator.stars := by
    rw [WrittenDeclarator.stars, ← List.filter_eq, Text.withoutSpace]
    refine List.filter_congr fun c member => ?_
    have inside := declarator.gapped.2 c member
    by_cases star : c = '*'
    · simp [star, isSpace]
    · simpa [isSpaceOrStar, star] using inside
  have arrays : Text.withoutSpace declarator.arraysText
      = declarator.arrays.flatMap fun array => '[' :: (Text.withoutSpace array.size ++ [']']) := by
    rw [WrittenDeclarator.arraysText, Text.withoutSpace, List.filter_flatMap]
    refine List.flatMap_congr fun array _ => ?_
    have gap : array.gap.filter (!isSpace ·) = [] := by
      simpa [List.filter_eq_nil_iff] using array.spaced
    have opening : isSpace '[' = false := by decide
    have closing : isSpace ']' = false := by decide
    simp only [WrittenArray.text, Text.withoutSpace, List.filter_append, List.filter_cons, gap,
      opening, closing]
    simp
  simp [Declarator.fullType, WrittenDeclarator.fullType, WrittenDeclarator.parts, stars, arrays]

--------------------------------------------------------------------------------
-- Segments without a name
--------------------------------------------------------------------------------

/-- Without a gap there is no name, by induction on the text. -/
theorem Declarator.read?_gapless {text : Text} (gapless : ∀ c ∈ text, isSpaceOrStar c = false)
    : Declarator.read? text = none := by
  induction text with
  | nil => rfl
  | cons c rest ih =>
      obtain ⟨here, behind⟩ := List.forall_mem_cons.mp gapless
      have gap : rest.takeWhile isSpaceOrStar = [] :=
        @Text.takeWhile_run isSpaceOrStar [] rest (by simp) fun d first =>
          behind d (List.mem_of_head? first)
      have none : afterType? rest = none := by
        unfold afterType?
        rw [gap]
        split <;> simp
      simp [read?, none, ih behind]

/-- A run of array suffixes ends in a bracket, by induction on the run. -/
theorem getLast?_of_continuesArrays {state : ArrayState} {text : Text}
    (continues : continuesArrays state text = true) (nonempty : text ≠ [])
    : text.getLast? = some ']' := by
  induction text generalizing state with
  | nil => contradiction
  | cons c rest ih =>
      have later : ∃ next, continuesArrays next rest = true ∧ (next = .complete → c = ']') := by
        cases state <;> simp only [continuesArrays] at continues <;> grind
      obtain ⟨next, goes, closes⟩ := later
      by_cases last : rest = []
      · subst last
        have complete : next = .complete := by simpa [continuesArrays] using goes
        simp [closes complete]
      · rw [List.getLast?_cons_of_ne_nil last]
        exact ih goes last

/-- A name with array suffixes ends in a word or a bracket. -/
theorem Declarator.afterType?_ends {text : Text} {declarator : Declarator}
    (found : afterType? text = some declarator)
    : ∃ c, text.getLast? = some c ∧ (isWord c = true ∨ c = ']') := by
  unfold afterType? at found
  cases left : text.dropWhile isSpaceOrStar with
  | nil => simp [left, Text.identifier?] at found
  | cons c rest =>
      have suffix : c :: rest <:+ text := left ▸ List.dropWhile_suffix isSpaceOrStar
      by_cases start : Text.isIdentifierStart c = true
      · by_cases named : rest.dropWhile isWord = []
        · have word : ∀ d ∈ c :: rest, isWord d = true :=
            List.forall_mem_cons.mpr
              ⟨Text.isWord_of_isIdentifierStart start, List.dropWhile_eq_nil_iff.mp named⟩
          have last := List.getLast?_eq_some_getLast (List.cons_ne_nil c rest)
          exact ⟨_, Text.getLast?_of_isSuffix suffix last, .inl (word _ (List.getLast_mem _))⟩
        · simp only [left, Text.identifier?, start, if_true, Option.ite_none_right_eq_some,
            Bool.and_eq_true] at found
          have last := getLast?_of_continuesArrays found.1.2 named
          have behind := (List.dropWhile_suffix isWord).trans (List.suffix_cons c rest)
          exact ⟨']', Text.getLast?_of_isSuffix (behind.trans suffix) last, .inr rfl⟩
      · simp [left, Text.identifier?, start] at found

/-- What can be taken apart ends in a word or a bracket, by induction on the text. -/
theorem Declarator.read?_ends {text : Text} {declarator : Declarator}
    (found : read? text = some declarator)
    : ∃ c, text.getLast? = some c ∧ (isWord c = true ∨ c = ']') := by
  induction text generalizing declarator with
  | nil => simp [read?] at found
  | cons c rest ih =>
      have later : ∃ d, rest.getLast? = some d ∧ (isWord d = true ∨ d = ']') := by
        rw [read?, Option.orElse_eq_orElse, Option.orElse_eq_or, Option.or_eq_some_iff] at found
        rcases found with here | ⟨-, behind⟩
        · obtain ⟨inner, read, -⟩ := Option.map_eq_some_iff.mp here
          exact afterType?_ends (Option.ite_none_left_eq_some.mp read).2
        · obtain ⟨inner, read, -⟩ := Option.map_eq_some_iff.mp behind
          exact ih read
      obtain ⟨d, last, outer⟩ := later
      exact ⟨d, by rw [List.getLast?_cons, last]; rfl, outer⟩

/-- A segment without a name is not taken apart. -/
theorem Nameless.read?_trim {text : Text} (nameless : Nameless text)
    : Declarator.read? (Text.trim text) = none := by
  rcases nameless.unnamed with gapless | ends
  · have unspaced (c : Char) (member : c ∈ text) := Text.isSpace_of_isSpaceOrStar (gapless c member)
    have whole : Text.trim text = text :=
      Text.trimBy_of_ends (fun c first => unspaced c (List.mem_of_head? first))
        fun c last => unspaced c (List.mem_of_getLast? last)
    rw [whole]
    exact Declarator.read?_gapless gapless
  · rcases List.eq_nil_or_concat text with rfl | ⟨front, last, rfl⟩
    · simp at ends
    · obtain ⟨⟨visible, letter⟩, bracket⟩
          : (isSpace last = false ∧ isWord last = false) ∧ last ≠ ']' := by
        simpa using ends
      have trimmed : (Text.trim (front ++ [last])).getLast? = some last := by
        rw [Text.trim, Text.trimBy, Text.dropWhile_append_stop visible,
          Text.dropEndWhile_of_last (by simp) visible]
        simp
      refine Option.eq_none_iff_forall_ne_some.mpr fun declarator found => ?_
      obtain ⟨c, ending, outer⟩ := Declarator.read?_ends found
      rw [List.concat_eq_append, trimmed, Option.some.injEq] at ending
      subst ending
      simp [letter, bracket] at outer

--------------------------------------------------------------------------------
-- The list
--------------------------------------------------------------------------------

variable {inferDirection : Bool}

theorem WrittenDeclarator.equals_not_mem (declarator : WrittenDeclarator)
    : '=' ∉ declarator.text := by
  have gap : '=' ∉ declarator.gap := fun member =>
    absurd (declarator.gapped.2 _ member) (by decide)
  have name : '=' ∉ declarator.name := fun member =>
    absurd (declarator.named.word _ member) (by decide)
  have arrays : '=' ∉ declarator.arraysText := by
    intro member
    obtain ⟨array, -, inside⟩ := List.mem_flatMap.mp member
    have spaced : '=' ∉ array.gap := fun among => absurd (array.spaced _ among) (by decide)
    simp [WrittenArray.text, spaced, array.flat] at inside
  simp [WrittenDeclarator.text, declarator.plain, gap, name, arrays]

theorem WrittenDeclarator.trim_text (declarator : WrittenDeclarator)
    : Text.trim declarator.text = declarator.text := by
  refine Text.trimBy_of_ends (fun c first => ?_) fun c last => ?_
  · have starts := declarator.starts
    obtain ⟨d, rest, shape⟩ : ∃ d rest, declarator.type = d :: rest := by
      cases type : declarator.type <;> simp [type] at starts ⊢
    obtain rfl : d = c := by simpa [WrittenDeclarator.text, shape] using first
    simpa [shape] using starts
  · obtain ⟨d, ending, outer⟩ := Declarator.read?_ends declarator.read?_text
    obtain rfl : d = c := Option.some.inj (ending.symm.trans last)
    rcases outer with word | rfl
    · exact Text.isSpace_of_isWord word
    · decide

/-- The default value and the white space around a segment are not looked at. -/
theorem Segment.trim_front (segment : Segment)
    : Text.trim (segment.text.takeWhile (· ≠ '=')) = Text.trim segment.core.text := by
  obtain ⟨before, behind⟩ := List.forall_mem_append.mp segment.spaced
  have core : '=' ∉ segment.core.text := by
    cases segment.core with
    | named declarator => exact declarator.equals_not_mem
    | nameless text nameless => exact nameless.plain
  have front : ∀ c ∈ segment.before ++ (segment.core.text ++ segment.behind),
      decide (c ≠ '=') = true := by
    have space : ¬ isSpace '=' = true := by decide
    intro c member
    rw [decide_eq_true_eq]
    rintro rfl
    simp only [List.mem_append, core, false_or] at member
    exact space (member.elim (before _) (behind _))
  have default : ∀ c, segment.defaultText.head? = some c → decide (c ≠ '=') = false := by
    unfold Segment.defaultText
    cases segment.default <;> simp
  have shape : segment.text
      = (segment.before ++ (segment.core.text ++ segment.behind)) ++ segment.defaultText := by
    simp [Segment.text]
  rw [shape, Text.takeWhile_run front default]
  exact Text.trimBy_surrounded before behind segment.core.text

theorem parameterOfSegment?_text (segment : Segment) (index : Nat)
    : parameterOfSegment? inferDirection segment.text index
      = segment.parameter? inferDirection index := by
  unfold parameterOfSegment? Segment.parameter?
  rw [segment.trim_front]
  cases segment.core with
  | named declarator =>
      simp only [WrittenCore.text, declarator.trim_text, declarator.read?_text,
        Option.map_some, declarator.fullType_parts]
      rfl
  | nameless text nameless => simp only [WrittenCore.text, nameless.read?_trim, Option.map_none]

/-- Written segments are read one by one. -/
theorem filterMap_written (segments : List Segment)
    : ((Brackets.splitAtCommas (Text.join [','] (segments.map (·.text)))).zipIdx.filterMap
        fun (segment, index) => parameterOfSegment? inferDirection segment index)
      = segments.zipIdx.filterMap fun (segment, index) =>
          segment.parameter? inferDirection index := by
  cases segments with
  | nil => rfl
  | cons first rest =>
      have balanced : ∀ text ∈ (first :: rest).map (·.text), Brackets.Balanced text := by
        intro text member
        obtain ⟨segment, -, rfl⟩ := List.mem_map.mp member
        exact segment.balanced_text
      rw [Brackets.splitAtCommas_join (by simp) balanced, List.zipIdx_map, List.filterMap_map]
      refine List.filterMap_congr fun entry _ => ?_
      exact parameterOfSegment?_text entry.1 entry.2

/-- A list of `void` names no parameter, so that it needs no case of its own. -/
theorem readParameters_eq (text : Text)
    : readParameters inferDirection text
      = (Brackets.splitAtCommas text).zipIdx.filterMap fun (segment, index) =>
          parameterOfSegment? inferDirection segment index := by
  unfold readParameters
  split
  · next void =>
    obtain ⟨before, behind, shape, left, right⟩ := Text.exists_trimBy isSpace text
    rw [← Text.trim, void] at shape
    let segment : Segment := {
      before
      core := .nameless "void".toList ⟨by decide, by decide, .inl (by decide)⟩
      behind
      spaced := List.forall_mem_append.mpr ⟨left, right⟩
      balanced := by simp
    }
    have same : segment.text = text := by
      simp [segment, shape, Segment.text, Segment.defaultText, WrittenCore.text]
    have alone := @filterMap_written inferDirection [segment]
    simp only [List.map_singleton, same, Text.join] at alone
    rw [alone]
    rfl
  · rfl

/-- A parameter list is read back as it is written: every segment that names a parameter gives it at
its place, with its type in one spelling, and the other segments count in the numbering only.
-/
theorem readParameters_written (inferDirection : Bool) (segments : List Segment)
    : readParameters inferDirection (Text.join [','] (segments.map (·.text)))
      = segments.zipIdx.filterMap fun (segment, index) =>
          segment.parameter? inferDirection index := by
  rw [readParameters_eq, filterMap_written]

/-- A list with commas inside brackets, spaced array suffixes, a default value and a segment without
a name. -/
def lookupList : List Segment :=
  [
    {
      core := .named {
        type := "std::map<int, char *>".toList
        gap := " ".toList
        name := "table".toList
        starts := by decide
        ends := by decide
        balanced := by decide
        plain := by decide
        gapped := by decide
        named := by decide
      }
      spaced := by decide
      balanced := by decide
    },
    {
      before := "\n  ".toList
      core := .named {
        type := "unsigned  long".toList
        gap := " ** ".toList
        name := "ends".toList
        arrays := [
          ⟨" ".toList, " n ".toList, Text.isSpace_of_mem_space, by decide, by decide⟩,
          ⟨[], "(2, 3)".toList, Text.isSpace_of_mem_nil, by decide, by decide⟩
        ]
        starts := by decide
        ends := by decide
        balanced := by decide
        plain := by decide
        gapped := by decide
        named := by decide
      }
      behind := " ".toList
      default := some " f(1, 2) == 3".toList
      spaced := by decide
      balanced := by decide
    },
    {
      before := " ".toList
      core := .nameless "...".toList ⟨by decide, by decide, .inl (by decide)⟩
      spaced := by decide
      balanced := by decide
    },
    {
      core := .named {
        type := "const char".toList
        gap := "*".toList
        name := "name".toList
        starts := by decide
        ends := by decide
        balanced := by decide
        plain := by decide
        gapped := by decide
        named := by decide
      }
      spaced := by decide
      balanced := by decide
    }
  ]

/-- The segment without a name takes the third place. -/
theorem readParameters_lookupList
    : readParameters true
        ("std::map<int, char *> table,\n  unsigned  long ** ends [ n ][(2, 3)] ".toList
          ++ "= f(1, 2) == 3, ...,const char*name".toList)
      = [
          {
            name := "table".toList
            type := some "std::map<int, char *>".toList
            direction := some "in,out".toList
            index := some 0
          },
          {
            name := "ends".toList
            type := some "unsigned long **[n][(2,3)]".toList
            direction := some "in,out".toList
            index := some 1
          },
          {
            name := "name".toList
            type := some "const char *".toList
            direction := some "in".toList
            index := some 3
          }
        ] :=
  readParameters_written true lookupList

end DocBlock.Signature
