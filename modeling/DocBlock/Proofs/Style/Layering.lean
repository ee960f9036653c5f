import DocBlock.Style.Resolve
import Mathlib.Data.List.Basic

/-! How the options of a style are layered. One value counts for each option: the last one given
under either spelling, or else that of its variables, or else the one it falls back on. A style is
built exactly if every given key is known and every value that counts is accepted, so a value that
is never looked at cannot be refused.
-/

namespace DocBlock

--------------------------------------------------------------------------------
-- Spellings
--------------------------------------------------------------------------------

namespace Setting

variable {setting other : Setting} {spelling : Text}

/-- The spelling is the short key or the name of the option. -/
def Spells (setting : Setting) (spelling : Text) : Prop :=
  spelling = setting.key ∨ spelling = setting.name

theorem isSpelling_eq_true : setting.isSpelling spelling = true ↔ setting.Spells spelling := by
  simp [isSpelling, Spells]

theorem isSpelling_eq_false : setting.isSpelling spelling = false ↔ ¬ setting.Spells spelling := by
  rw [← isSpelling_eq_true, Bool.not_eq_true]

theorem mem_all (setting : Setting) : setting ∈ all := by
  cases setting <;> decide

theorem isNone_ofSpelling?
    : (ofSpelling? spelling).isNone = true ↔ ∀ setting : Setting, ¬ setting.Spells spelling := by
  rw [ofSpelling?, Option.isNone_iff_eq_none, List.find?_eq_none]
  constructor
  · intro none setting spelt
    exact none setting setting.mem_all (isSpelling_eq_true.mpr spelt)
  · intro none setting _ spelt
    exact none setting (isSpelling_eq_true.mp spelt)

/-- A variable belongs to one option. Witness: the options are finitely many, and their upper-case
spellings differ.
-/
theorem eq_of_variableOf {first second : Text} (one : setting.Spells first)
    (two : other.Spells second) (same : variableOf first = variableOf second)
    : setting = other := by
  have apart : ∀ setting ∈ all, ∀ other ∈ all,
      ∀ first ∈ [setting.key, setting.name], ∀ second ∈ [other.key, other.name],
        first.map Char.toUpper = second.map Char.toUpper → setting = other := by
    decide +kernel
  refine apart setting setting.mem_all other other.mem_all first ?_ second ?_
    (List.append_cancel_left same)
  · simpa [Spells] using one
  · simpa [Spells] using two

/-- A spelling means one option. -/
theorem Spells.unique (one : setting.Spells spelling) (two : other.Spells spelling)
    : setting = other :=
  eq_of_variableOf one two rfl

--------------------------------------------------------------------------------
-- The value that counts
--------------------------------------------------------------------------------

variable {base : Style} {options : Fields Json} {environment : Fields Text} {raw : Json}

/-- The value that counts for an option, from the first source that has one. -/
inductive Counts (base : Style) (options : Fields Json) (environment : Fields Text)
    (setting : Setting)
    : Json → Prop where
  | given (front : Fields Json) (spelling : Text) (raw : Json) (later : Fields Json)
      (split : options = front ++ (spelling, raw) :: later) (spelt : setting.Spells spelling)
      (last : ∀ option ∈ later, ¬ setting.Spells option.1)
      : Counts base options environment setting raw
  | keyVariable (text : Text) (ungiven : ∀ option ∈ options, ¬ setting.Spells option.1)
      (found : environment.get? (variableOf setting.key) = some text)
      : Counts base options environment setting (.string text)
  | nameVariable (text : Text) (ungiven : ∀ option ∈ options, ¬ setting.Spells option.1)
      (unset : environment.get? (variableOf setting.key) = none)
      (found : environment.get? (variableOf setting.name) = some text)
      : Counts base options environment setting (.string text)
  | fallback (ungiven : ∀ option ∈ options, ¬ setting.Spells option.1)
      (noKey : environment.get? (variableOf setting.key) = none)
      (noName : environment.get? (variableOf setting.name) = none)
      : Counts base options environment setting (base.value setting)

theorem given?_eq_none_iff
    : setting.given? options = none ↔ ∀ option ∈ options, ¬ setting.Spells option.1 := by
  simp [given?, isSpelling_eq_false]

/-- The value given for an option is that of the last entry under one of its spellings. -/
theorem given?_eq_some_iff
    : setting.given? options = some raw
      ↔ ∃ front spelling later,
          options = front ++ (spelling, raw) :: later
          ∧ setting.Spells spelling
          ∧ ∀ option ∈ later, ¬ setting.Spells option.1 := by
  rw [given?, Option.map_eq_some_iff]
  constructor
  · intro found
    obtain ⟨⟨spelling, _⟩, last, rfl⟩ := found
    obtain ⟨kept, whole⟩ := List.getLast?_eq_some_iff.mp last
    obtain ⟨front, rest, rfl, -, tail⟩ := List.filter_eq_append_iff.mp whole
    obtain ⟨passed, later, rfl, -, spelt, none⟩ := List.filter_eq_cons_iff.mp tail
    refine ⟨front ++ passed, spelling, later, by simp, isSpelling_eq_true.mp spelt, ?_⟩
    intro option member spelling
    exact List.filter_eq_nil_iff.mp none option member (isSpelling_eq_true.mpr spelling)
  · intro stands
    obtain ⟨front, spelling, later, rfl, spelt, none⟩ := stands
    have dropped : later.filter (setting.isSpelling ·.1) = [] :=
      List.filter_eq_nil_iff.mpr fun option member spelling =>
        none option member (isSpelling_eq_true.mp spelling)
    refine ⟨(spelling, raw), ?_, rfl⟩
    simp [isSpelling_eq_true.mpr spelt, dropped]

/-- The value that counts is the one that is looked up. -/
theorem counts_iff
    : Counts base options environment setting raw
      ↔ setting.effective base options environment = raw := by
  constructor
  · intro counts
    cases counts with
    | given front spelling raw later split spelt last =>
        have given := given?_eq_some_iff.mpr ⟨front, spelling, later, split, spelt, last⟩
        simp [effective, given]
    | keyVariable text ungiven found =>
        simp [effective, given?_eq_none_iff.mpr ungiven, fromEnvironment?, found]
    | nameVariable text ungiven unset found =>
        simp [effective, given?_eq_none_iff.mpr ungiven, fromEnvironment?, unset, found]
    | fallback ungiven noKey noName =>
        simp [effective, given?_eq_none_iff.mpr ungiven, fromEnvironment?, noKey, noName]
  · intro same
    subst same
    cases given : setting.given? options with
    | some raw =>
        obtain ⟨front, spelling, later, split, spelt, last⟩ := given?_eq_some_iff.mp given
        simpa [effective, given] using Counts.given front spelling raw later split spelt last
    | none =>
        have ungiven := given?_eq_none_iff.mp given
        cases byKey : environment.get? (variableOf setting.key) with
        | some text =>
            simpa [effective, given, fromEnvironment?, byKey]
              using Counts.keyVariable text ungiven byKey
        | none =>
            cases byName : environment.get? (variableOf setting.name) with
            | some text =>
                simpa [effective, given, fromEnvironment?, byKey, byName]
                  using Counts.nameVariable text ungiven byKey byName
            | none =>
                simpa [effective, given, fromEnvironment?, byKey, byName]
                  using Counts.fallback ungiven byKey byName

--------------------------------------------------------------------------------
-- Accepted values
--------------------------------------------------------------------------------

/-- What an option makes of a value: five are truth values, one is a keyword, and three are numbers
with a lower bound. -/
def coerce (setting : Setting) (raw : Json) : Except Fault Json :=
  match setting with
  | includeBrief | firstLineInline | alignParameterNames | inferDirection | emitMacroDef =>
    (Value.bool raw).map .bool
  | returnKeyword => (Style.keyword raw).map (.string ·.val)
  | lookbehindLines => (Value.atLeast 0 raw).map (.int ·.val)
  | lookaheadLines => (Value.atLeast 1 raw).map (.int ·.val)
  | wrapWidth => (Value.atLeast 10 raw).map (.int ·.val)

end Setting

namespace Style

attribute [ext] Style

variable {value : Setting → Json} {style other : Style}

/-- A computation in sequence succeeds exactly if each step does. -/
theorem bind_eq_ok {ε α β : Type} {first : Except ε α} {next : α → Except ε β} {result : β}
    : (first >>= next) = .ok result ↔ ∃ a, first = .ok a ∧ next a = .ok result := by
  cases first <;> simp [bind, Except.bind]

theorem check_eq_ok {α : Type} {setting : Setting} {result : Except Fault α} {a : α}
    : check setting result = .ok a ↔ result = .ok a := by
  cases result <;> simp [check, Except.mapError]

/-- The options of a style determine it. -/
theorem ext_value (same : ∀ setting, style.value setting = other.value setting)
    : style = other := by
  apply Style.ext
  case includeBrief => exact Json.bool.inj (same .includeBrief)
  case firstLineInline => exact Json.bool.inj (same .firstLineInline)
  case alignParameterNames => exact Json.bool.inj (same .alignParameterNames)
  case inferDirection => exact Json.bool.inj (same .inferDirection)
  case emitMacroDef => exact Json.bool.inj (same .emitMacroDef)
  case returnKeyword => exact Json.string.inj (same .returnKeyword)
  case lookbehindLines => exact Int.ofNat.inj (Json.int.inj (same .lookbehindLines))
  case lookaheadLines => exact Int.ofNat.inj (Json.int.inj (same .lookaheadLines))
  case wrapWidth => exact Int.ofNat.inj (Json.int.inj (same .wrapWidth))

/-- A style that is built has what its options make of their values. -/
theorem coerce_of_ofValues (built : ofValues value = .ok style) (setting : Setting)
    : setting.coerce (value setting) = .ok (style.value setting) := by
  simp only [ofValues, bind_eq_ok, check_eq_ok, pure, Except.pure, Except.ok.injEq] at built
  obtain ⟨_, brief, _, inline, _, align, _, direct, _, define, _, keyword, _, behind, _, ahead, _,
    wrap, rfl⟩ := built
  cases setting <;> simp [Setting.coerce, Style.value, Except.map, *]

/-- An option that is checked first refuses its value, or else a later one does. -/
theorem exists_refused_of_check {α : Type} {setting : Setting} {result : Except Fault α}
    {f : α → Json} {next : α → Except StyleError Style} {error : StyleError}
    (coerced : setting.coerce (value setting) = result.map f)
    (failed : (check setting result >>= next) = .error error)
    (later : ∀ a, next a = .error error
      → ∃ (setting : Setting) (fault : Fault),
          setting.coerce (value setting) = .error fault ∧ error = { key := setting.key, fault })
    : ∃ (setting : Setting) (fault : Fault),
        setting.coerce (value setting) = .error fault ∧ error = { key := setting.key, fault } := by
  cases result with
  | error fault => exact ⟨setting, fault, coerced, (Except.error.inj failed).symm⟩
  | ok a => exact later a failed

/-- An error in building a style names an option that refuses its value. -/
theorem exists_refused_of_ofValues {error : StyleError} (failed : ofValues value = .error error)
    : ∃ (setting : Setting) (fault : Fault),
        setting.coerce (value setting) = .error fault ∧ error = { key := setting.key, fault } := by
  -- one step for each option, in the order in which they are checked
  refine @exists_refused_of_check _ _ .includeBrief _ _ _ _ rfl failed fun _ failed => ?_
  refine @exists_refused_of_check _ _ .firstLineInline _ _ _ _ rfl failed fun _ failed => ?_
  refine @exists_refused_of_check _ _ .alignParameterNames _ _ _ _ rfl failed fun _ failed => ?_
  refine @exists_refused_of_check _ _ .inferDirection _ _ _ _ rfl failed fun _ failed => ?_
  refine @exists_refused_of_check _ _ .emitMacroDef _ _ _ _ rfl failed fun _ failed => ?_
  refine @exists_refused_of_check _ _ .returnKeyword _ _ _ _ rfl failed fun _ failed => ?_
  refine @exists_refused_of_check _ _ .lookbehindLines _ _ _ _ rfl failed fun _ failed => ?_
  refine @exists_refused_of_check _ _ .lookaheadLines _ _ _ _ rfl failed fun _ failed => ?_
  refine @exists_refused_of_check _ _ .wrapWidth _ _ _ _ rfl failed fun _ failed => ?_
  cases failed

/-- A style is built from values exactly if each option makes of its value what the style has. -/
theorem ofValues_eq_ok_iff
    : ofValues value = .ok style
      ↔ ∀ setting : Setting, setting.coerce (value setting) = .ok (style.value setting) := by
  constructor
  · exact coerce_of_ofValues
  · intro coerced
    cases result : ofValues value with
    | error error =>
        obtain ⟨setting, fault, refused, -⟩ := exists_refused_of_ofValues result
        exact absurd (refused.symm.trans (coerced setting)) (by simp)
    | ok built =>
        have same : built = style := by
          apply ext_value
          intro setting
          exact Except.ok.inj ((coerce_of_ofValues result setting).symm.trans (coerced setting))
        rw [same]

/-- Given keys are let through exactly if each of them is a spelling of an option. -/
theorem rejectUnknown_eq_ok_iff {options : Fields Json}
    : rejectUnknown options = .ok ()
      ↔ ∀ option ∈ options, ∃ setting : Setting, setting.Spells option.1 := by
  rw [rejectUnknown]
  split
  · next option found =>
    refine iff_of_false nofun fun known => ?_
    obtain ⟨setting, spelt⟩ := known option (List.mem_of_find?_eq_some found)
    have unknown := List.find?_some found
    exact Setting.isNone_ofSpelling?.mp unknown setting spelt
  · next missing =>
    refine iff_of_true rfl fun option member => ?_
    have known := List.find?_eq_none.mp missing option member
    rw [Setting.isNone_ofSpelling?, not_forall] at known
    obtain ⟨setting, spelt⟩ := known
    exact ⟨setting, not_not.mp spelt⟩

/-- A style is resolved exactly if all given keys are known and each option makes of the value that
counts what the style has. -/
theorem resolveOver_eq_ok_iff {base : Style} {options : Fields Json} {environment : Fields Text}
    : resolveOver base options environment = .ok style
      ↔ (∀ option ∈ options, ∃ setting : Setting, setting.Spells option.1)
        ∧ ∀ setting : Setting,
            setting.coerce (setting.effective base options environment)
              = .ok (style.value setting) := by
  rw [← rejectUnknown_eq_ok_iff, ← ofValues_eq_ok_iff, resolveOver, bind_eq_ok]
  constructor
  · intro resolved
    obtain ⟨built, whole, passed⟩ := resolved
    obtain ⟨⟨⟩, known, same⟩ := bind_eq_ok.mp passed
    exact ⟨known, whole.trans same⟩
  · intro accepted
    obtain ⟨known, whole⟩ := accepted
    exact ⟨style, whole, bind_eq_ok.mpr ⟨(), known, rfl⟩⟩

/-- Why options are refused: an option refuses the value that counts, or a given key is no
option. -/
inductive Refuses (base : Style) (options : Fields Json) (environment : Fields Text)
    : StyleError → Prop where
  | value (setting : Setting) (raw : Json) (fault : Fault)
      (counts : setting.Counts base options environment raw)
      (refused : setting.coerce raw = .error fault)
      : Refuses base options environment { key := setting.key, fault }
  | key (option : Text × Json) (member : option ∈ options)
      (unknown : ∀ setting : Setting, ¬ setting.Spells option.1)
      : Refuses base options environment { key := option.1, fault := .unknownKey }

section Refusal

variable {base : Style} {options : Fields Json} {environment : Fields Text} {error : StyleError}

/-- An error says why the options are refused. -/
theorem refuses_of_resolveOver (failed : resolveOver base options environment = .error error)
    : Refuses base options environment error := by
  cases built : ofValues (Setting.effective base options environment) with
  | error fault =>
      rw [resolveOver, built] at failed
      obtain rfl := Except.error.inj failed
      obtain ⟨setting, fault, refused, rfl⟩ := exists_refused_of_ofValues built
      exact .value setting _ fault (Setting.counts_iff.mpr rfl) refused
  | ok style =>
      have rejected : rejectUnknown options = .error error := by
        rw [resolveOver, built] at failed
        cases result : rejectUnknown options with
        | error _ => simpa [result, bind, Except.bind] using failed
        | ok _ => simp [result, bind, Except.bind, pure, Except.pure] at failed
      unfold rejectUnknown at rejected
      split at rejected
      · next option found =>
        obtain rfl := Except.error.inj rejected
        have unknown := List.find?_some found
        exact .key option (List.mem_of_find?_eq_some found)
          (Setting.isNone_ofSpelling?.mp unknown)
      · cases rejected

/-- Options are refused exactly if some given key is unknown or some option refuses the value that
counts. -/
theorem resolveOver_eq_error_iff
    : (∃ error, resolveOver base options environment = .error error)
      ↔ (∃ option ∈ options, ∀ setting : Setting, ¬ setting.Spells option.1)
        ∨ ∃ (setting : Setting) (raw : Json) (fault : Fault),
            setting.Counts base options environment raw ∧ setting.coerce raw = .error fault := by
  constructor
  · intro failing
    obtain ⟨error, failed⟩ := failing
    cases refuses_of_resolveOver failed with
    | value setting raw fault counts refused => exact .inr ⟨setting, raw, fault, counts, refused⟩
    | key option member unknown => exact .inl ⟨option, member, unknown⟩
  · intro failing
    cases result : resolveOver base options environment with
    | error error => exact ⟨error, rfl⟩
    | ok style =>
        obtain ⟨known, coerced⟩ := resolveOver_eq_ok_iff.mp result
        rcases failing with ⟨option, member, unknown⟩ | ⟨setting, raw, fault, counts, refused⟩
        · obtain ⟨setting, spelt⟩ := known option member
          exact absurd spelt (unknown setting)
        · rw [← Setting.counts_iff.mp counts] at refused
          exact absurd (refused.symm.trans (coerced setting)) (by simp)

end Refusal

--------------------------------------------------------------------------------
-- Variables and given options
--------------------------------------------------------------------------------

section Variables

variable {environment : Fields Text} {setting : Setting} {text exported spelling : Text}

theorem get?_cons_self (name value : Text)
    : Fields.get? ((name, value) :: environment) name = some value := by
  simp [Fields.get?]

theorem get?_cons_of_ne {first name : Text} (apart : first ≠ name) (value : Text)
    : Fields.get? ((first, value) :: environment) name = environment.get? name := by
  simp [Fields.get?, apart]

/-- A variable counts as much as the same text given as an option, for the option it belongs to and
for all others. -/
theorem effective_variable (one : setting.Spells exported) (two : setting.Spells spelling)
    (noKey : environment.get? (Setting.variableOf setting.key) = none) (base : Style)
    (asked : Setting)
    : asked.effective base [] ((Setting.variableOf exported, text) :: environment)
      = asked.effective base [(spelling, .string text)] environment := by
  by_cases same : asked = setting
  · subst same
    have given : asked.effective base [(spelling, .string text)] environment = .string text :=
      Setting.counts_iff.mp (.given [] spelling (.string text) [] rfl two (by simp))
    rw [given]
    apply Setting.counts_iff.mp
    by_cases byKey : Setting.variableOf exported = Setting.variableOf asked.key
    · refine .keyVariable text (by simp) ?_
      rw [← byKey]
      exact get?_cons_self _ text
    · obtain rfl : exported = asked.name := by
        refine one.resolve_left fun key => byKey ?_
        rw [key]
      refine .nameVariable text (by simp) ?_ (get?_cons_self _ text)
      rw [get?_cons_of_ne byKey, noKey]
  · have foreign {own : Text} (spelt : asked.Spells own)
        : Setting.variableOf exported ≠ Setting.variableOf own := fun shared =>
      same (Setting.eq_of_variableOf one spelt shared).symm
    have unspelt : asked.given? [(spelling, .string text)] = none := by
      rw [Setting.given?_eq_none_iff, List.forall_mem_singleton]
      exact fun spelt => same (spelt.unique two)
    have ungiven : asked.given? [] = none := rfl
    simp only [Setting.effective, unspelt, ungiven, Setting.fromEnvironment?,
      get?_cons_of_ne (foreign (.inl rfl)), get?_cons_of_ne (foreign (.inr rfl))]

theorem resolve_variable (one : setting.Spells exported) (two : setting.Spells spelling)
    (noKey : environment.get? (Setting.variableOf setting.key) = none)
    : resolve [] ((Setting.variableOf exported, text) :: environment)
      = resolve [(spelling, .string text)] environment := by
  have values : Setting.effective .default [] ((Setting.variableOf exported, text) :: environment)
      = Setting.effective .default [(spelling, .string text)] environment := by
    funext asked
    exact effective_variable one two noKey .default asked
  have known : rejectUnknown [(spelling, .string text)] = .ok () := by
    rw [rejectUnknown_eq_ok_iff, List.forall_mem_singleton]
    exact ⟨setting, two⟩
  have empty : rejectUnknown [] = .ok () := rfl
  simp only [resolve, resolveOver, values, known, empty]

end Variables

--------------------------------------------------------------------------------
-- Layering
--------------------------------------------------------------------------------

/-- A result of loading a style that layers options, environment and defaults exactly. One value
counts for each option; the style has what its options make of these values; there is an error
exactly if there is a reason, which the error names; and a style keeps within its bounds. -/
structure Layered (options : Fields Json) (environment : Fields Text)
    (result : Except StyleError Style)
    : Prop where
  counts : ∀ setting : Setting, ∃ raw, ∀ other,
    setting.Counts .default options environment other ↔ other = raw
  loaded : ∀ style,
    result = .ok style
      ↔ (∀ option ∈ options, ∃ setting : Setting, setting.Spells option.1)
        ∧ ∀ setting : Setting, ∃ raw,
            setting.Counts .default options environment raw
            ∧ setting.coerce raw = .ok (style.value setting)
  refused : (∃ error, result = .error error)
    ↔ (∃ option ∈ options, ∀ setting : Setting, ¬ setting.Spells option.1)
      ∨ ∃ (setting : Setting) (raw : Json) (fault : Fault),
          setting.Counts .default options environment raw ∧ setting.coerce raw = .error fault
  named : ∀ error, result = .error error → Refuses .default options environment error
  bounded : ∀ style, result = .ok style
    → 0 ≤ style.lookbehindLines ∧ 1 ≤ style.lookaheadLines ∧ 10 ≤ style.wrapWidth
      ∧ style.returnKeyword ≠ []

/-- Loading a style layers its options exactly, and a text in a variable of an option is as good as
the same text given under either of its spellings. Witness: the value that is looked up is the one
that counts, and the nine checks accept exactly what their options accept.
-/
theorem resolve_layered (options : Fields Json) (environment : Fields Text)
    : Layered options environment (resolve options environment)
      ∧ ∀ (setting : Setting) (text exported spelling : Text),
          setting.Spells exported → setting.Spells spelling
            → environment.get? (Setting.variableOf setting.key) = none
            → resolve [] ((Setting.variableOf exported, text) :: environment)
              = resolve [(spelling, .string text)] environment := by
  constructor
  · constructor
    case counts =>
      intro setting
      refine ⟨setting.effective .default options environment, fun other => ?_⟩
      rw [Setting.counts_iff, eq_comm]
    case loaded =>
      intro style
      rw [resolve, resolveOver_eq_ok_iff]
      simp only [Setting.counts_iff, exists_eq_left']
    case refused => exact resolveOver_eq_error_iff
    case named =>
      intro error failed
      exact refuses_of_resolveOver failed
    case bounded =>
      intro style _
      refine ⟨Nat.zero_le _, style.lookahead_pos, style.wrap_min, fun empty => ?_⟩
      have valid := style.keyword_valid
      rw [empty] at valid
      cases valid
  · intro setting text exported spelling one two noKey
    exact resolve_variable one two noKey

/-- An option under both of its spellings. -/
def givenTwice : Fields Json :=
  [("brief".toList, .string "no".toList), ("include_brief".toList, .bool true)]

/-- Variables, of which the first is no truth value. -/
def exportedTexts : Fields Text :=
  [("DOXYGEN_GENERATOR_BRIEF".toList, "perhaps".toList),
    ("DOXYGEN_GENERATOR_WRAP_WIDTH".toList, " 40 ".toList)]

/-- The later spelling decides, and the variable that it hides is not refused. -/
theorem resolve_layered_givenTwice
    : resolve givenTwice exportedTexts = .ok { includeBrief := true, wrapWidth := 40 }
      ∧ Layered givenTwice exportedTexts (resolve givenTwice exportedTexts)
      ∧ resolve []
            (("DOXYGEN_GENERATOR_EMIT_MACRO_DEF_TAG".toList, "perhaps".toList) :: exportedTexts)
          = resolve [("macro_def".toList, .string "perhaps".toList)] exportedTexts := by
  have exported : Setting.variableOf Setting.emitMacroDef.name
      = "DOXYGEN_GENERATOR_EMIT_MACRO_DEF_TAG".toList := by decide
  have given : Setting.emitMacroDef.key = "macro_def".toList := rfl
  have layered := resolve_layered givenTwice exportedTexts
  have same := (resolve_layered [] exportedTexts).2 .emitMacroDef "perhaps".toList _ _ (.inr rfl)
    (.inl rfl) rfl
  rw [exported, given] at same
  exact ⟨rfl, layered.1, same⟩

end Style

end DocBlock
