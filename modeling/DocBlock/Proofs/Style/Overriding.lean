import DocBlock.Proofs.Style.Layering

/-! Options given on top of a style. The style is written out under the names of its options, the
given ones are put in, and the whole is loaded as if no style had been there. Each option that is
given decides, every other one keeps its value, and the environment is never asked.
-/

namespace DocBlock

--------------------------------------------------------------------------------
-- Fields of some names
--------------------------------------------------------------------------------

namespace Fields

variable {α : Type} {wanted : Text → Bool}

/-- Setting a field shows among the wanted fields exactly if its name is wanted, by induction on the
fields. -/
theorem filter_insert (fields : Fields α) (name : Text) (value : α)
    : (fields.insert name value).filter (wanted ·.1)
      = if wanted name then insert (fields.filter (wanted ·.1)) name value
        else fields.filter (wanted ·.1) := by
  induction fields with
  | nil => cases here : wanted name <;> simp [insert, here]
  | cons field rest ih =>
      by_cases same : field.1 = name
      · subst same
        cases here : wanted field.1 <;> simp [insert, here]
      · cases first : wanted field.1 <;> cases here : wanted name
          <;> simp_all [insert]

/-- Setting fields one after the other sets the wanted ones among the wanted fields. -/
theorem filter_insertAll (fields : Fields α) (entries : List (Text × α))
    : (fields.insertAll entries).filter (wanted ·.1)
      = insertAll (fields.filter (wanted ·.1)) (entries.filter (wanted ·.1)) := by
  induction entries generalizing fields with
  | nil => rfl
  | cons entry entries ih =>
      have later := ih (fields.insert entry.1 entry.2)
      rw [filter_insert] at later
      cases here : wanted entry.1 <;> simpa [insertAll, here] using later

/-- The first name stays the first, by induction on the entries. -/
theorem head?_insertAll (fields : Fields α) (entries : List (Text × α))
    : (fields.insertAll entries).head?.map (·.1)
      = (fields.head?.map (·.1)).or (entries.head?.map (·.1)) := by
  induction entries generalizing fields with
  | nil => simp [insertAll]
  | cons entry entries ih =>
      have later := ih (fields.insert entry.1 entry.2)
      have first : (fields.insert entry.1 entry.2).head?.map (·.1)
          = (fields.head?.map (·.1)).or (some entry.1) := by
        cases fields with
        | nil => rfl
        | cons field rest =>
            by_cases same : field.1 = entry.1 <;> simp [insert, same]
      rw [first] at later
      simpa [insertAll, Option.or_assoc] using later

end Fields

--------------------------------------------------------------------------------
-- Options named once
--------------------------------------------------------------------------------

namespace Setting

variable {setting : Setting} {options : Fields Json} {option : Text × Json}

/-- The given entries that name an option. -/
def entries (options : Fields Json) (setting : Setting) : Fields Json :=
  options.filter (setting.isSpelling ·.1)

/-- No option is named twice: under each of its two spellings, or twice under one. -/
def NamedOnce (options : Fields Json) : Prop :=
  ∀ setting : Setting, (setting.entries options).length ≤ 1

theorem mem_entries
    : option ∈ setting.entries options ↔ option ∈ options ∧ setting.Spells option.1 := by
  rw [entries, List.mem_filter, isSpelling_eq_true]

/-- What is given for an option that is named once is the value of the entry that names it. -/
theorem NamedOnce.given? (once : NamedOnce options) (member : option ∈ options)
    (spelt : setting.Spells option.1)
    : setting.given? options = some option.2 := by
  have named : option ∈ setting.entries options := mem_entries.mpr ⟨member, spelt⟩
  obtain ⟨entry, alone⟩ :=
    List.length_eq_one_iff.mp (Nat.le_antisymm (once setting) (List.length_pos_of_mem named))
  obtain rfl : option = entry := by simpa [alone] using named
  rw [entries] at alone
  simp [Setting.given?, alone]

theorem NamedOnce.effective (once : NamedOnce options) (base : Style) (member : option ∈ options)
    (spelt : setting.Spells option.1)
    : setting.effective base options [] = option.2 := by
  simp [Setting.effective, once.given? member spelt]

theorem effective_of_ungiven (base : Style)
    (ungiven : ∀ option ∈ options, ¬ setting.Spells option.1)
    : setting.effective base options [] = base.value setting :=
  counts_iff.mp (.fallback ungiven rfl rfl)

/-- Each option is written out once, under its name. -/
theorem entries_toFields (base : Style) (setting : Setting)
    : setting.entries base.toFields = [(setting.name, base.value setting)] := by
  cases setting <;> rfl

/-- On top of the options of a style that are written out, the given value counts, or else that of
the style. Witness: at most one entry is put in, either in the place of the one that is written out
or behind it.
-/
theorem NamedOnce.given?_insertAll (once : NamedOnce options) (base : Style) (setting : Setting)
    : setting.given? (Fields.insertAll base.toFields options)
      = some ((setting.given? options).getD (base.value setting)) := by
  have named := entries_toFields base setting
  have few := once setting
  rw [entries] at named few
  rw [Setting.given?, Setting.given?, Fields.filter_insertAll, named]
  generalize options.filter (setting.isSpelling ·.1) = given at few
  rcases given with _ | ⟨entry, _ | ⟨second, more⟩⟩
  · rfl
  · by_cases same : setting.name = entry.1
    · simp [Fields.insertAll, Fields.insert, same]
    · simp [Fields.insertAll, Fields.insert, same]
  · simp at few

end Setting

--------------------------------------------------------------------------------
-- Overriding
--------------------------------------------------------------------------------

namespace Style

open Setting (NamedOnce)

variable {base : Style} {options : Fields Json}

/-- A value that a style has is accepted as it is. -/
theorem coerce_value (style : Style) (setting : Setting)
    : setting.coerce (style.value setting) = .ok (style.value setting) := by
  have keyword := style.keyword_valid
  have ahead := style.lookahead_pos
  have wrap := style.wrap_min
  cases setting
  case returnKeyword =>
    simp [Setting.coerce, value, Style.keyword, Value.text, keyword, bind, Except.bind, pure,
      Except.pure, Except.map]
  case lookbehindLines =>
    simp [Setting.coerce, value, Value.atLeast, Value.int, bind, Except.bind, pure, Except.pure,
      Except.map]
  case lookaheadLines =>
    have bound : (1 : Int) ≤ style.lookaheadLines := by omega
    simp [Setting.coerce, value, Value.atLeast, Value.int, bound, bind, Except.bind, pure,
      Except.pure, Except.map]
  case wrapWidth =>
    have bound : (10 : Int) ≤ style.wrapWidth := by omega
    simp [Setting.coerce, value, Value.atLeast, Value.int, bound, bind, Except.bind, pure,
      Except.pure, Except.map]
  all_goals rfl

/-- Of the given keys, the first unknown one is reported. -/
theorem rejectUnknown_congr {others : Fields Json}
    (same : (options.find? fun option => (Setting.ofSpelling? option.1).isNone).map (·.1)
      = (others.find? fun option => (Setting.ofSpelling? option.1).isNone).map (·.1))
    : rejectUnknown options = rejectUnknown others := by
  unfold rejectUnknown
  split <;> split <;> simp_all

/-- The options that are written out are all known, so that only the given keys are looked at. -/
theorem rejectUnknown_insertAll (base : Style) (options : Fields Json)
    : rejectUnknown (Fields.insertAll base.toFields options) = rejectUnknown options := by
  have known : base.toFields.filter (fun option => (Setting.ofSpelling? option.1).isNone) = [] := by
    rfl
  apply rejectUnknown_congr
  rw [← List.head?_filter, ← List.head?_filter,
    @Fields.filter_insertAll _ fun key => (Setting.ofSpelling? key).isNone, known,
    Fields.head?_insertAll]
  rfl

/-- Loading the options of a style with the given ones put in is loading the given ones over the
style, whatever the environment. Witness: each option is given, so that neither a variable nor a
default counts.
-/
theorem resolve_insertAll (once : NamedOnce options) (base : Style) (environment : Fields Text)
    : resolve (Fields.insertAll base.toFields options) environment
      = resolveOver base options [] := by
  have values
      : Setting.effective .default (Fields.insertAll base.toFields options) environment
        = Setting.effective base options [] := by
    funext setting
    have unset : setting.fromEnvironment? [] = none := rfl
    simp [Setting.effective, once.given?_insertAll base setting, unset]
  rw [resolve, resolveOver, resolveOver, values, rejectUnknown_insertAll]

/-- Without options a style stays as it is. -/
theorem resolveOver_nil (base : Style) : resolveOver base [] [] = .ok base := by
  rw [resolveOver_eq_ok_iff]
  exact ⟨by simp, coerce_value base⟩

theorem withOptions_eq_resolveOver (once : NamedOnce options) (base : Style)
    : base.withOptions options = resolveOver base options [] := by
  rw [withOptions]
  split
  · next empty =>
    obtain rfl := List.isEmpty_iff.mp empty
    exact (resolveOver_nil base).symm
  · exact resolve_insertAll once base []

/-- A result of putting options on top of a style that changes what is given and nothing else.
There is a style exactly if all keys are known and all values are accepted; it has the accepted
values, and those of the first style where nothing is given. -/
structure Overrides (base : Style) (options : Fields Json) (result : Except StyleError Style)
    : Prop where
  loaded : ∀ style,
    result = .ok style
      ↔ (∀ option ∈ options, ∃ setting : Setting,
            setting.Spells option.1 ∧ setting.coerce option.2 = .ok (style.value setting))
        ∧ ∀ setting : Setting, (∀ option ∈ options, ¬ setting.Spells option.1)
            → style.value setting = base.value setting
  refused : (∃ error, result = .error error)
    ↔ (∃ option ∈ options, ∀ setting : Setting, ¬ setting.Spells option.1)
      ∨ ∃ option ∈ options, ∃ (setting : Setting) (fault : Fault),
          setting.Spells option.1 ∧ setting.coerce option.2 = .error fault

/-- A style over which options are resolved has the accepted values of those that are given, and is
left alone in the others. -/
theorem resolveOver_nil_eq_ok_iff {style : Style} (once : NamedOnce options)
    : resolveOver base options [] = .ok style
      ↔ (∀ option ∈ options, ∃ setting : Setting,
            setting.Spells option.1 ∧ setting.coerce option.2 = .ok (style.value setting))
        ∧ ∀ setting : Setting, (∀ option ∈ options, ¬ setting.Spells option.1)
            → style.value setting = base.value setting := by
  rw [resolveOver_eq_ok_iff]
  constructor
  · intro resolved
    obtain ⟨known, coerced⟩ := resolved
    refine ⟨fun option member => ?_, fun setting ungiven => ?_⟩
    · obtain ⟨setting, spelt⟩ := known option member
      have accepted := coerced setting
      rw [once.effective base member spelt] at accepted
      exact ⟨setting, spelt, accepted⟩
    · have accepted := coerced setting
      rw [Setting.effective_of_ungiven base ungiven, coerce_value] at accepted
      exact (Except.ok.inj accepted).symm
  · intro changed
    obtain ⟨given, kept⟩ := changed
    refine ⟨fun option member => ?_, fun setting => ?_⟩
    · obtain ⟨setting, spelt, -⟩ := given option member
      exact ⟨setting, spelt⟩
    · by_cases named : ∃ option ∈ options, setting.Spells option.1
      · obtain ⟨option, member, spelt⟩ := named
        obtain ⟨other, spelling, accepted⟩ := given option member
        obtain rfl := spelling.unique spelt
        rw [once.effective base member spelt, accepted]
      · have ungiven : ∀ option ∈ options, ¬ setting.Spells option.1 := by simpa using named
        rw [Setting.effective_of_ungiven base ungiven, coerce_value, kept setting ungiven]

/-- Options are refused over a style exactly if one of them is: the values of the style are not. -/
theorem resolveOver_nil_eq_error_iff (once : NamedOnce options)
    : (∃ error, resolveOver base options [] = .error error)
      ↔ (∃ option ∈ options, ∀ setting : Setting, ¬ setting.Spells option.1)
        ∨ ∃ option ∈ options, ∃ (setting : Setting) (fault : Fault),
            setting.Spells option.1 ∧ setting.coerce option.2 = .error fault := by
  rw [resolveOver_eq_error_iff]
  refine or_congr_right ?_
  constructor
  · intro refused
    obtain ⟨setting, raw, fault, counts, refused⟩ := refused
    rw [← Setting.counts_iff.mp counts] at refused
    by_cases named : ∃ option ∈ options, setting.Spells option.1
    · obtain ⟨option, member, spelt⟩ := named
      rw [once.effective base member spelt] at refused
      exact ⟨option, member, setting, fault, spelt, refused⟩
    · have ungiven : ∀ option ∈ options, ¬ setting.Spells option.1 := by simpa using named
      rw [Setting.effective_of_ungiven base ungiven, coerce_value] at refused
      contradiction
  · intro refused
    obtain ⟨option, member, setting, fault, spelt, refused⟩ := refused
    exact ⟨setting, option.2, fault, Setting.counts_iff.mpr (once.effective base member spelt),
      refused⟩

/-- Options that name no option twice change a style in what they name and in nothing else, as if
they were loaded with the style in the place of the defaults, and no environment shows. Witness: the
style is written out under the names of its options, where each given entry takes the place of the
one for its option or goes behind it.
-/
theorem withOptions_overrides (base : Style) (options : Fields Json) (once : NamedOnce options)
    : Overrides base options (base.withOptions options)
      ∧ base.withOptions options = resolveOver base options []
      ∧ ∀ environment : Fields Text,
          resolve (Fields.insertAll base.toFields options) environment
            = base.withOptions options := by
  rw [withOptions_eq_resolveOver once]
  refine ⟨⟨fun style => ?_, ?_⟩, rfl, fun environment => ?_⟩
  · exact resolveOver_nil_eq_ok_iff once
  · exact resolveOver_nil_eq_error_iff once
  · exact resolve_insertAll once base environment

/-- A style that differs from the default one in two options. -/
def narrow : Style :=
  {
    includeBrief := true
    wrapWidth := 40
    keyword_valid := Style.default.keyword_valid
    lookahead_pos := Style.default.lookahead_pos
  }

/-- One option by its short key, and one by its name. -/
def requested : Fields Json :=
  [("brief".toList, .string "off".toList), ("lookahead_lines".toList, .string " 5 ".toList)]

/-- The short key changes the option that the style has under its name, and the width stays. -/
theorem withOptions_overrides_requested
    : NamedOnce requested
      ∧ narrow.withOptions requested = .ok { lookaheadLines := 5, wrapWidth := 40 }
      ∧ Overrides narrow requested (narrow.withOptions requested)
      ∧ resolve (Fields.insertAll narrow.toFields requested) exportedTexts
          = .ok { lookaheadLines := 5, wrapWidth := 40 } := by
  have once : NamedOnce requested := by
    intro setting
    cases setting <;> decide
  have changed : narrow.withOptions requested = .ok { lookaheadLines := 5, wrapWidth := 40 } := rfl
  obtain ⟨overrides, -, unseen⟩ := withOptions_overrides narrow requested once
  exact ⟨once, changed, overrides, (unseen exportedTexts).trans changed⟩

end Style

end DocBlock
