import DocBlock.Text.Scan
import Mathlib.Data.List.Infix

/-! Scanning a text as a sequence of steps: a position where nothing is read is passed over, and
after a success the scan goes on with the rest. Finding and replacing follow the same steps.
-/

namespace DocBlock.Text

variable {α : Type}

/-- Skipping characters is scanning the text without them, by induction on the text. -/
theorem scanFrom_eq_drop (read : Reader α) (skip : Nat) (text : Text)
    : scanFrom read skip text = scan read (text.drop skip) := by
  induction text generalizing skip with
  | nil => simp [scan, scanFrom]
  | cons c rest ih =>
      cases skip with
      | zero => rfl
      | succ skip => simpa [scanFrom] using ih skip

@[simp]
theorem scan_nil (read : Reader α) : scan read [] = [] := rfl

theorem scan_cons_of_none {read : Reader α} {c : Char} {rest : Text}
    (fails : read (c :: rest) = none)
    : scan read (c :: rest) = .passed c :: scan read rest := by
  simp [scan, scanFrom, fails]

/-- After a success that takes at least one character the scan goes on with the rest. -/
theorem scan_of_some {read : Reader α} {front later : Text} {value : α}
    (found : read (front ++ later) = some (value, later)) (nonempty : front ≠ [])
    : scan read (front ++ later) = .found value :: scan read later := by
  obtain ⟨c, front, rfl⟩ := List.exists_cons_of_ne_nil nonempty
  have size : (front ++ later).length - later.length = front.length := by
    simp
  simp only [List.cons_append] at found
  simp only [List.cons_append, scan, scanFrom, found, size]
  rw [scanFrom_eq_drop, List.drop_left]
  rfl

/-- A front in which nothing is read is passed over, by induction on the front. -/
theorem scan_append {read : Reader α} {front rest : Text}
    (fails : ∀ c later, c :: later <:+ front → read (c :: later ++ rest) = none)
    : scan read (front ++ rest) = front.map .passed ++ scan read rest := by
  induction front with
  | nil => rfl
  | cons c front ih =>
      have later := ih fun d more suffix =>
        fails d more (suffix.trans (List.suffix_cons c front))
      have here : read (c :: (front ++ rest)) = none := fails c front List.suffix_rfl
      rw [List.cons_append, scan_cons_of_none here, later]
      rfl

/-- Everything found was read at some position of the text. Witness: induction on the text with
any number of characters skipped.
-/
theorem mem_scan_found {read : Reader α} {text : Text} {value : α}
    (member : Item.found value ∈ scan read text)
    : ∃ rest later, rest <:+ text ∧ read rest = some (value, later) := by
  suffices general : ∀ skip, Item.found value ∈ scanFrom read skip text
      → ∃ rest later, rest <:+ text ∧ read rest = some (value, later) from general 0 member
  clear member
  induction text with
  | nil => simp [scanFrom]
  | cons c rest ih =>
      have inRest {skip : Nat} (member : Item.found value ∈ scanFrom read skip rest)
          : ∃ tail later, tail <:+ c :: rest ∧ read tail = some (value, later) := by
        obtain ⟨tail, later, suffix, found⟩ := ih skip member
        exact ⟨tail, later, suffix.trans (List.suffix_cons c rest), found⟩
      intro skip member
      cases skip with
      | succ skip => exact inRest (by simpa only [scanFrom] using member)
      | zero =>
          cases here : read (c :: rest) with
          | none =>
              simp only [scanFrom, here, List.mem_cons, reduceCtorEq, false_or] at member
              exact inRest member
          | some result =>
              obtain ⟨first, later⟩ := result
              simp only [scanFrom, here, List.mem_cons, Item.found.injEq] at member
              rcases member with rfl | member
              · exact ⟨c :: rest, later, List.suffix_rfl, here⟩
              · exact inRest member

theorem findAll_append {read : Reader α} {front rest : Text}
    (fails : ∀ c later, c :: later <:+ front → read (c :: later ++ rest) = none)
    : findAll read (front ++ rest) = findAll read rest := by
  simp [findAll, scan_append fails, List.filterMap_map]

theorem findAll_cons_of_none {read : Reader α} {c : Char} {rest : Text}
    (fails : read (c :: rest) = none)
    : findAll read (c :: rest) = findAll read rest := by
  simp [findAll, scan_cons_of_none fails]

theorem findAll_of_some {read : Reader α} {front later : Text} {value : α}
    (found : read (front ++ later) = some (value, later)) (nonempty : front ≠ [])
    : findAll read (front ++ later) = value :: findAll read later := by
  simp [findAll, scan_of_some found nonempty]

/-- Everything found was read at some position of the text. -/
theorem mem_findAll {read : Reader α} {text : Text} {value : α}
    (member : value ∈ findAll read text)
    : ∃ rest later, rest <:+ text ∧ read rest = some (value, later) := by
  obtain ⟨item, scanned, kept⟩ := List.mem_filterMap.mp member
  cases item with
  | passed c => simp at kept
  | found first =>
      obtain rfl : first = value := Option.some.inj kept
      exact mem_scan_found scanned

@[simp]
theorem replaceAll_nil (read : Reader Text) : replaceAll read [] = [] := rfl

theorem replaceAll_append {read : Reader Text} {front rest : Text}
    (fails : ∀ c later, c :: later <:+ front → read (c :: later ++ rest) = none)
    : replaceAll read (front ++ rest) = front ++ replaceAll read rest := by
  simp [replaceAll, scan_append fails, List.flatMap_map]

theorem replaceAll_cons_of_none {read : Reader Text} {c : Char} {rest : Text}
    (fails : read (c :: rest) = none)
    : replaceAll read (c :: rest) = c :: replaceAll read rest := by
  simp [replaceAll, scan_cons_of_none fails]

theorem replaceAll_of_some {read : Reader Text} {front later replacement : Text}
    (found : read (front ++ later) = some (replacement, later)) (nonempty : front ≠ [])
    : replaceAll read (front ++ later) = replacement ++ replaceAll read later := by
  simp [replaceAll, scan_of_some found nonempty]

/-- A text in which everything is replaced by itself stays as it is, by induction on the length of
the text. -/
theorem replaceAll_of_kept {read : Reader Text} {text : Text}
    (kept : ∀ position shown later,
      position <:+ text
      → read position = some (shown, later)
      → shown ≠ [] ∧ position = shown ++ later)
    : replaceAll read text = text := by
  induction size : text.length using Nat.strong_induction_on generalizing text with
  | _ n ih =>
      cases text with
      | nil => rfl
      | cons c rest =>
          cases here : read (c :: rest) with
          | none =>
              have behind := ih rest.length (by simp [← size])
                (fun position shown later inside =>
                  kept position shown later (inside.trans (List.suffix_cons c rest))) rfl
              rw [replaceAll_cons_of_none here, behind]
          | some result =>
              obtain ⟨shown, later⟩ := result
              obtain ⟨nonempty, whole⟩ := kept _ shown later List.suffix_rfl here
              rw [whole] at here kept size
              have shorter : later.length < n := by
                have := List.length_pos_of_ne_nil nonempty
                rw [← size, List.length_append]
                omega
              have behind := ih later.length shorter
                (fun position shown more inside =>
                  kept position shown more (inside.trans (List.suffix_append _ later))) rfl
              rw [whole, replaceAll_of_some here nonempty, behind]

/-- A text in which nothing is read stays as it is. -/
theorem replaceAll_eq_self {read : Reader Text} {text : Text}
    (fails : ∀ c later, c :: later <:+ text → read (c :: later) = none)
    : replaceAll read text = text := by
  simpa using @replaceAll_append read text [] (by simpa using fails)

end DocBlock.Text
