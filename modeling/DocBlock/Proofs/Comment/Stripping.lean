import DocBlock.Proofs.Comment.Masking
import DocBlock.Proofs.Comment.Place

/-! Masking and stripping comments compared. Masking reads block and line comments together, while
stripping deletes all block comments first, also those that open inside a line comment. They leave
the same text as long as such a comment ends inside the line comment; a block comment that goes on
below hides the code up to its end from stripping only.
-/

namespace DocBlock.Comment

open Text (Reader isSpace withoutSpace)

--------------------------------------------------------------------------------
-- Masking and deleting
--------------------------------------------------------------------------------

theorem scanFrom_map {α β : Type} (f : α → β) (read : Reader α) (skip : Nat) (text : Text)
    : Text.scanFrom (fun text => (read text).map fun (found, later) => (f found, later)) skip text
      = (Text.scanFrom read skip text).map fun
        | .passed c => .passed c
        | .found found => .found (f found) := by
  induction text generalizing skip with
  | nil => cases skip <;> rfl
  | cons c rest ih =>
      cases skip with
      | succ skip => simpa only [Text.scanFrom] using ih skip
      | zero => cases here : read (c :: rest) <;> simp [Text.scanFrom, here, ih]

theorem replaceAll_map (f : Text → Text) (read : Reader Text) (text : Text)
    : Text.replaceAll (fun text => (read text).map fun (found, later) => (f found, later)) text
      = (Text.scan read text).flatMap fun
        | .passed c => [c]
        | .found found => f found := by
  rw [Text.replaceAll, Text.scan, scanFrom_map, List.flatMap_map]
  refine List.flatMap_congr fun item _ => ?_
  cases item <;> rfl

/-- Masked comments are white space, so that only the text outside comments shows. -/
theorem withoutSpace_mask (text : Text)
    : withoutSpace (mask text) = withoutSpace (delete comment? text) := by
  rw [mask, replaceAll_map blankOut, delete, replaceAll_map fun _ => [], withoutSpace, withoutSpace,
    List.filter_flatMap, List.filter_flatMap]
  refine List.flatMap_congr fun item _ => ?_
  cases item with
  | passed c => rfl
  | found found =>
      rw [List.filter_nil, List.filter_eq_nil_iff]
      intro c member
      rcases mem_blankOut member with rfl | rfl <;> decide

--------------------------------------------------------------------------------
-- Steps of deleting
--------------------------------------------------------------------------------

variable {front note body rest : Text}

theorem delete_cons_of_none {read : Reader Text} {c : Char} (fails : read (c :: rest) = none)
    : delete read (c :: rest) = c :: delete read rest :=
  Text.replaceAll_cons_of_none (by rw [fails, Option.map_none])

theorem delete_of_some {read : Reader Text} {found : Text}
    (reads : read (front ++ rest) = some (found, rest)) (nonempty : front ≠ [])
    : delete read (front ++ rest) = delete read rest := by
  refine (Text.replaceAll_of_some ?_ nonempty).trans (List.nil_append _)
  rw [reads, Option.map_some]

theorem block?_sound {text found later : Text} (reads : block? text = some (found, later))
    : ∃ body, Closeless body ∧ text = "/*".toList ++ body ++ "*/".toList ++ later := by
  simp only [block?, Option.bind_eq_bind, Option.bind_eq_some_iff] at reads
  obtain ⟨inner, opened, ⟨body, behind⟩, cut, same⟩ := reads
  obtain ⟨-, rfl⟩ : _ ∧ behind = later := by simpa using same
  obtain ⟨rfl, free⟩ := @Text.cut?_pair_sound '*' '/' _ _ _ cut
  exact ⟨body, free, by simp [Text.after?_eq_some_iff.mp opened]⟩

theorem block?_eq_none_of_unopened {text : Text} (unopened : ¬ "/*".toList <+: text)
    : block? text = none := by
  refine Option.eq_none_iff_forall_ne_some.mpr fun parts reads => ?_
  obtain ⟨body, -, whole⟩ := block?_sound reads
  exact unopened ⟨body ++ "*/".toList ++ parts.2, by simp [whole]⟩

theorem block?_eq_none_of_closeless (free : Closeless rest)
    : block? ("/*".toList ++ rest) = none := by
  refine Option.eq_none_iff_forall_ne_some.mpr fun parts reads => ?_
  obtain ⟨body, -, whole⟩ := block?_sound reads
  exact free ⟨body, parts.2, by simpa using whole.symm⟩

/-- Where a block comment opens and is not read, no end stands behind its opening. -/
theorem closeless_of_block?_eq_none (unread : block? ("/*".toList ++ rest) = none)
    : Closeless rest := by
  cases cut : Text.cut? "*/".toList rest with
  | none => exact Text.cut?_eq_none cut
  | some parts =>
      simp only [block?, Text.after?_append, cut, Option.bind_eq_bind, Option.bind_some,
        reduceCtorEq] at unread

/-- Code without an opening stays. -/
theorem delete_block_code (unopened : ¬ "/*".toList <:+: front) (start : rest.head? ≠ some '*')
    : delete block? (front ++ rest) = front ++ delete block? rest := by
  refine Text.replaceAll_append fun c later position => ?_
  rw [block?_eq_none_of_unopened ?_, Option.map_none]
  rintro ⟨more, whole⟩
  obtain ⟨rfl, tail⟩ : '/' = c ∧ '*' :: more = later ++ rest := by simpa using whole
  cases later with
  | nil => exact start (by rw [← List.nil_append rest, ← tail]; rfl)
  | cons d later =>
      obtain ⟨rfl, -⟩ : '*' = d ∧ more = later ++ rest := by simpa using tail
      exact unopened (List.IsInfix.trans ⟨[], later, rfl⟩ position.isInfix)

/-- A block comment that is never closed stays. -/
theorem delete_block_unclosed (free : Closeless (body ++ rest))
    : delete block? ("/*".toList ++ body ++ rest) = "/*".toList ++ body ++ delete block? rest := by
  refine Text.replaceAll_append fun c later position => ?_
  by_cases opened : "/*".toList <+: c :: later ++ rest
  · obtain ⟨inner, whole⟩ := opened
    have behind : inner <:+ body ++ rest := by
      obtain ⟨before, shape⟩ := position
      have joined : before ++ "/*".toList ++ inner = "/*".toList ++ (body ++ rest) := by
        rw [List.append_assoc, whole, ← List.append_assoc, shape, List.append_assoc]
      have end_ : inner <:+ "/*".toList ++ (body ++ rest) := ⟨_, joined⟩
      refine List.suffix_of_suffix_length_le end_ (List.suffix_append _ _) ?_
      have size := congrArg List.length joined
      simp only [List.length_append] at size ⊢
      omega
    rw [← whole, block?_eq_none_of_closeless (free.of_isInfix behind.isInfix), Option.map_none]
  · rw [block?_eq_none_of_unopened opened, Option.map_none]

/-- A text whose block comments are all closed, or are followed by no comment end, is left with some
of its own characters. Witness: induction on its comments; only the last one can be open.
-/
theorem exists_delete_block
    (closed : placeAfter note = .code ∨ (Closeless rest ∧ rest.head? ≠ some '/'))
    (start : rest.head? ≠ some '*')
    : ∃ kept, delete block? (note ++ rest) = kept ++ delete block? rest ∧ kept ⊆ note := by
  induction commented note with
  | code unopened => exact ⟨_, delete_block_code unopened start, List.Subset.refl _⟩
  | @unclosed front body unopened free =>
      obtain ⟨open_, unslashed⟩ :=
        closed.resolve_left fun code => placeAfter_unclosed unopened free code
      have whole : Closeless (body ++ rest) := free.append open_ unslashed
      refine ⟨front ++ ("/*".toList ++ body), ?_, List.Subset.refl _⟩
      rw [List.append_assoc, delete_block_code unopened (by simp), delete_block_unclosed whole,
        ← List.append_assoc]
  | @comment front body later unopened free _ ih =>
      rw [placeAfter_comment unopened free] at closed
      obtain ⟨kept, deleted, part⟩ := ih closed
      refine ⟨front ++ kept, ?_, ?_⟩
      · have first := delete_block_comment free (later ++ rest)
        simp only [List.append_assoc] at first ⊢
        rw [delete_block_code unopened (by simp), first, deleted]
      · intro c member
        rcases List.mem_append.mp member with before | behind
        · exact List.mem_append_left _ before
        · simp [part behind]

--------------------------------------------------------------------------------
-- Line comments
--------------------------------------------------------------------------------

/-- The end of a line, where a line comment ends. -/
def AtLineEnd (text : Text) : Prop :=
  ∀ c ∈ text.head?, c = '\n'

instance : DecidablePred AtLineEnd :=
  fun text => inferInstanceAs (Decidable (∀ c ∈ text.head?, c = '\n'))

theorem AtLineEnd.head?_ne (ends : AtLineEnd rest) {c : Char} (other : c ≠ '\n')
    : rest.head? ≠ some c :=
  fun first => other (ends c first)

theorem line?_append (unbroken : '\n' ∉ note) (ends : AtLineEnd rest)
    : line? ("//".toList ++ note ++ rest) = some ("//".toList ++ note, rest) := by
  have inside : ∀ c ∈ note, decide (c ≠ '\n') = true := by
    intro c member
    exact decide_eq_true fun feed => unbroken (feed ▸ member)
  have outside : ∀ c, rest.head? = some c → decide (c ≠ '\n') = false := by
    intro c first
    simp [ends c first]
  rw [line?, List.append_assoc, Text.after?_append]
  simp only [Option.bind_eq_bind, Option.bind_some, Text.takeWhile_run inside outside,
    Text.dropWhile_run inside outside]

theorem line?_cons_eq_none_iff {c : Char}
    : line? (c :: rest) = none ↔ ¬ (c = '/' ∧ rest.head? = some '/') := by
  rw [line?, Option.bind_eq_bind, Option.bind_eq_none_iff]
  constructor
  · rintro unread ⟨rfl, second⟩
    obtain ⟨later, rfl⟩ := List.head?_eq_some_iff.mp second
    exact absurd (unread later (Text.after?_append "//".toList later)) (by simp)
  · intro other later found
    obtain ⟨rfl, rfl⟩ : c = '/' ∧ rest = '/' :: later := by
      simpa using Text.after?_eq_some_iff.mp found
    exact absurd ⟨rfl, rfl⟩ other

theorem line?_sound {text found later : Text} (reads : line? text = some (found, later))
    : ∃ note, '\n' ∉ note ∧ AtLineEnd later ∧ text = "//".toList ++ note ++ later := by
  simp only [line?, Option.bind_eq_bind, Option.bind_eq_some_iff] at reads
  obtain ⟨inner, opened, same⟩ := reads
  obtain ⟨-, rfl⟩ : _ ∧ inner.dropWhile (· ≠ '\n') = later := by simpa using same
  refine ⟨inner.takeWhile (· ≠ '\n'), ?_, ?_, ?_⟩
  · intro feed
    simpa using List.mem_takeWhile_imp feed
  · intro c first
    have stop := List.head?_dropWhile_not (· ≠ '\n') inner
    rw [Option.mem_def.mp first] at stop
    simpa using stop
  · rw [List.append_assoc, List.takeWhile_append_dropWhile, Text.after?_eq_some_iff.mp opened]

theorem comment?_eq_none_iff {text : Text}
    : comment? text = none ↔ block? text = none ∧ line? text = none := by
  rw [comment?, Option.orElse_eq_orElse, Option.orElse_eq_or, Option.or_eq_none_iff]

theorem comment?_eq_some_iff {text : Text} {parts : Text × Text}
    : comment? text = some parts
      ↔ block? text = some parts ∨ block? text = none ∧ line? text = some parts := by
  rw [comment?, Option.orElse_eq_orElse, Option.orElse_eq_or, Option.or_eq_some_iff]

theorem delete_comment_block (free : Closeless body) (rest : Text)
    : delete comment? ("/*".toList ++ body ++ "*/".toList ++ rest) = delete comment? rest :=
  delete_of_some (comment?_eq_some_iff.mpr (.inl (block?_append free rest))) (by simp)

theorem delete_comment_line (unbroken : '\n' ∉ note) (ends : AtLineEnd rest)
    : delete comment? ("//".toList ++ note ++ rest) = delete comment? rest := by
  have other : block? ("//".toList ++ note ++ rest) = none :=
    block?_eq_none_of_unopened (by simp)
  exact delete_of_some (comment?_eq_some_iff.mpr (.inr ⟨other, line?_append unbroken ends⟩))
    (by simp)

/-- A block comment that opens in a line comment does not hide what stands below. -/
theorem delete_comment_outlasting {first covered : Text} (unbroken : '\n' ∉ note ++ first)
    (broken : covered.head? = some '\n')
    : delete comment? ("//".toList ++ note
        ++ ("/*".toList ++ (first ++ covered) ++ "*/".toList ++ rest))
      = delete comment? (covered ++ "*/".toList ++ rest) := by
  obtain ⟨below, rfl⟩ := List.head?_eq_some_iff.mp broken
  have flat : '\n' ∉ note ++ "/*".toList ++ first := by
    simpa using unbroken
  have line := @delete_comment_line _ ('\n' :: below ++ "*/".toList ++ rest) flat
    (by rintro c ⟨⟩; rfl)
  simpa using line

/-- Deleting block comments leaves a first character that is no slash. -/
theorem head?_delete_block (start : rest.head? ≠ some '/')
    : (delete block? rest).head? = rest.head? := by
  cases rest with
  | nil => rfl
  | cons c rest =>
      have unopened : ¬ "/*".toList <+: c :: rest := by
        rintro ⟨more, whole⟩
        exact start (by rw [← whole]; rfl)
      rw [delete_cons_of_none (block?_eq_none_of_unopened unopened)]
      rfl

--------------------------------------------------------------------------------
-- Deleting block comments first
--------------------------------------------------------------------------------

/-- The text without its block comments, and then without the line comments of what is left. -/
def uncommented (text : Text) : Text :=
  delete line? (delete block? text)

theorem strip_eq (text : Text) : strip text = withoutDirective (uncommented text) := rfl

/-- A character that starts no comment is left. No line comment arises where a block comment was: a
slash in front of it starts a line comment together with its own. -/
theorem uncommented_cons {c : Char} (unread : comment? (c :: rest) = none)
    : uncommented (c :: rest) = c :: uncommented rest := by
  obtain ⟨blockless, lineless⟩ := comment?_eq_none_iff.mp unread
  have unslashed : line? (c :: delete block? rest) = none := by
    rw [line?_cons_eq_none_iff] at lineless ⊢
    rintro ⟨slash, first⟩
    have start : rest.head? ≠ some '/' := fun second => lineless ⟨slash, second⟩
    exact start (head?_delete_block start ▸ first)
  rw [uncommented, delete_cons_of_none blockless, delete_cons_of_none unslashed, uncommented]

theorem uncommented_block (free : Closeless body) (rest : Text)
    : uncommented ("/*".toList ++ body ++ "*/".toList ++ rest) = uncommented rest := by
  rw [uncommented, delete_block_comment free, uncommented]

/-- What deleting block comments leaves of a line comment is deleted with it. -/
theorem uncommented_line {kept later : Text} (second : (note ++ rest).head? ≠ some '*')
    (deleted : delete block? (note ++ rest) = kept ++ delete block? later)
    (unbroken : '\n' ∉ kept) (ends : AtLineEnd later)
    : uncommented ("//".toList ++ note ++ rest) = uncommented later := by
  have unopened : ¬ "/*".toList <+: '/' :: (note ++ rest) := by
    rintro ⟨more, whole⟩
    have star : '*' :: more = note ++ rest := congrArg List.tail whole
    exact second (by rw [← star]; rfl)
  have slashes : delete block? ("//".toList ++ note ++ rest)
      = "//".toList ++ kept ++ delete block? later := by
    have shape : "//".toList ++ note ++ rest = '/' :: '/' :: (note ++ rest) := by simp
    rw [shape, delete_cons_of_none (block?_eq_none_of_unopened (by simp)),
      delete_cons_of_none (block?_eq_none_of_unopened unopened), deleted, List.append_assoc]
    rfl
  have stop : AtLineEnd (delete block? later) := by
    intro c found
    rw [head?_delete_block (ends.head?_ne (by decide))] at found
    exact ends c found
  rw [uncommented, slashes]
  exact delete_of_some (line?_append unbroken stop) (by simp)

--------------------------------------------------------------------------------
-- What stripping hides
--------------------------------------------------------------------------------

/-- A text as it is read by masking, and the code that stripping deletes in it. A block comment that
opens in a line comment, but not with its second slash, ends in it or nowhere, or it goes on below.
In that case all up to the line end behind it is deleted: `kept` is what deleting block comments
leaves there to the line comment, and `shown` is what masking leaves.
-/
inductive Hides : (text hidden : Text) → Prop where
  | nil : Hides [] []
  | code {c : Char} {rest hidden : Text} (unread : comment? (c :: rest) = none)
    (later : Hides rest hidden)
    : Hides (c :: rest) hidden
  | block {body rest hidden : Text} (free : Closeless body) (later : Hides rest hidden)
    : Hides ("/*".toList ++ body ++ "*/".toList ++ rest) hidden
  | line {note rest hidden : Text} (unbroken : '\n' ∉ note) (ends : AtLineEnd rest)
    (second : note.head? ≠ some '*') (closed : placeAfter note = .code ∨ Closeless rest)
    (later : Hides rest hidden)
    : Hides ("//".toList ++ note ++ rest) hidden
  | outlasting {note first covered behind kept rest shown hidden : Text}
    (unbroken : '\n' ∉ note ++ first) (broken : covered.head? = some '\n')
    (second : note.head? ≠ some '*') (closed : placeAfter note = .code)
    (free : Closeless (first ++ covered))
    (deleted : delete block? (behind ++ rest) = kept ++ delete block? rest) (flat : '\n' ∉ kept)
    (ends : AtLineEnd rest)
    (masked : delete comment? (covered ++ "*/".toList ++ (behind ++ rest))
      = shown ++ delete comment? rest)
    (later : Hides rest hidden)
    : Hides ("//".toList ++ note
        ++ ("/*".toList ++ (first ++ covered) ++ "*/".toList ++ (behind ++ rest)))
      (shown ++ hidden)

theorem uncommented_contained (unbroken : '\n' ∉ note) (ends : AtLineEnd rest)
    (second : note.head? ≠ some '*') (closed : placeAfter note = .code ∨ Closeless rest)
    : uncommented ("//".toList ++ note ++ rest) = uncommented rest := by
  have start : rest.head? ≠ some '*' := ends.head?_ne (by decide)
  obtain ⟨kept, deleted, part⟩ := exists_delete_block
    (closed.imp_right fun free => ⟨free, ends.head?_ne (by decide)⟩) start
  refine uncommented_line ?_ deleted (fun member => unbroken (part member)) ends
  cases note with
  | nil => exact start
  | cons c note => exact second

theorem uncommented_outlasting {behind kept : Text} (unbroken : '\n' ∉ note)
    (second : note.head? ≠ some '*') (closed : placeAfter note = .code) (free : Closeless body)
    (deleted : delete block? (behind ++ rest) = kept ++ delete block? rest) (flat : '\n' ∉ kept)
    (ends : AtLineEnd rest)
    : uncommented ("//".toList ++ note
        ++ ("/*".toList ++ body ++ "*/".toList ++ (behind ++ rest)))
      = uncommented rest := by
  obtain ⟨before, whole, part⟩ := @exists_delete_block note
    ("/*".toList ++ body ++ "*/".toList ++ (behind ++ rest)) (.inl closed) (by simp)
  rw [delete_block_comment free, deleted, ← List.append_assoc before] at whole
  refine uncommented_line ?_ whole ?_ ends
  · cases note with
    | nil => simp
    | cons c note => exact second
  · rw [List.mem_append, not_or]
    exact ⟨fun member => unbroken (part member), flat⟩

/-- Stripping leaves part of what masking shows. -/
theorem Hides.sublist {text hidden : Text} (hides : Hides text hidden)
    : (uncommented text).Sublist (delete comment? text) := by
  induction hides with
  | nil => exact List.Sublist.refl _
  | code unread _ ih =>
      rw [uncommented_cons unread, delete_cons_of_none unread]
      exact ih.cons_cons _
  | block free _ ih =>
      rw [uncommented_block free, delete_comment_block free]
      exact ih
  | line unbroken ends second closed _ ih =>
      rw [uncommented_contained unbroken ends second closed, delete_comment_line unbroken ends]
      exact ih
  | outlasting unbroken broken second closed free deleted flat ends masked _ ih =>
      rw [uncommented_outlasting (fun member => unbroken (List.mem_append_left _ member)) second
        closed free deleted flat ends, delete_comment_outlasting unbroken broken, masked]
      exact ih.trans (List.sublist_append_right _ _)

/-- What masking shows is what stripping leaves, and the code that it hides. -/
theorem Hides.length_eq {text hidden : Text} (hides : Hides text hidden)
    : (withoutSpace (delete comment? text)).length
      = (withoutSpace (uncommented text)).length + (withoutSpace hidden).length := by
  induction hides with
  | nil => rfl
  | @code c rest hidden unread _ ih =>
      rw [uncommented_cons unread, delete_cons_of_none unread]
      by_cases space : isSpace c = true
      · simpa [withoutSpace, space] using ih
      · simp only [withoutSpace, List.filter_cons, space] at ih ⊢
        simp only [Bool.not_false, if_true, List.length_cons, ih]
        omega
  | block free _ ih =>
      rw [uncommented_block free, delete_comment_block free, ih]
  | line unbroken ends second closed _ ih =>
      rw [uncommented_contained unbroken ends second closed, delete_comment_line unbroken ends, ih]
  | outlasting unbroken broken second closed free deleted flat ends masked _ ih =>
      rw [uncommented_outlasting (fun member => unbroken (List.mem_append_left _ member)) second
        closed free deleted flat ends, delete_comment_outlasting unbroken broken, masked]
      simp only [withoutSpace, List.filter_append, List.length_append] at ih ⊢
      omega

--------------------------------------------------------------------------------
-- Openings and ends that stand apart
--------------------------------------------------------------------------------

/-- No opening stands in the slashes of a line comment, and no opening shares a character with a
comment end. -/
structure Apart (text : Text) : Prop where
  line : ¬ "//*".toList <:+: text
  opening : ¬ "/*/".toList <:+: text
  ending : ¬ "*/*".toList <:+: text

instance : DecidablePred Apart :=
  fun text =>
    decidable_of_iff
      (¬ "//*".toList <:+: text ∧ ¬ "/*/".toList <:+: text ∧ ¬ "*/*".toList <:+: text)
      ⟨fun ⟨line, opening, ending⟩ => ⟨line, opening, ending⟩,
        fun ⟨line, opening, ending⟩ => ⟨line, opening, ending⟩⟩

theorem Apart.of_isSuffix {part text : Text} (apart : Apart text) (inside : part <:+ text)
    : Apart part where
  line := fun found => apart.line (found.trans inside.isInfix)
  opening := fun found => apart.opening (found.trans inside.isInfix)
  ending := fun found => apart.ending (found.trans inside.isInfix)

/-- A block comment ends at the first end behind its opening. -/
theorem block?_isSuffix {found later : Text}
    (reads : block? ("/*".toList ++ body ++ "*/".toList ++ rest) = some (found, later))
    : rest <:+ later := by
  obtain ⟨first, free, whole⟩ := block?_sound reads
  have behind : body ++ "*/".toList ++ rest = first ++ "*/".toList ++ later := by
    simpa using whole
  rcases List.append_eq_append_iff.mp behind with ⟨more, longer, tail⟩ | ⟨more, -, tail⟩
  · rw [free.eq_nil_of_close longer, List.nil_append] at tail
    rw [tail]
  · exact ⟨more, tail.symm⟩

/-- No block comment that opens in `front` goes on behind the start of `rest`. -/
def Settled (front rest : Text) : Prop :=
  ∀ c here found later,
    c :: here <:+ front → block? (c :: here ++ rest) = some (found, later) → rest <:+ later

theorem Settled.cons {c : Char} (settled : Settled front rest)
    (first : ∀ found later, block? (c :: front ++ rest) = some (found, later) → rest <:+ later)
    : Settled (c :: front) rest := by
  intro d here found later position reads
  rcases List.suffix_cons_iff.mp position with same | inside
  · exact first found later (same ▸ reads)
  · exact settled d here found later inside reads

/-- An opening in front of a comment end is closed by it, unless they share a character. Witness:
induction on the text in front of the end.
-/
theorem Settled.closed {covered : Text} (settled : Settled front rest)
    (apart : Apart (covered ++ "*/".toList ++ (front ++ rest)))
    : Settled (covered ++ "*/".toList ++ front) rest := by
  induction covered with
  | nil =>
      refine Settled.cons (Settled.cons settled ?_) ?_
      · intro found later reads
        obtain ⟨body, -, whole⟩ := block?_sound reads
        have star : front ++ rest = '*' :: (body ++ "*/".toList ++ later) :=
          congrArg List.tail whole
        exact absurd ⟨[], body ++ "*/".toList ++ later, by rw [star]; rfl⟩ apart.ending
      · intro found later reads
        obtain ⟨body, -, whole⟩ := block?_sound reads
        cases whole
  | cons c covered ih =>
      refine Settled.cons (ih (apart.of_isSuffix (List.suffix_cons _ _))) ?_
      intro found later reads
      obtain ⟨body, -, whole⟩ := block?_sound reads
      cases covered with
      | nil =>
          obtain ⟨rfl, -⟩ : c = '/' ∧ _ := by simpa using whole
          exact absurd ⟨[], front ++ rest, rfl⟩ apart.opening
      | cons d inner =>
          obtain ⟨rfl, rfl, -⟩ : c = '/' ∧ d = '*' ∧ _ := by simpa using whole
          have inside := @block?_isSuffix inner (front ++ rest) found later (by simpa using reads)
          exact (List.suffix_append _ _).trans inside

/-- A line comment ends at the first line end behind its opening. -/
theorem line?_isSuffix {found later : Text} (ends : AtLineEnd rest)
    (reads : line? (front ++ rest) = some (found, later))
    : rest <:+ later := by
  obtain ⟨note, unbroken, -, whole⟩ := line?_sound reads
  rcases List.append_eq_append_iff.mp whole with ⟨more, longer, tail⟩ | ⟨more, -, tail⟩
  · cases more with
    | nil => rw [tail, List.nil_append]
    | cons c more =>
        -- The line feed of `rest` would stand in the comment.
        have feed : c = '\n' := ends c (by rw [tail]; rfl)
        have inside : '\n' ∈ "//".toList ++ note := by
          rw [longer, ← feed]
          exact List.mem_append_right _ (List.mem_cons_self ..)
        exact absurd inside (by simpa using unbroken)
  · exact ⟨more, tail.symm⟩

/-- A comment is read as it stands in the text. -/
theorem comment?_sound {text found later : Text} (reads : comment? text = some (found, later))
    : found ≠ [] ∧ text = found ++ later := by
  rcases comment?_eq_some_iff.mp reads with block | ⟨-, line⟩
  · obtain ⟨body, free, rfl⟩ := block?_sound block
    obtain ⟨rfl, -⟩ := Prod.mk.inj (Option.some.inj (block.symm.trans (block?_append free later)))
    exact ⟨by simp, rfl⟩
  · obtain ⟨note, unbroken, ends, rfl⟩ := line?_sound line
    obtain ⟨rfl, -⟩ := Prod.mk.inj (Option.some.inj (line.symm.trans (line?_append unbroken ends)))
    exact ⟨by simp, rfl⟩

theorem Settled.comment?_isSuffix {c : Char} {here found later : Text}
    (settled : Settled front rest) (ends : AtLineEnd rest) (position : c :: here <:+ front)
    (reads : comment? (c :: here ++ rest) = some (found, later))
    : rest <:+ later := by
  rcases comment?_eq_some_iff.mp reads with block | ⟨-, line⟩
  · exact settled c here found later position block
  · exact line?_isSuffix ends line

/-- Masking reads the two parts one after the other. Witness: induction on the length of the part in
front, comment by comment.
-/
theorem Settled.exists_delete_comment (settled : Settled front rest) (ends : AtLineEnd rest)
    : ∃ shown, delete comment? (front ++ rest) = shown ++ delete comment? rest := by
  suffices step : ∀ bound here, here.length ≤ bound → here <:+ front
      → ∃ shown, delete comment? (here ++ rest) = shown ++ delete comment? rest from
    step front.length front le_rfl (List.suffix_refl _)
  intro bound
  induction bound with
  | zero =>
      intro here small position
      obtain rfl := List.length_eq_zero_iff.mp (Nat.le_zero.mp small)
      exact ⟨[], rfl⟩
  | succ bound ih =>
      intro here small position
      cases here with
      | nil => exact ⟨[], rfl⟩
      | cons c here =>
          cases reads : comment? (c :: here ++ rest) with
          | none =>
              obtain ⟨shown, behind⟩ :=
                ih here (by simpa using small) ((List.suffix_cons _ _).trans position)
              refine ⟨c :: shown, (delete_cons_of_none reads).trans ?_⟩
              rw [List.append_eq, behind, List.cons_append]
          | some parts =>
              obtain ⟨found, later⟩ := parts
              obtain ⟨part, rfl⟩ := settled.comment?_isSuffix ends position reads
              obtain ⟨nonempty, whole⟩ := comment?_sound reads
              have shape : c :: here = found ++ part := by
                rw [← List.append_assoc] at whole
                exact List.append_cancel_right whole
              have shorter : part.length ≤ bound := by
                have size := congrArg List.length shape
                have positive := List.length_pos_iff.mpr nonempty
                simp only [List.length_cons, List.length_append] at size small
                omega
              obtain ⟨shown, behind⟩ :=
                ih part shorter ((shape ▸ List.suffix_append found part).trans position)
              refine ⟨shown, ?_⟩
              rw [whole] at reads ⊢
              rw [delete_of_some reads nonempty, behind]

/-- Deleting block comments reads a text on to a line end, with `kept` left in front of it, and no
comment goes on behind that line end. -/
structure ReadsToLineEnd (text behind kept rest : Text) : Prop where
  whole : text = behind ++ rest
  deleted : delete block? text = kept ++ delete block? rest
  flat : '\n' ∉ kept
  ends : AtLineEnd rest
  settled : Settled behind rest

section ReadsToLineEnd

variable {text behind kept : Text}

theorem ReadsToLineEnd.here (stop : AtLineEnd text) : ReadsToLineEnd text [] [] text where
  whole := rfl
  deleted := rfl
  flat := List.not_mem_nil
  ends := stop
  settled := fun c here _ _ position => by simp at position

theorem ReadsToLineEnd.cons {c : Char} (later : ReadsToLineEnd text behind kept rest)
    (unread : block? (c :: text) = none) (inner : c ≠ '\n')
    : ReadsToLineEnd (c :: text) (c :: behind) (c :: kept) rest where
  whole := by rw [later.whole, List.cons_append]
  deleted := by rw [delete_cons_of_none unread, later.deleted, List.cons_append]
  flat := by simpa [Ne.symm inner] using later.flat
  ends := later.ends
  settled := by
    refine later.settled.cons fun found after reads => ?_
    rw [List.cons_append, ← later.whole, unread] at reads
    cases reads

theorem ReadsToLineEnd.block (later : ReadsToLineEnd text behind kept rest)
    (free : Closeless body) (apart : Apart ("/*".toList ++ body ++ "*/".toList ++ text))
    : ReadsToLineEnd ("/*".toList ++ body ++ "*/".toList ++ text)
        ("/*".toList ++ body ++ "*/".toList ++ behind) kept rest where
  whole := by rw [later.whole, List.append_assoc _ behind]
  deleted := by rw [delete_block_comment free, later.deleted]
  flat := later.flat
  ends := later.ends
  settled := by
    rw [later.whole] at apart
    exact later.settled.closed apart

/-- Every text is read on to a line end, by induction on its length, comment by comment. -/
theorem exists_readsToLineEnd (apart : Apart text)
    : ∃ behind kept rest, ReadsToLineEnd text behind kept rest := by
  induction size : text.length using Nat.strong_induction_on generalizing text with
  | _ bound ih =>
      cases text with
      | nil => exact ⟨[], [], [], .here (by rintro c ⟨⟩)⟩
      | cons c text =>
          cases reads : block? (c :: text) with
          | none =>
              by_cases feed : c = '\n'
              · exact ⟨[], [], _, .here (by rintro d ⟨⟩; exact feed)⟩
              · obtain ⟨behind, kept, rest, later⟩ :=
                  ih text.length (by simp [← size]) (apart.of_isSuffix (List.suffix_cons _ _)) rfl
                exact ⟨_, _, rest, later.cons reads feed⟩
          | some parts =>
              obtain ⟨body, free, whole⟩ := block?_sound reads
              rw [whole] at size apart ⊢
              obtain ⟨behind, kept, rest, later⟩ :=
                ih parts.2.length (by simp [← size]; omega)
                  (apart.of_isSuffix (List.suffix_append _ _)) rfl
              exact ⟨_, kept, rest, later.block free apart⟩

end ReadsToLineEnd

theorem exists_close {text : Text} (closes : ¬ Closeless text)
    : ∃ front later, Closeless front ∧ text = front ++ "*/".toList ++ later := by
  cases cut : Text.cut? "*/".toList text with
  | none => exact absurd (Text.cut?_eq_none cut) closes
  | some parts =>
      obtain ⟨whole, free⟩ := @Text.cut?_pair_sound '*' '/' _ _ _ cut
      exact ⟨parts.1, parts.2, free, by simp [whole]⟩

/-- A line comment hides nothing, or the block comment that it leaves open is closed below. -/
theorem Apart.exists_hides_line (apart : Apart ("//".toList ++ note ++ rest))
    (unbroken : '\n' ∉ note) (ends : AtLineEnd rest)
    (shorter : ∀ {front part}, "//".toList ++ note ++ rest = front ++ part → front ≠ []
      → ∃ hidden, Hides part hidden)
    : ∃ hidden, Hides ("//".toList ++ note ++ rest) hidden := by
  have unstarred : note.head? ≠ some '*' := by
    intro star
    obtain ⟨inside, rfl⟩ := List.head?_eq_some_iff.mp star
    exact apart.line ⟨[], inside ++ rest, by simp⟩
  by_cases closed : placeAfter note = .code ∨ Closeless rest
  · obtain ⟨hidden, later⟩ := shorter rfl (by simp)
    exact ⟨hidden, .line unbroken ends unstarred closed later⟩
  · obtain ⟨open_, closes⟩ := not_or.mp closed
    obtain ⟨before, first, rfl, code, free⟩ := exists_open open_
    obtain ⟨covered, tail, below, rfl⟩ := exists_close closes
    have broken : covered.head? = some '\n' := by
      cases covered with
      | nil => exact absurd (ends '*' rfl) (by decide)
      | cons c covered => exact congrArg some (ends c rfl)
    have whole : Closeless (first ++ covered) :=
      free.append below (by rw [broken]; decide)
    obtain ⟨behind, kept, last, rfl, deleted, flat, stop, settled⟩ :=
      exists_readsToLineEnd
        (apart.of_isSuffix ((List.suffix_append _ _).trans (List.suffix_append _ _)))
    have settled := settled.closed (apart.of_isSuffix (List.suffix_append _ _))
    obtain ⟨shown, masked⟩ := settled.exists_delete_comment stop
    have shape : "//".toList ++ (before ++ ("/*".toList ++ first))
          ++ (covered ++ "*/".toList ++ (behind ++ last))
        = "//".toList ++ before
          ++ ("/*".toList ++ (first ++ covered) ++ "*/".toList ++ (behind ++ last)) := by
      simp
    obtain ⟨hidden, later⟩ := @shorter ("//".toList ++ (before ++ ("/*".toList ++ first))
      ++ (covered ++ "*/".toList ++ behind)) last (by simp) (by simp)
    rw [List.append_assoc] at masked
    refine ⟨shown ++ hidden,
      shape ▸ .outlasting ?_ broken ?_ code whole deleted flat stop masked later⟩
    · simpa using unbroken
    · cases before with
      | nil => simp
      | cons c before => simpa using unstarred

/-- A text whose openings and ends stand apart is read by masking and by stripping side by side.
Witness: induction on its length, comment by comment; behind a block comment that opens in a line
comment both go on at the same line end.
-/
theorem Apart.exists_hides {text : Text} (apart : Apart text) : ∃ hidden, Hides text hidden := by
  induction size : text.length using Nat.strong_induction_on generalizing text with
  | _ bound ih =>
      have shorter {front part : Text} (whole : text = front ++ part) (nonempty : front ≠ [])
          : ∃ hidden, Hides part hidden := by
        have positive := List.length_pos_iff.mpr nonempty
        refine ih part.length ?_ (apart.of_isSuffix ⟨front, whole.symm⟩) rfl
        rw [← size, whole, List.length_append]
        omega
      cases text with
      | nil => exact ⟨[], .nil⟩
      | cons c text =>
          cases block : block? (c :: text) with
          | some parts =>
              obtain ⟨body, free, whole⟩ := block?_sound block
              obtain ⟨hidden, later⟩ := shorter whole (by simp)
              exact ⟨hidden, whole ▸ .block free later⟩
          | none =>
              cases line : line? (c :: text) with
              | none =>
                  obtain ⟨hidden, later⟩ := @shorter [c] text rfl (by simp)
                  exact ⟨hidden, .code (comment?_eq_none_iff.mpr ⟨block, line⟩) later⟩
              | some parts =>
                  obtain ⟨note, unbroken, ends, whole⟩ := line?_sound line
                  rw [whole] at apart shorter ⊢
                  exact apart.exists_hides_line unbroken ends shorter

--------------------------------------------------------------------------------
-- Directives
--------------------------------------------------------------------------------

theorem afterDirective?_isSuffix {text later : Text} (found : afterDirective? text = some later)
    : later <:+ text := by
  fun_induction afterDirective? text with
  | case1 => cases found
  | case2 rest ih => exact (ih found).trans ⟨['\\', '\n'], rfl⟩
  | case3 rest _ =>
      obtain rfl : rest = later := by simpa using found
      exact List.suffix_cons _ _
  | case4 c rest _ _ ih => exact (ih found).trans (List.suffix_cons _ _)

/-- A directive with a line behind it starts the text. -/
def StartsDirective (text : Text) : Prop :=
  ∃ rest later, text = '#' :: rest ∧ afterDirective? rest = some later

theorem withoutDirective_of_not_starts {text : Text} (plain : ¬ StartsDirective text)
    : withoutDirective text = text := by
  unfold withoutDirective
  split
  · rename_i rest
    cases found : afterDirective? rest with
    | none => rfl
    | some later => exact absurd ⟨rest, later, rfl, found⟩ plain
  · rfl

/-- A directive is deleted with its `#`, so that less is left. -/
theorem withoutDirective_of_starts {text : Text} (directive : StartsDirective text)
    : (withoutSpace (withoutDirective text)).length < (withoutSpace text).length := by
  obtain ⟨rest, later, rfl, found⟩ := directive
  have part : (withoutSpace later).Sublist (withoutSpace rest) :=
    (afterDirective?_isSuffix found).sublist.filter _
  have deleted : withoutDirective ('#' :: rest) = later := by
    rw [withoutDirective, found, Option.getD_some]
  have mark : withoutSpace ('#' :: rest) = '#' :: withoutSpace rest := rfl
  rw [deleted, mark, List.length_cons]
  exact Nat.lt_succ_of_le part.length_le

--------------------------------------------------------------------------------
-- The two compared
--------------------------------------------------------------------------------

theorem Hides.agree_iff {text hidden : Text} (hides : Hides text hidden)
    : withoutSpace (strip text) = withoutSpace (mask text)
      ↔ withoutSpace hidden = [] ∧ ¬ StartsDirective (uncommented text) := by
  have part : (withoutSpace (uncommented text)).Sublist (withoutSpace (delete comment? text)) :=
    hides.sublist.filter _
  rw [strip_eq, withoutSpace_mask]
  constructor
  · intro same
    have sizes := congrArg List.length same
    have least := part.length_le
    have plain : ¬ StartsDirective (uncommented text) := by
      intro directive
      have lost := withoutDirective_of_starts directive
      omega
    rw [withoutDirective_of_not_starts plain, hides.length_eq] at sizes
    exact ⟨List.length_eq_zero_iff.mp (by omega), plain⟩
  · rintro ⟨none_, plain⟩
    rw [withoutDirective_of_not_starts plain]
    refine part.eq_of_length ?_
    rw [hides.length_eq, none_]
    rfl

/-- Apart from white space stripping leaves what masking shows exactly where the block comments that
open in line comments hide no code below, and no directive starts what is left.
-/
theorem stripped_like_masked_iff {text : Text} (apart : Apart text)
    : ∃ hidden,
        Hides text hidden
        ∧ (withoutSpace (strip text) = withoutSpace (mask text)
          ↔ withoutSpace hidden = [] ∧ ¬ StartsDirective (uncommented text)) := by
  obtain ⟨hidden, hides⟩ := apart.exists_hides
  exact ⟨hidden, hides, hides.agree_iff⟩

/-- A block comment that ends in the line comment where it opens hides nothing. -/
theorem stripped_like_masked_at_notes
    : let text := "int f(int a); // of /* int */ a\n/* // */ #define F\n".toList
      Apart text
      ∧ ∃ hidden,
          Hides text hidden ∧ withoutSpace hidden = [] ∧ ¬ StartsDirective (uncommented text) := by
  intro text
  have apart : Apart text := by decide +kernel
  have same : withoutSpace (strip text) = withoutSpace (mask text) := by decide +kernel
  obtain ⟨hidden, hides, agree⟩ := stripped_like_masked_iff apart
  exact ⟨apart, hidden, hides, agree.mp same⟩

/-- A block comment that opens in a line comment hides a declaration below it, and one that opens
with its second slash leaves the first. -/
theorem stripped_unlike_masked
    : let text := "// note /* x\n/* y */ int f(int a)".toList
      let slashes := "//* x */\nint f(int a)".toList
      text.head? ≠ some '#'
      ∧ withoutSpace (mask text) = "intf(inta)".toList
      ∧ withoutSpace (strip text) = []
      ∧ slashes.head? ≠ some '#'
      ∧ withoutSpace (mask slashes) = "intf(inta)".toList
      ∧ withoutSpace (strip slashes) = "/intf(inta)".toList := by
  decide +kernel

end DocBlock.Comment
