import Mathlib.Data.List.DropRight
import OperationLibrary.Proofs.RecentUse
import OperationLibrary.Proofs.SharedMemo

/-!
What a memo has after any steps. Putting a value in makes its text the newest one, reading changes
nothing, and clearing takes everything away. Under keys that tell all texts apart a memo has the
texts that were put in last, as many as there is room for, each with the value that it was last put
in with.
-/

namespace OperationLibrary

/-- Keys to which one more is added, without the first ones if there is no room for all. -/
theorem LatestUsed.use {capacity : Nat} {uses keys : List String}
    (h : LatestUsed capacity uses keys) (key : String) :
    LatestUsed capacity (uses ++ [key])
      ((keys.filter (· != key) ++ [key]).drop
        ((keys.filter (· != key) ++ [key]).length - capacity)) := by
  have hsuffix : keys.filter (· != key) ++ [key] <:+ (uses ++ [key]).dedup := by
    obtain ⟨front, hfront⟩ := h.suffix.filter (· != key)
    exact ⟨front, by rw [dedup_concat, ← List.append_assoc, hfront]⟩
  refine ⟨(List.drop_suffix _ _).trans hsuffix, by rw [List.length_drop]; omega, ?_⟩
  rcases Nat.lt_or_ge (keys.filter (· != key) ++ [key]).length capacity with hroom | hfull
  · -- the new key has taken no other place than its own, so none was missing before
    have hkeys : keys.length < capacity := by
      have hlength := keys.length_erase (a := key)
      rw [h.nodup.erase_eq_filter] at hlength
      rw [List.length_append, List.length_singleton] at hroom
      split at hlength <;> omega
    rw [Nat.sub_eq_zero_of_le hroom.le, List.drop_zero, dedup_concat, ← h.eq_dedup hkeys]
    exact .inr rfl
  · exact .inl (by rw [List.length_drop]; omega)

/-- There are as many keys as were used, unless there is not room for all of them. -/
theorem LatestUsed.length_eq {capacity : Nat} {uses keys : List String}
    (h : LatestUsed capacity uses keys) : keys.length = min capacity uses.toFinset.card := by
  rw [List.card_toFinset]
  have hbound := h.length_le
  have hsub := h.suffix.length_le
  rcases h.full with hfull | hall
  · omega
  · rw [hall] at hbound ⊢
    omega

namespace Memo

variable {κ α : Type}

/-! ### Steps -/

inductive Step (α : Type) where
  | put (text : String) (value : α)
  | get (text : String)
  | clear
  deriving DecidableEq

namespace Step

/-- The text that a step puts in. -/
def putText? : Step α → Option String
  | put text _ => some text
  | get _ | clear => none

def isGet : Step α → Bool
  | get _ => true
  | put _ _ | clear => false

def isClear : Step α → Bool
  | clear => true
  | put _ _ | get _ => false

end Step

/-- The texts that are put in step after step. -/
def putTexts (steps : List (Step α)) : List String :=
  steps.filterMap Step.putText?

/-- The steps after the last one that clears the memo. -/
def sinceClear (steps : List (Step α)) : List (Step α) :=
  steps.rtakeWhile fun step => !step.isClear

/-- The last step that puts the text in puts in this value, and nothing was cleared after it; the
steps that came later are `later`. -/
def LastPut (steps : List (Step α)) (text : String) (value : α) (later : List (Step α)) : Prop :=
  (∃ earlier, steps = earlier ++ .put text value :: later) ∧ .clear ∉ later ∧
    text ∉ putTexts later

section

variable [DecidableEq κ]

/-- The memo after a step. Reading leaves it as it is. -/
def perform (memo : Memo κ α) : Step α → Memo κ α
  | .put text value => memo.put text value
  | .get _ => memo
  | .clear => memo.clear

def after (memo : Memo κ α) (steps : List (Step α)) : Memo κ α :=
  steps.foldl perform memo

@[simp] theorem after_concat (memo : Memo κ α) (steps : List (Step α)) (step : Step α) :
    memo.after (steps ++ [step]) = (memo.after steps).perform step := by
  simp [after]

/-- Steps that only read make no difference. -/
theorem after_filter_isGet (memo : Memo κ α) (steps : List (Step α)) :
    memo.after (steps.filter fun step => !step.isGet) = memo.after steps := by
  induction steps generalizing memo with
  | nil => rfl
  | cons step steps ih => cases step <;> exact ih _

end

/-! ### What was put in last -/

section

variable {steps later : List (Step α)} {step : Step α} {text : String} {value : α}

@[simp] theorem putTexts_append (steps later : List (Step α)) :
    putTexts (steps ++ later) = putTexts steps ++ putTexts later :=
  List.filterMap_append

theorem sinceClear_concat (steps : List (Step α)) (step : Step α) :
    sinceClear (steps ++ [step]) = if step.isClear then [] else sinceClear steps ++ [step] := by
  unfold sinceClear
  cases hclear : step.isClear
  · rw [List.rtakeWhile_concat_pos _ _ _ (by simp [hclear])]
    rfl
  · rw [List.rtakeWhile_concat_neg _ _ _ (by simp [hclear])]
    rfl

/-- Steps that clear nothing are all among those after the last clearing. -/
theorem sinceClear_append (steps : List (Step α)) (h : .clear ∉ later) :
    sinceClear (steps ++ later) = sinceClear steps ++ later := by
  induction later using List.reverseRecOn with
  | nil => simp
  | append_singleton later step ih =>
      simp only [List.mem_append, List.mem_singleton, not_or] at h
      have hstep : step.isClear = false := by
        cases step with
        | clear => exact absurd rfl h.2
        | put | get => rfl
      rw [← List.append_assoc, sinceClear_concat, hstep, ih h.1]
      simp

/-- The texts that were put in after a text are those that the later steps put in. -/
theorem LastPut.usedSince_eq (h : LastPut steps text value later) :
    text ∈ putTexts (sinceClear steps) ∧
      usedSince text (putTexts (sinceClear steps)) = (putTexts later).reverse := by
  obtain ⟨⟨earlier, rfl⟩, hclear, hlater⟩ := h
  have hsince : sinceClear (earlier ++ .put text value :: later) =
      sinceClear earlier ++ .put text value :: later :=
    sinceClear_append earlier (by simpa using hclear)
  have htexts : putTexts (.put text value :: later) = text :: putTexts later := rfl
  rw [hsince, putTexts_append, htexts, usedSince, List.reverse_append, List.reverse_cons,
    List.append_assoc]
  refine ⟨by simp, ?_⟩
  rw [List.takeWhile_append_of_pos fun other hother => ?_]
  · simp
  · have hne : other ≠ text := fun hsame => hlater (List.mem_reverse.mp (hsame ▸ hother))
    simpa using hne

theorem LastPut.unique {other : α} {rest : List (Step α)} (h : LastPut steps text value later)
    (hother : LastPut steps text other rest) : value = other := by
  obtain ⟨⟨earlier, rfl⟩, -, hlater⟩ := h
  obtain ⟨⟨front, hsplit⟩, -, hrest⟩ := hother
  -- each of the two steps that put the text in would stand behind the other one
  have hnot : ∀ {steps tail : List (Step α)} {value : α}, text ∉ putTexts steps →
      steps ≠ tail ++ .put text value :: later ∧ steps ≠ tail ++ .put text value :: rest := by
    intro steps tail value h
    constructor <;> rintro rfl <;> simp [putTexts, Step.putText?] at h
  rcases List.append_eq_append_iff.mp hsplit with ⟨between, -, htail⟩ | ⟨between, -, htail⟩
  · cases between with
    | nil => exact (Step.put.inj (List.cons.inj htail).1).2
    | cons first between => exact absurd (List.cons.inj htail).2 (hnot hlater).2
  · cases between with
    | nil => exact (Step.put.inj (List.cons.inj htail).1).2.symm
    | cons first between => exact absurd (List.cons.inj htail).2 (hnot hrest).1

/-- A step that neither puts the text in nor clears the memo leaves the last value what it was. -/
theorem LastPut.concat (h : LastPut steps text value later) (hclear : step ≠ .clear)
    (hput : step.putText? ≠ some text) :
    LastPut (steps ++ [step]) text value (later ++ [step]) := by
  obtain ⟨⟨earlier, rfl⟩, hnone, hlater⟩ := h
  refine ⟨⟨earlier, by simp⟩, by simpa [hnone] using hclear.symm, ?_⟩
  rw [putTexts_append, List.mem_append, not_or]
  refine ⟨hlater, ?_⟩
  simpa [putTexts] using hput

theorem lastPut_concat_put (steps : List (Step α)) (text : String) (value : α) :
    LastPut (steps ++ [.put text value]) text value [] :=
  ⟨⟨steps, rfl⟩, by simp, by simp [putTexts]⟩

end

/-! ### What a memo has -/

def texts (memo : Memo κ α) : List String :=
  memo.entries.map Entry.text

/-- What a memo that was empty has after some steps. -/
structure HoldsLatest (keyOf : String → κ) (capacity : Nat) (steps : List (Step α))
    (memo : Memo κ α) : Prop where
  keyOf_eq : memo.keyOf = keyOf
  capacity_eq : memo.capacity = capacity
  key_eq : ∀ entry ∈ memo.entries, entry.key = keyOf entry.text
  latestUsed : LatestUsed capacity (putTexts (sinceClear steps)) memo.texts
  lastPut : ∀ entry ∈ memo.entries, ∃ later, LastPut steps entry.text entry.value later

section

variable [DecidableEq κ] {keyOf : String → κ} {capacity : Nat} {steps : List (Step α)}
  {memo : Memo κ α}

/-- Under keys that tell texts apart only the text itself gives way to its new value. -/
theorem texts_put (hkeys : Function.Injective memo.keyOf)
    (hentries : ∀ entry ∈ memo.entries, entry.key = memo.keyOf entry.text) (text : String)
    (value : α) :
    (memo.put text value).texts =
      (memo.texts.filter (· != text) ++ [text]).drop
        ((memo.texts.filter (· != text) ++ [text]).length - memo.capacity) := by
  have hkept : memo.entries.filter (fun entry => entry.key ≠ memo.keyOf text) =
      memo.entries.filter (fun entry => entry.text != text) := by
    refine List.filter_congr fun entry hentry => ?_
    by_cases hsame : entry.text = text
    · simp [hentries entry hentry, hsame]
    · simp [hentries entry hentry, hsame, hkeys.ne hsame]
  have htexts : memo.texts.filter (· != text) =
      (memo.entries.filter fun entry => entry.text != text).map Entry.text := by
    rw [texts, List.filter_map]
    rfl
  simp only [texts, put, hkept] at htexts ⊢
  rw [List.map_drop, List.map_append, htexts]
  simp

omit [DecidableEq κ] in
theorem holdsLatest_empty (keyOf : String → κ) (capacity : Nat) :
    HoldsLatest keyOf capacity [] (empty keyOf capacity : Memo κ α) where
  keyOf_eq := rfl
  capacity_eq := rfl
  key_eq _ hentry := by simp [empty] at hentry
  latestUsed := ⟨List.nil_suffix, Nat.zero_le _, .inr rfl⟩
  lastPut _ hentry := by simp [empty] at hentry

theorem HoldsLatest.put (h : HoldsLatest keyOf capacity steps memo)
    (hkeys : Function.Injective keyOf) (text : String) (value : α) :
    HoldsLatest keyOf capacity (steps ++ [.put text value]) (memo.put text value) := by
  obtain ⟨rfl, rfl, hentries, hlatest, hlast⟩ := h
  refine ⟨rfl, rfl, fun entry hentry => ?_, ?_, fun entry hentry => ?_⟩
  · rcases mem_of_mem_put hentry with ⟨hold, -⟩ | rfl
    · exact hentries entry hold
    · rfl
  · rw [sinceClear_concat, texts_put hkeys hentries]
    simpa [Step.isClear, putTexts, Step.putText?] using hlatest.use text
  · rcases mem_of_mem_put hentry with ⟨hold, hkey⟩ | rfl
    · obtain ⟨later, hput⟩ := hlast entry hold
      refine ⟨_, hput.concat (by simp) fun hsame => hkey ?_⟩
      rw [hentries entry hold, ← Option.some.inj hsame]
    · exact ⟨[], lastPut_concat_put steps text value⟩

omit [DecidableEq κ] in
theorem HoldsLatest.get (h : HoldsLatest keyOf capacity steps memo) (text : String) :
    HoldsLatest keyOf capacity (steps ++ [.get text]) memo := by
  obtain ⟨hkeyOf, hcapacity, hentries, hlatest, hlast⟩ := h
  refine ⟨hkeyOf, hcapacity, hentries, ?_, fun entry hentry => ?_⟩
  · have hsame : putTexts (sinceClear (steps ++ [.get text])) = putTexts (sinceClear steps) := by
      rw [sinceClear_concat]
      simp [Step.isClear, putTexts, Step.putText?]
    exact hsame ▸ hlatest
  · obtain ⟨later, hput⟩ := hlast entry hentry
    exact ⟨_, hput.concat (by simp) (by simp [Step.putText?])⟩

omit [DecidableEq κ] in
theorem HoldsLatest.clear (h : HoldsLatest keyOf capacity steps memo) :
    HoldsLatest keyOf capacity (steps ++ [.clear]) memo.clear where
  keyOf_eq := h.keyOf_eq
  capacity_eq := h.capacity_eq
  key_eq _ hentry := nomatch hentry
  latestUsed := by
    rw [sinceClear_concat]
    exact ⟨List.nil_suffix, Nat.zero_le _, .inr rfl⟩
  lastPut _ hentry := nomatch hentry

theorem holdsLatest_after (hkeys : Function.Injective keyOf) (capacity : Nat)
    (steps : List (Step α)) :
    HoldsLatest keyOf capacity steps ((empty keyOf capacity).after steps) := by
  induction steps using List.reverseRecOn with
  | nil => exact holdsLatest_empty keyOf capacity
  | append_singleton steps step ih =>
      rw [after_concat]
      cases step with
      | put text value => exact ih.put hkeys text value
      | get text => exact ih.get text
      | clear => exact ih.clear

/-- A text is found if there is an entry for it, with the value of that entry. -/
theorem HoldsLatest.get?_eq_some_iff (h : HoldsLatest keyOf capacity steps memo)
    (hkeys : Function.Injective keyOf) {text : String} {value : α} :
    memo.get? text = some value ↔ memo.Holds text value := by
  refine get?_eq_some_iff_holds (h.keyOf_eq ▸ h.key_eq) ?_
  have hmap : memo.entries.map Entry.key = memo.texts.map keyOf := by
    rw [texts, List.map_map]
    exact List.map_congr_left h.key_eq
  rw [hmap]
  exact h.latestUsed.nodup.map hkeys

end

/-- **A memo keeps what was put in last.** After any steps of a memo that was empty, under keys
that tell all texts apart, a text is found if it was put in, nothing was cleared since, and fewer
other texts than there is room for were put in since, and what is found is the value that it was
last put in with. Reading makes no difference, and there are as many entries as texts put in since
the last clearing, unless there is not room for all of them. -/
theorem keeps_latest_puts [DecidableEq κ] {keyOf : String → κ} (hkeys : Function.Injective keyOf)
    (capacity : Nat) (steps : List (Step α)) :
    let memo := (empty keyOf capacity).after steps
    (∀ text value, memo.get? text = some value ↔
      ∃ later, LastPut steps text value later ∧ (putTexts later).toFinset.card < capacity) ∧
    (empty keyOf capacity).after (steps.filter fun step => !step.isGet) = memo ∧
    memo.size = min capacity (putTexts (sinceClear steps)).toFinset.card := by
  intro memo
  have hholds := holdsLatest_after hkeys capacity steps
  have hroom : ∀ {text value later}, LastPut steps text value later →
      (text ∈ memo.texts ↔ (putTexts later).toFinset.card < capacity) := by
    intro text value later hput
    obtain ⟨hmem, hsince⟩ := hput.usedSince_eq
    rw [hholds.latestUsed.mem_iff, hsince, List.toFinset_reverse, and_iff_right hmem]
  refine ⟨fun text value => ?_, after_filter_isGet _ steps, ?_⟩
  · rw [hholds.get?_eq_some_iff hkeys]
    constructor
    · rintro ⟨entry, hentry, rfl, rfl⟩
      obtain ⟨later, hput⟩ := hholds.lastPut entry hentry
      exact ⟨later, hput, (hroom hput).mp (List.mem_map_of_mem hentry)⟩
    · rintro ⟨later, hput, hcard⟩
      obtain ⟨entry, hentry, htext⟩ := List.mem_map.mp ((hroom hput).mpr hcard)
      obtain ⟨rest, hlast⟩ := hholds.lastPut entry hentry
      exact ⟨entry, hentry, htext, ((htext ▸ hlast).unique hput)⟩
  · rw [← hholds.latestUsed.length_eq, texts, List.length_map]
    rfl

/-- Reading a text does not keep it: of two texts the older one gives way although it was read. -/
theorem older_text_gives_way :
    Function.Injective (id : String → String) ∧
      let memo := (empty id 1).after [.put "people" 1, .get "people", .put "films" 2]
      memo.get? "films" = some 2 ∧ memo.get? "people" = none ∧ memo.size = 1 := by
  have hkeys : Function.Injective (id : String → String) := Function.injective_id
  obtain ⟨hget, -, hsize⟩ :=
    keeps_latest_puts hkeys 1 [.put "people" (1 : Nat), .get "people", .put "films" 2]
  refine ⟨hkeys, (hget "films" 2).mpr ⟨[], ⟨⟨[_, _], rfl⟩, by decide, by decide⟩, by decide⟩,
    by decide, ?_⟩
  rw [hsize]
  decide

end Memo

end OperationLibrary
