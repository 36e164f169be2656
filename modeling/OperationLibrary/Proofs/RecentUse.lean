import Mathlib.Data.Finset.Card
import Mathlib.Data.List.Induction
import OperationLibrary.Proofs.CacheEntries

/-!
What a cache has after any steps. A step uses a key if it sets the key, or reads it and finds an
entry. The keys of a cache are those with the latest uses, in the order of these uses and as many as
there is room for: whether reading is a use depends on what is there, but beyond the uses nothing
counts.
-/

namespace OperationLibrary

/-! ### Keys in the order of their last uses -/

/-- The keys that are used after the last use of a key, the latest one first. -/
def usedSince (key : String) (uses : List String) : List String :=
  uses.reverse.takeWhile (· != key)

theorem dedup_concat (uses : List String) (key : String) :
    (uses ++ [key]).dedup = uses.dedup.filter (· != key) ++ [key] := by
  induction uses with
  | nil => rfl
  | cons first uses ih =>
      rw [List.cons_append]
      by_cases hagain : first ∈ uses
      · rw [List.dedup_cons_of_mem (List.mem_append_left _ hagain), List.dedup_cons_of_mem hagain,
          ih]
      · rw [List.dedup_cons_of_notMem hagain]
        by_cases hkey : first = key
        · rw [List.dedup_cons_of_mem (by simp [hkey]), List.filter_cons_of_neg (by simp [hkey]), ih]
        · rw [List.dedup_cons_of_notMem (by simp [hagain, hkey]),
            List.filter_cons_of_pos (by simpa using hkey), ih, List.cons_append]

/-- The keys used since the last use of a key stand behind it in the order of last uses. -/
theorem exists_since {uses : List String} {key : String} (h : key ∈ uses) :
    ∃ since : List String, (usedSince key uses).toFinset.card = since.length ∧ key ∉ since ∧
      key :: since <:+ uses.dedup := by
  obtain ⟨after, before, hsplit, hafter⟩ := List.eq_append_cons_of_mem (List.mem_reverse.mpr h)
  have huses : uses = before.reverse ++ key :: after.reverse := by
    rw [← uses.reverse_reverse, hsplit]
    simp
  have hsince : usedSince key uses = after := by
    unfold usedSince
    rw [hsplit, List.takeWhile_append_of_pos fun other hother => ?_]
    · simp
    · have hne : other ≠ key := fun hsame => hafter (hsame ▸ hother)
      simpa using hne
  have hnew : key ∉ after.reverse := mt List.mem_reverse.mp hafter
  refine ⟨after.reverse.dedup, ?_, mt List.mem_dedup.mp hnew, ?_⟩
  · rw [hsince, ← List.toFinset_reverse, List.card_toFinset]
  · rw [huses, List.dedup_append, ← List.dedup_cons_of_notMem hnew]
    exact List.suffix_union_right _ _

/-- Keys stand in the order of their last uses, and those that are missing were last used before all
that are there; if any are missing there is no room for another one. -/
structure LatestUsed (capacity : Nat) (uses keys : List String) : Prop where
  suffix : keys <:+ uses.dedup
  length_le : keys.length ≤ capacity
  full : keys.length = capacity ∨ keys = uses.dedup

namespace LatestUsed

variable {capacity : Nat} {uses keys : List String} {key : String}

theorem nodup (h : LatestUsed capacity uses keys) : keys.Nodup :=
  uses.nodup_dedup.sublist h.suffix.sublist

/-- Using a key that is there puts it behind the others. -/
theorem use_known (h : LatestUsed capacity uses keys) (hkey : key ∈ keys) :
    LatestUsed capacity (uses ++ [key]) (keys.filter (· != key) ++ [key]) := by
  have hperm : (keys.filter (· != key) ++ [key]).Perm keys := by
    rw [← h.nodup.erase_eq_filter]
    exact (List.perm_append_singleton key _).trans (List.perm_cons_erase hkey).symm
  refine ⟨?_, hperm.length_eq ▸ h.length_le, ?_⟩
  · obtain ⟨front, hfront⟩ := h.suffix.filter (· != key)
    exact ⟨front, by rw [dedup_concat, ← List.append_assoc, hfront]⟩
  · rcases h.full with hfull | hall
    · exact .inl (hperm.length_eq.trans hfull)
    · exact .inr (by rw [dedup_concat, ← hall])

/-- While there is room all keys that were ever used are there. -/
theorem eq_dedup (h : LatestUsed capacity uses keys) (hroom : keys.length < capacity) :
    keys = uses.dedup :=
  h.full.resolve_left hroom.ne

/-- Using a new key puts it behind the keys that are there. -/
theorem use_new_room (h : LatestUsed capacity uses keys) (hkey : key ∉ keys)
    (hroom : keys.length < capacity) : LatestUsed capacity (uses ++ [key]) (keys ++ [key]) := by
  have hkeys : (uses ++ [key]).dedup = keys ++ [key] := by
    rw [dedup_concat, ← h.eq_dedup hroom, ← h.nodup.erase_eq_filter, List.erase_of_not_mem hkey]
  refine ⟨hkeys ▸ List.suffix_rfl, ?_, .inr hkeys.symm⟩
  rw [List.length_append, List.length_singleton]
  omega

/-- Without room the key that was used first makes way. -/
theorem use_new_full {first : String} {rest : List String}
    (h : LatestUsed capacity uses (first :: rest)) (hkey : key ∉ first :: rest)
    (hfull : (first :: rest).length = capacity) :
    LatestUsed capacity (uses ++ [key]) (rest ++ [key]) := by
  refine ⟨?_, by simpa using hfull.le, .inl (by simpa using hfull)⟩
  have hrest : rest.filter (· != key) = rest := by
    refine List.filter_eq_self.mpr fun other hother => ?_
    have hne : other ≠ key := fun hsame => hkey (hsame ▸ List.mem_cons_of_mem first hother)
    simpa using hne
  obtain ⟨front, hfront⟩ := ((List.suffix_cons first rest).trans h.suffix).filter (· != key)
  rw [hrest] at hfront
  exact ⟨front, by rw [dedup_concat, ← List.append_assoc, hfront]⟩

/-- A key is there if it was used and there is room for it beside the keys that were used since. -/
theorem mem_iff (h : LatestUsed capacity uses keys) :
    key ∈ keys ↔ key ∈ uses ∧ (usedSince key uses).toFinset.card < capacity := by
  by_cases hused : key ∈ uses
  case neg =>
    have hmissing : key ∉ keys := fun hmem => hused (List.mem_dedup.mp (h.suffix.subset hmem))
    simp [hused, hmissing]
  obtain ⟨since, hcard, hnew, hsuffix⟩ := exists_since hused
  rw [hcard, and_iff_right hused]
  -- of two ends of the keys in the order of their last uses one is an end of the other
  rcases List.suffix_or_suffix_of_suffix hsuffix h.suffix with hlong | hshort
  · have hlength := hlong.length_le.trans h.length_le
    rw [List.length_cons] at hlength
    exact iff_of_true (hlong.subset List.mem_cons_self) hlength
  rcases List.suffix_cons_iff.mp hshort with rfl | hshort
  · exact iff_of_true List.mem_cons_self h.length_le
  have hmissing : key ∉ keys := fun hmem => hnew (hshort.subset hmem)
  rcases h.full with hfull | hall
  · exact iff_of_false hmissing (Nat.not_lt_of_le (hfull ▸ hshort.length_le))
  · exact absurd (hall ▸ List.mem_dedup.mpr hused) hmissing

end LatestUsed

namespace EtagCache

variable {α : Type}

/-! ### Steps -/

inductive Step (α : Type) where
  | get (key : String)
  | set (key etag : String) (answer : α)
  deriving DecidableEq

/-- The cache after a step, if it has the room that the step needs. -/
def perform? (cache : EtagCache α) : Step α → Option (EtagCache α)
  | .get key => some (cache.get key).2
  | .set key etag answer => cache.set? key etag answer

def after? (cache : EtagCache α) (steps : List (Step α)) : Option (EtagCache α) :=
  steps.foldlM perform? cache

/-- The key that a step uses, if any: looking for a key that is not there does not use it. -/
def used (cache : EtagCache α) : Step α → List String
  | .get key => if (cache.get key).1.isSome then [key] else []
  | .set key _ _ => [key]

/-- The keys that are used step after step. -/
def uses (cache : EtagCache α) : List (Step α) → List String
  | [] => []
  | step :: steps => cache.used step ++ (cache.perform? step).elim [] (·.uses steps)

section

variable {cache next : EtagCache α} {steps : List (Step α)} {step : Step α}
  {key etag : String} {answer : α} {entry : Entry α} {capacity : Nat} {history : List String}

theorem after?_concat :
    cache.after? (steps ++ [step]) = (cache.after? steps).bind (·.perform? step) := by
  simp [after?]

theorem uses_concat (h : cache.after? steps = some next) :
    cache.uses (steps ++ [step]) = cache.uses steps ++ next.used step := by
  induction steps generalizing cache with
  | nil =>
      obtain rfl := Option.some.inj h
      cases hstep : cache.perform? step <;> simp [uses, hstep]
  | cons first steps ih =>
      obtain ⟨second, hfirst, hrest⟩ := Option.bind_eq_some_iff.mp h
      rw [List.cons_append, uses, uses, hfirst, Option.elim_some, Option.elim_some, ih hrest,
        List.append_assoc]

/-! ### The keys that are there -/

def keys (cache : EtagCache α) : List String :=
  cache.entries.map Entry.key

theorem isSome_find?_iff : (cache.find? key).isSome ↔ key ∈ cache.keys := by
  simp [find?, keys]

@[simp] theorem length_keys : cache.keys.length = cache.size :=
  List.length_map _

theorem keys_others (cache : EtagCache α) (key : String) :
    (cache.others key).map Entry.key = cache.keys.filter (· != key) := by
  rw [keys, List.filter_map]
  rfl

/-- Reading a key that is there uses it. -/
theorem latestUsed_get (h : LatestUsed capacity history cache.keys)
    (hfind : cache.find? key = some entry) :
    LatestUsed capacity (history ++ [key]) (cache.get key).2.keys := by
  have hkeys : (cache.get key).2.keys = cache.keys.filter (· != key) ++ [key] := by
    simp only [get, hfind]
    rw [keys, List.map_append, keys_others, List.map_singleton, key_of_find? hfind]
  rw [hkeys]
  exact h.use_known (isSome_find?_iff.mp (by simp [hfind]))

/-- Setting a key uses it. -/
theorem latestUsed_set? (h : LatestUsed cache.capacity history cache.keys)
    (hset : cache.set? key etag answer = some next) :
    LatestUsed cache.capacity (history ++ [key]) next.keys := by
  unfold set? at hset
  split at hset
  case isTrue hknown =>
    obtain rfl := Option.some.inj hset
    rw [keys, List.map_append, keys_others]
    exact h.use_known (isSome_find?_iff.mp hknown)
  case isFalse hunknown =>
    rw [isSome_find?_iff] at hunknown
    split at hset
    case isTrue hroom =>
      obtain rfl := Option.some.inj hset
      rw [keys, List.map_append]
      exact h.use_new_room hunknown (length_keys ▸ hroom)
    case isFalse hfull =>
      split at hset
      case h_1 => simp at hset
      case h_2 first rest hentries =>
        obtain rfl := Option.some.inj hset
        have hkeys : cache.keys = first.key :: rest.map Entry.key := by rw [keys, hentries]; rfl
        have hlength := h.length_le
        rw [length_keys] at hlength
        -- there is no room left, and there are never more keys than room
        have heq : cache.keys.length = cache.capacity := by
          rw [length_keys]
          omega
        rw [hkeys] at h hunknown heq
        rw [keys, List.map_append]
        exact h.use_new_full hunknown heq

/-! ### The entries that are there -/

/-- Some step sets the key. -/
def IsSet (steps : List (Step α)) (key : String) : Prop :=
  ∃ etag answer, .set key etag answer ∈ steps

/-- The entry is what the last of the steps that set its key has set. -/
def LastSet (steps : List (Step α)) (entry : Entry α) : Prop :=
  ∃ earlier later, steps = earlier ++ .set entry.key entry.etag entry.answer :: later ∧
    ¬ IsSet later entry.key

theorem isSet_concat_set {other : String} :
    IsSet (steps ++ [.set key etag answer]) other ↔ IsSet steps other ∨ other = key := by
  unfold IsSet
  constructor
  · rintro ⟨otherTag, otherAnswer, hmem⟩
    rcases List.mem_append.mp hmem with hmem | hmem
    · exact .inl ⟨otherTag, otherAnswer, hmem⟩
    · exact .inr (Step.set.inj (List.mem_singleton.mp hmem)).1
  · rintro (⟨otherTag, otherAnswer, hmem⟩ | rfl)
    · exact ⟨otherTag, otherAnswer, List.mem_append_left _ hmem⟩
    · exact ⟨etag, answer, List.mem_concat_self⟩

@[simp] theorem isSet_concat_get {other : String} :
    IsSet (steps ++ [.get key]) other ↔ IsSet steps other := by
  simp [IsSet]

theorem LastSet.concat (h : LastSet steps entry)
    (hstep : ∀ etag answer, step ≠ .set entry.key etag answer) :
    LastSet (steps ++ [step]) entry := by
  obtain ⟨earlier, later, rfl, hlater⟩ := h
  refine ⟨earlier, later ++ [step], by simp, ?_⟩
  rintro ⟨etag, answer, hmem⟩
  rcases List.mem_append.mp hmem with hmem | hmem
  · exact hlater ⟨etag, answer, hmem⟩
  · exact hstep etag answer (List.mem_singleton.mp hmem).symm

/-- What a cache that was empty holds after some steps. -/
structure Holds (capacity : Nat) (steps : List (Step α)) (cache : EtagCache α) : Prop where
  capacity_eq : cache.capacity = capacity
  latestUsed : LatestUsed capacity ((empty capacity).uses steps) cache.keys
  mem_uses_iff : ∀ key, key ∈ (empty capacity).uses steps ↔ IsSet steps key
  lastSet : ∀ entry ∈ cache.entries, LastSet steps entry

theorem holds_empty (capacity : Nat) : Holds capacity [] (empty capacity : EtagCache α) where
  capacity_eq := rfl
  latestUsed := ⟨List.nil_suffix, Nat.zero_le _, .inr rfl⟩
  mem_uses_iff key := by simp [uses, IsSet]
  lastSet entry hmem := by simp [empty] at hmem

theorem Holds.get (h : Holds capacity steps cache)
    (hafter : (empty capacity).after? steps = some cache) (key : String) :
    Holds capacity (steps ++ [.get key]) (cache.get key).2 := by
  have hlast : ∀ entry ∈ cache.entries, LastSet (steps ++ [.get key]) entry :=
    fun entry hmem => (h.lastSet entry hmem).concat (by simp)
  cases hfind : cache.find? key with
  | none =>
      have huses : (empty capacity).uses (steps ++ [.get key]) = (empty capacity).uses steps := by
        simp [uses_concat hafter, used, hfind]
      have hsame : (cache.get key).2 = cache := by simp only [EtagCache.get, hfind]
      rw [hsame]
      exact ⟨h.capacity_eq, huses ▸ h.latestUsed,
        fun other => by rw [huses, h.mem_uses_iff, isSet_concat_get], hlast⟩
  | some entry =>
      have huses : (empty capacity).uses (steps ++ [.get key]) =
          (empty capacity).uses steps ++ [key] := by
        simp [uses_concat hafter, used, hfind]
      have hmem : key ∈ (empty capacity).uses steps :=
        (h.latestUsed.mem_iff.mp (isSome_find?_iff.mp (by simp [hfind]))).1
      refine ⟨capacity_get.trans h.capacity_eq, huses ▸ latestUsed_get h.latestUsed hfind,
        fun other => ?_, fun other hother => hlast other ?_⟩
      · rw [huses, isSet_concat_get, ← h.mem_uses_iff]
        simp only [List.mem_append, List.mem_singleton, or_iff_left_iff_imp]
        rintro rfl
        exact hmem
      · exact (Distinct.entries_get_perm h.latestUsed.nodup).subset hother

theorem Holds.set? (h : Holds capacity steps cache)
    (hafter : (empty capacity).after? steps = some cache)
    (hset : cache.set? key etag answer = some next) :
    Holds capacity (steps ++ [.set key etag answer]) next := by
  have huses : (empty capacity).uses (steps ++ [.set key etag answer]) =
      (empty capacity).uses steps ++ [key] := uses_concat hafter
  obtain rfl := h.capacity_eq
  refine ⟨capacity_of_set? hset, huses ▸ latestUsed_set? h.latestUsed hset, fun other => ?_,
    fun entry hentry => ?_⟩
  · rw [huses, isSet_concat_set, ← h.mem_uses_iff, List.mem_append, List.mem_singleton]
  · rcases mem_of_set? hset hentry with rfl | ⟨hentry, hkey⟩
    · exact ⟨steps, [], rfl, by simp [IsSet]⟩
    · exact (h.lastSet entry hentry).concat fun _ _ hsame => hkey (Step.set.inj hsame).1.symm

/-- A cache with room for one entry takes any steps. -/
theorem exists_holds (hroom : 0 < capacity) (steps : List (Step α)) :
    ∃ cache, (empty capacity).after? steps = some cache ∧ Holds capacity steps cache := by
  induction steps using List.reverseRecOn with
  | nil => exact ⟨_, rfl, holds_empty capacity⟩
  | append_singleton steps step ih =>
      obtain ⟨cache, hafter, hholds⟩ := ih
      rw [after?_concat, hafter, Option.bind_some]
      cases step with
      | get key => exact ⟨_, rfl, hholds.get hafter key⟩
      | set key etag answer =>
          obtain ⟨next, hset⟩ := exists_set? key etag answer (hholds.capacity_eq ▸ hroom)
          exact ⟨next, hset, hholds.set? hafter hset⟩

/-! ### Overwriting -/

theorem find?_others {other : String} (h : other ≠ key) :
    (cache.others key).find? (·.key == other) = cache.find? other := by
  rw [others, List.find?_filter, find?]
  refine congrArg (cache.entries.find? ·) (funext fun entry => ?_)
  by_cases hkey : entry.key = other <;> simp [hkey, h]

/-- Setting a key that is there gives up no entry. -/
theorem keeps_entries_of_set?_known (hdistinct : cache.Distinct)
    (hknown : (cache.find? key).isSome) (hset : cache.set? key etag answer = some next) :
    next.size = cache.size ∧ ∀ other, other ≠ key → next.find? other = cache.find? other := by
  obtain ⟨old, hold⟩ := Option.isSome_iff_exists.mp hknown
  rw [EtagCache.set?, if_pos hknown] at hset
  obtain rfl := Option.some.inj hset
  constructor
  · simpa [size] using (hdistinct.others_append_perm hold).length_eq
  · intro other hother
    rw [find?, List.find?_append, find?_others hother]
    simp [hother.symm]

end

/-- **A cache keeps what was used most recently.** After any steps a cache with some room has no
more entries than there is room for. It has a key if that was set and fewer other keys than there is
room for were used after its last use, and the entry of a key is the one that it was last set to.
Setting a key that is there loses no other one. -/
theorem holds_most_recently_used {capacity : Nat} (hroom : 0 < capacity) (steps : List (Step α)) :
    ∃ cache, (empty capacity).after? steps = some cache ∧ cache.size ≤ capacity ∧
      (∀ key, (cache.find? key).isSome ↔ IsSet steps key ∧
        (usedSince key ((empty capacity).uses steps)).toFinset.card < capacity) ∧
      (∀ key entry, cache.find? key = some entry → entry.key = key ∧ LastSet steps entry) ∧
      ∀ key etag answer, (cache.find? key).isSome → ∃ next,
        cache.set? key etag answer = some next ∧ next.size = cache.size ∧
          ∀ other, other ≠ key → next.find? other = cache.find? other := by
  obtain ⟨cache, hafter, hholds⟩ := exists_holds hroom steps
  refine ⟨cache, hafter, length_keys ▸ hholds.latestUsed.length_le, fun key => ?_,
    fun key entry hfind => ⟨key_of_find? hfind, hholds.lastSet entry (mem_of_find? hfind)⟩,
    fun key etag answer hknown => ?_⟩
  · rw [isSome_find?_iff, hholds.latestUsed.mem_iff, hholds.mem_uses_iff]
  · obtain ⟨next, hset⟩ := exists_set? key etag answer (hholds.capacity_eq ▸ hroom)
    exact ⟨next, hset, keeps_entries_of_set?_known hholds.latestUsed.nodup hknown hset⟩

/-- Reading an answer keeps it longer than one that was set later. -/
theorem keeps_answer_read_again :
    0 < 2 ∧ ∃ cache : EtagCache Nat,
      (empty 2).after? [.set "people" "v1" 1, .set "films" "v1" 2, .get "people",
        .set "homes" "v1" 3, .get "films"] = some cache ∧
      (cache.find? "people").isSome ∧ ¬ (cache.find? "films").isSome := by
  obtain ⟨cache, hafter, -, hpresent, -, -⟩ := holds_most_recently_used (by decide : 0 < 2)
    [.set "people" "v1" 1, .set "films" "v1" 2, .get "people", .set "homes" "v1" 3, .get "films"]
  refine ⟨by decide, cache, hafter, ?_, fun hfilms => ?_⟩
  · exact (hpresent "people").mpr ⟨⟨"v1", 1, by decide⟩, by decide⟩
  · exact absurd ((hpresent "films").mp hfilms).2 (by decide)

end EtagCache

end OperationLibrary
