import Mathlib.Data.List.Basic
import OperationLibrary.Client.EtagCache

/-!
What the operations of a cache do to its entries, taken as a set of keys with their values: reading
changes nothing but the order, and setting a key adds its entry and loses no entry but an older one
of that key and, without room for a new key, the first one.
-/

namespace OperationLibrary.EtagCache

variable {α : Type} {cache next : EtagCache α} {key etag : String} {answer : α} {entry : Entry α}

/-- No two entries have the same key. -/
def Distinct (cache : EtagCache α) : Prop :=
  (cache.entries.map Entry.key).Nodup

theorem distinct_empty (capacity : Nat) : (empty capacity : EtagCache α).Distinct :=
  List.nodup_nil

theorem mem_of_find? (h : cache.find? key = some entry) : entry ∈ cache.entries :=
  List.mem_of_find?_eq_some h

theorem key_of_find? (h : cache.find? key = some entry) : entry.key = key := by
  simpa using List.find?_some h

theorem find?_eq_none_iff : cache.find? key = none ↔ ∀ entry ∈ cache.entries, entry.key ≠ key := by
  simp [find?]

theorem mem_others : entry ∈ cache.others key ↔ entry ∈ cache.entries ∧ entry.key ≠ key := by
  simp [others]

/-! ### Reading -/

@[simp] theorem fst_get : (cache.get key).1 = cache.find? key := by
  unfold get
  split <;> simp_all

@[simp] theorem capacity_get : (cache.get key).2.capacity = cache.capacity := by
  unfold get
  split <;> rfl

/-- Moving the entry of a key to the end keeps all entries. -/
theorem Distinct.others_append_perm (h : cache.Distinct) (hfind : cache.find? key = some entry) :
    (cache.others key ++ [entry]).Perm cache.entries := by
  obtain ⟨capacity, entries⟩ := cache
  unfold Distinct at h
  unfold find? at hfind
  unfold others
  induction entries with
  | nil => simp at hfind
  | cons first rest ih =>
      rw [List.map_cons, List.nodup_cons] at h
      by_cases hkey : first.key = key
      · have hfirst : first = entry := by simpa [hkey] using hfind
        have hrest : rest.filter (·.key != key) = rest := by
          refine List.filter_eq_self.mpr fun other hother => ?_
          have hne : other.key ≠ key := fun hsame =>
            h.1 (List.mem_map.mpr ⟨other, hother, hsame.trans hkey.symm⟩)
          simpa using hne
        rw [List.filter_cons_of_neg (by simp [hkey]), hrest, ← hfirst]
        exact List.perm_append_singleton first rest
      · rw [List.filter_cons_of_pos (by simpa using hkey), List.cons_append]
        exact (ih h.2 (by simpa [hkey] using hfind)).cons first

theorem Distinct.entries_get_perm (h : cache.Distinct) :
    (cache.get key).2.entries.Perm cache.entries := by
  unfold get
  split
  case h_1 entry hfind => exact h.others_append_perm hfind
  case h_2 => exact .refl _

theorem Distinct.get (h : cache.Distinct) : (cache.get key).2.Distinct :=
  (h.entries_get_perm.map Entry.key).nodup_iff.mpr h

/-! ### Setting -/

/-- A cache with room for one entry takes every entry. -/
theorem exists_set? (key etag : String) (answer : α) (hroom : 0 < cache.capacity) :
    ∃ next, cache.set? key etag answer = some next := by
  unfold set?
  split
  case isTrue => exact ⟨_, rfl⟩
  case isFalse =>
    split
    case isTrue => exact ⟨_, rfl⟩
    case isFalse hfull =>
      cases hentries : cache.entries with
      | nil => exact absurd (by simpa [size, hentries] using hroom) hfull
      | cons first rest => exact ⟨_, rfl⟩

/-- What setting a key leaves: entries of other keys that were there, and behind them the new
entry. -/
theorem entries_of_set? (h : cache.set? key etag answer = some next) :
    ∃ kept, next.entries = kept ++ [⟨key, etag, answer⟩] ∧ kept.Sublist cache.entries ∧
      (∀ entry ∈ kept, entry.key ≠ key) ∧ next.capacity = cache.capacity ∧
      (kept.length < cache.capacity ∨ kept.length < cache.size) := by
  unfold set? at h
  split at h
  case isTrue hknown =>
    obtain ⟨entry, hentry⟩ := Option.isSome_iff_exists.mp hknown
    obtain rfl := Option.some.inj h
    refine ⟨cache.others key, rfl, List.filter_sublist, fun _ h => (mem_others.mp h).2, rfl, ?_⟩
    -- the entry that is set anew has left its place
    have hloses : cache.others key ≠ cache.entries := fun hsame =>
      (mem_others.mp (hsame ▸ mem_of_find? hentry)).2 (key_of_find? hentry)
    have hsub : (cache.others key).Sublist cache.entries := List.filter_sublist
    exact .inr (Nat.lt_of_le_of_ne hsub.length_le fun hlength => hloses (hsub.eq_of_length hlength))
  case isFalse hunknown =>
    have hnone := find?_eq_none_iff.mp (Option.not_isSome_iff_eq_none.mp hunknown)
    split at h
    case isTrue hroom =>
      obtain rfl := Option.some.inj h
      exact ⟨cache.entries, rfl, .refl _, hnone, rfl, .inl hroom⟩
    case isFalse =>
      split at h
      case h_1 => simp at h
      case h_2 first rest hentries =>
        obtain rfl := Option.some.inj h
        refine ⟨rest, rfl, by simp [hentries], fun entry hmem => ?_, rfl, .inr ?_⟩
        · exact hnone entry (hentries ▸ List.mem_cons_of_mem _ hmem)
        · simp [size, hentries]

theorem mem_of_set? (h : cache.set? key etag answer = some next) (hmem : entry ∈ next.entries) :
    entry = ⟨key, etag, answer⟩ ∨ entry ∈ cache.entries ∧ entry.key ≠ key := by
  obtain ⟨kept, hentries, hsub, hkeys, -⟩ := entries_of_set? h
  rw [hentries, List.mem_append, List.mem_singleton] at hmem
  exact hmem.symm.imp_right fun hkept => ⟨hsub.subset hkept, hkeys entry hkept⟩

theorem capacity_of_set? (h : cache.set? key etag answer = some next) :
    next.capacity = cache.capacity := by
  obtain ⟨kept, -, -, -, hcapacity, -⟩ := entries_of_set? h
  exact hcapacity

theorem Distinct.set? (hdistinct : cache.Distinct) (h : cache.set? key etag answer = some next) :
    next.Distinct := by
  obtain ⟨kept, hentries, hsub, hkeys, -⟩ := entries_of_set? h
  have hkept : (kept.map Entry.key).Nodup := hdistinct.sublist (hsub.map _)
  have hfresh : key ∉ kept.map Entry.key := by
    rintro hmem
    obtain ⟨entry, hentry, hkey⟩ := List.mem_map.mp hmem
    exact hkeys entry hentry hkey
  rw [Distinct, hentries, List.map_append, List.map_singleton]
  exact (List.perm_append_singleton key _).nodup_iff.mpr (List.nodup_cons.mpr ⟨hfresh, hkept⟩)

/-- A cache within its capacity stays within it. -/
theorem size_of_set?_le (h : cache.set? key etag answer = some next)
    (hsize : cache.size ≤ cache.capacity) : next.size ≤ next.capacity := by
  obtain ⟨kept, hentries, -, -, hcapacity, hlength⟩ := entries_of_set? h
  rw [size, hentries, List.length_append, List.length_singleton, hcapacity]
  omega

end OperationLibrary.EtagCache
