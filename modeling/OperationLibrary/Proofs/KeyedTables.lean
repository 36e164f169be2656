import Mathlib.Data.List.Induction
import Mathlib.Data.List.Nodup
import OperationLibrary.Keyed

/-!
Tables by keys. A table that is made of entries has every key once, in the place where the key comes
up first, and under it the last value that was entered.
-/

namespace OperationLibrary

namespace Keyed

variable {α : Type}

/-- The table has the last value of every key, in the order in which the keys come up first. -/
structure HoldsLatest (entries table : List (String × α)) : Prop where
  keys : table.map Prod.fst = (entries.map Prod.fst).eraseDups
  last : ∀ entry ∈ table, ∃ before after,
    entries = before ++ entry :: after ∧ entry.1 ∉ after.map Prod.fst

theorem mem_of_get? {key : String} {value : α} {table : List (String × α)}
    (h : get? key table = some value) : (key, value) ∈ table := by
  obtain ⟨before, after, rfl, -⟩ := List.lookup_eq_some_iff.mp h
  exact List.mem_append_right _ List.mem_cons_self

theorem contains_iff {key : String} {table : List (String × α)} :
    contains key table = true ↔ key ∈ table.map Prod.fst := by
  simp [contains]

theorem keys_set (key : String) (value : α) (table : List (String × α)) :
    (set key value table).map Prod.fst =
      table.map Prod.fst ++ if contains key table then [] else [key] := by
  rw [set]
  split
  · rw [List.map_map, List.append_nil]
    refine List.map_congr_left fun entry _ => ?_
    by_cases hkey : entry.1 = key <;> simp [hkey]
  · rw [List.map_append]
    rfl

theorem nodup_set (key : String) (value : α) {table : List (String × α)}
    (h : (table.map Prod.fst).Nodup) : ((set key value table).map Prod.fst).Nodup := by
  rw [keys_set]
  split
  · rwa [List.append_nil]
  · rename_i hfresh
    rw [← List.concat_eq_append]
    exact h.concat (mt contains_iff.mpr hfresh)

/-- A new key makes the table longer. -/
theorem length_set (key : String) (value : α) (table : List (String × α)) :
    (set key value table).length = table.length + if contains key table then 0 else 1 := by
  rw [← List.length_map (f := Prod.fst), keys_set, List.length_append, List.length_map]
  split <;> rfl

/-- Setting a key leaves the entries with other keys. -/
theorem eq_or_mem_of_mem_set {key : String} {value : α} {table : List (String × α)}
    {entry : String × α} (h : entry ∈ set key value table) :
    entry = (key, value) ∨ entry ∈ table ∧ entry.1 ≠ key := by
  rw [set] at h
  split at h
  · obtain ⟨known, hknown, rfl⟩ := List.mem_map.mp h
    by_cases hkey : known.1 = key <;> simp [hkey, hknown]
  · rename_i hfresh
    rcases List.mem_append.mp h with hmem | hmem
    · exact .inr ⟨hmem, fun hkey => hfresh (contains_iff.mpr (hkey ▸ List.mem_map_of_mem hmem))⟩
    · exact .inl (List.mem_singleton.mp hmem)

theorem HoldsLatest.set {entries table : List (String × α)} (h : HoldsLatest entries table)
    (key : String) (value : α) :
    HoldsLatest (entries ++ [(key, value)]) (set key value table) := by
  have hknown : contains key table = true ↔ key ∈ entries.map Prod.fst := by
    rw [contains_iff, h.keys, List.mem_eraseDups]
  constructor
  · rw [keys_set, h.keys, List.map_append, List.eraseDups_append]
    congr 1
    by_cases hmem : key ∈ entries.map Prod.fst
    · rw [if_pos (hknown.mpr hmem)]
      simp [List.removeAll, hmem]
    · rw [if_neg (mt hknown.mp hmem)]
      simp [List.removeAll, hmem, List.eraseDups_cons]
  · intro entry hentry
    rcases eq_or_mem_of_mem_set hentry with rfl | ⟨hold, hkey⟩
    · exact ⟨entries, [], rfl, by simp⟩
    · obtain ⟨before, after, rfl, hlast⟩ := h.last entry hold
      refine ⟨before, after ++ [(key, value)], by simp, ?_⟩
      rw [List.map_append, List.mem_append, not_or]
      exact ⟨hlast, by simpa using hkey⟩

theorem ofList_concat (entries : List (String × α)) (entry : String × α) :
    ofList (entries ++ [entry]) = set entry.1 entry.2 (ofList entries) := by
  simp [ofList]

theorem holdsLatest_ofList (entries : List (String × α)) :
    HoldsLatest entries (ofList entries) := by
  induction entries using List.reverseRecOn with
  | nil => exact ⟨rfl, by simp [ofList]⟩
  | append_singleton entries entry ih =>
      rw [ofList_concat]
      exact ih.set entry.1 entry.2

/-- Keys that are all different are entered in their order. -/
theorem ofList_eq_self {entries : List (String × α)} (hnodup : (entries.map Prod.fst).Nodup) :
    ofList entries = entries := by
  induction entries using List.reverseRecOn with
  | nil => rfl
  | append_singleton entries entry ih =>
      rw [List.map_append, List.nodup_append] at hnodup
      have hfresh : ¬ contains entry.1 entries = true := fun hknown =>
        hnodup.2.2 entry.1 (contains_iff.mp hknown) entry.1 (by simp) rfl
      rw [ofList_concat, ih hnodup.1, set, if_neg hfresh]

theorem mem_ofList {entries : List (String × α)} {entry : String × α}
    (h : entry ∈ ofList entries) : entry ∈ entries := by
  obtain ⟨before, after, rfl, -⟩ := (holdsLatest_ofList entries).last entry h
  exact List.mem_append_right _ List.mem_cons_self

theorem nodup_ofList (entries : List (String × α)) : ((ofList entries).map Prod.fst).Nodup := by
  induction entries using List.reverseRecOn with
  | nil => exact List.nodup_nil
  | append_singleton entries entry ih =>
      rw [ofList_concat]
      exact nodup_set entry.1 entry.2 ih

end Keyed

end OperationLibrary
