import Mathlib.Data.List.Sort
import Mathlib.Data.Prod.Lex
import Mathlib.Data.String.Basic
import OperationLibrary.Library.Function

/-!
Sorting by keys. Where no two entries have the same key, the sorted list is strictly ascending, and
it is the same for every order in which the entries come. The ids of annotated definitions are such
keys, and the names of the fragments that an operation needs.
-/

namespace OperationLibrary

/-! ### Lists sorted by a key -/

section

variable {α β : Type} [LinearOrder β] {key : α → β} {before : α → α → Bool} {xs ys : List α}

theorem key_before_trans (hbefore : ∀ x y, before x y = true ↔ key x ≤ key y) (x y z : α)
    (hxy : before x y = true) (hyz : before y z = true) : before x z = true := by
  rw [hbefore] at hxy hyz ⊢
  exact hxy.trans hyz

theorem key_before_total (hbefore : ∀ x y, before x y = true ↔ key x ≤ key y) (x y : α) :
    (before x y || before y x) = true := by
  rw [Bool.or_eq_true, hbefore, hbefore]
  exact le_total (key x) (key y)

/-- Sorting by an order that compares keys sorts the keys. -/
theorem pairwise_mergeSort_key (hbefore : ∀ x y, before x y = true ↔ key x ≤ key y) :
    (xs.mergeSort before).Pairwise fun x y => key x ≤ key y :=
  (List.pairwise_mergeSort (key_before_trans hbefore) (key_before_total hbefore) xs).imp
    fun h => (hbefore _ _).mp h

theorem pairwise_lt_mergeSort_key (hbefore : ∀ x y, before x y = true ↔ key x ≤ key y)
    (hnodup : (xs.map key).Nodup) :
    (xs.mergeSort before).Pairwise fun x y => key x < key y := by
  have hkeys : ((xs.mergeSort before).map key).Nodup :=
    ((List.mergeSort_perm xs before).map key).nodup_iff.mpr hnodup
  rw [List.Nodup, List.pairwise_map] at hkeys
  exact ((pairwise_mergeSort_key hbefore).and hkeys).imp fun ⟨hle, hne⟩ => lt_of_le_of_ne hle hne

/-- Parts of sorted lists, under different keys, are the same for every order of the whole. -/
theorem filter_mergeSort_key_eq_of_perm (hbefore : ∀ x y, before x y = true ↔ key x ≤ key y)
    {p : α → Bool} (hnodup : ((xs.filter p).map key).Nodup) (hperm : xs.Perm ys) :
    (xs.mergeSort before).filter p = (ys.mergeSort before).filter p := by
  have hsorted : ((xs.mergeSort before).filter p).Perm ((ys.mergeSort before).filter p) :=
    ((List.mergeSort_perm xs before).trans
      (hperm.trans (List.mergeSort_perm ys before).symm)).filter p
  have hkeys : (((xs.mergeSort before).filter p).map key).Nodup :=
    (((List.mergeSort_perm xs before).filter p).map key).nodup_iff.mpr hnodup
  have hinjective := List.inj_on_of_nodup_map hkeys
  refine List.Perm.eq_of_pairwise (fun x y hx hy hxy hyx => ?_)
    ((pairwise_mergeSort_key hbefore).filter p) ((pairwise_mergeSort_key hbefore).filter p) hsorted
  exact hinjective hx (hsorted.mem_iff.mpr hy) (le_antisymm hxy hyx)

/-- Entries under different keys are sorted into one list, in whatever order they come. -/
theorem mergeSort_key_eq_of_perm (hbefore : ∀ x y, before x y = true ↔ key x ≤ key y)
    (hnodup : (xs.map key).Nodup) (hperm : xs.Perm ys) :
    xs.mergeSort before = ys.mergeSort before := by
  have hall : (xs.filter fun _ => true) = xs := List.filter_true xs
  have hsame := filter_mergeSort_key_eq_of_perm hbefore (hall.symm ▸ hnodup) hperm
  rwa [List.filter_true, List.filter_true] at hsame

/-- Sorting is stable: a part that is sorted already stays as it is. -/
theorem filter_mergeSort_key_of_pairwise (hbefore : ∀ x y, before x y = true ↔ key x ≤ key y)
    {p : α → Bool} (hsorted : (xs.filter p).Pairwise fun x y => key x ≤ key y) :
    (xs.mergeSort before).filter p = xs.filter p := by
  have hstay : (xs.filter p).Sublist (xs.mergeSort before) :=
    List.sublist_mergeSort (key_before_trans hbefore) (key_before_total hbefore)
      (hsorted.imp fun h => (hbefore _ _).mpr h) List.filter_sublist
  have hpart : (xs.filter p).Sublist ((xs.mergeSort before).filter p) := by
    simpa using hstay.filter p
  refine (hpart.eq_of_length ?_).symm
  exact ((List.mergeSort_perm xs before).filter p).length_eq.symm

end

/-! ### Ids and names -/

theorem sortById_eq_of_perm {α : Type} {idOf : α → String} {xs ys : List α}
    (hnodup : (xs.map idOf).Nodup) (hperm : xs.Perm ys) : sortById idOf xs = sortById idOf ys :=
  mergeSort_key_eq_of_perm (fun _ _ => decide_eq_true_iff) hnodup hperm

/-- What fragments are sorted by: the name without regard to case, and then the name. -/
def nameKey (name : String) : String ×ₗ String :=
  toLex (Text.foldNameCase name, name)

theorem nameKey_injective : Function.Injective nameKey := fun _ _ h =>
  (Prod.mk.inj (toLex_inj.mp h)).2

theorem nameBefore_iff (left right : String) :
    nameBefore left right = true ↔ nameKey left ≤ nameKey right := by
  simp [nameBefore, nameKey, Prod.Lex.toLex_le_toLex]

theorem pairwise_lt_sortByName {α : Type} {nameOf : α → String} {xs : List α}
    (hnodup : (xs.map nameOf).Nodup) :
    (sortByName nameOf xs).Pairwise fun x y => nameKey (nameOf x) < nameKey (nameOf y) := by
  refine pairwise_lt_mergeSort_key (fun x y => nameBefore_iff (nameOf x) (nameOf y)) ?_
  have hkeys : xs.map (fun x => nameKey (nameOf x)) = (xs.map nameOf).map nameKey := by simp
  rw [hkeys]
  exact hnodup.map nameKey_injective

end OperationLibrary
