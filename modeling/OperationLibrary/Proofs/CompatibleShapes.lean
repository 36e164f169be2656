import Mathlib.Data.List.Induction
import Mathlib.Logic.Relation
import OperationLibrary.Proofs.MergedEntries

/-!
Shapes that fit together. Two shapes are compatible if they have objects, lists and leaves at the
same places, as far as they have places in common. What is compatible with two shapes is compatible
with their merged shape, and merging compatible shapes is associative, so that entries come to the
same whether they are merged one after the other or in groups.
-/

namespace OperationLibrary

open Relation

/-! ### Descriptions and entries -/

theorem firstDescription_assoc (left middle right : Option Explanation) :
    firstDescription (firstDescription left middle) right =
      firstDescription left (firstDescription middle right) := by
  by_cases h : left.any Explanation.saysSomething = true <;> simp [firstDescription, h]

theorem Entry.merge_assoc {left middle right : Entry Shape}
    (h : (left.type.merge middle.type).merge right.type =
      left.type.merge (middle.type.merge right.type)) :
    (left.merge middle).merge right = left.merge (middle.merge right) := by
  simp only [Entry.merge, h, Bool.and_assoc, firstDescription_assoc]

namespace Shape

/-! ### Shapes -/

/-- The entries of each object have different names. -/
inductive WellKeyed : Shape → Prop
  | scalar (type : String) (description : Option Explanation) : WellKeyed (.scalar type description)
  | enum (values : List String) (description : Option Explanation) :
      WellKeyed (.enum values description)
  | list {item : Shape} (description : Option Explanation) (items : WellKeyed item) :
      WellKeyed (.list item description)
  | object {entries : List (Entry Shape)} (description : Option Explanation)
      (names : (entries.map Entry.name).Nodup) (types : ∀ entry ∈ entries, WellKeyed entry.type) :
      WellKeyed (.object entries description)

def isLeaf : Shape → Bool
  | .scalar .. | .enum .. => true
  | .list .. | .object .. => false

/-- Where two shapes have a place in common both have an object there, or both have a list, or they
have leaves that are related. -/
inductive Corresponds (related : Shape → Shape → Prop) : Shape → Shape → Prop
  | leaf {left right : Shape} (leftLeaf : left.isLeaf = true) (rightLeaf : right.isLeaf = true)
      (leaves : related left right) : Corresponds related left right
  | list {item other : Shape} (description otherDescription : Option Explanation)
      (items : Corresponds related item other) :
      Corresponds related (.list item description) (.list other otherDescription)
  | object {entries others : List (Entry Shape)} (description otherDescription : Option Explanation)
      (types : ∀ entry ∈ entries, ∀ other ∈ others, entry.name = other.name →
        Corresponds related entry.type other.type) :
      Corresponds related (.object entries description) (.object others otherDescription)

/-- Two shapes have objects, lists and leaves at the same places. -/
abbrev Compatible : Shape → Shape → Prop :=
  Corresponds fun _ _ => True

section

variable {left right item other : Shape} {entries others : List (Entry Shape)}
  {description otherDescription : Option Explanation} {related : Shape → Shape → Prop}

@[simp] theorem wellKeyed_list_iff : (Shape.list item description).WellKeyed ↔ item.WellKeyed := by
  constructor
  · intro h
    cases h
    assumption
  · exact .list description

@[simp] theorem wellKeyed_object_iff : (Shape.object entries description).WellKeyed ↔
    (entries.map Entry.name).Nodup ∧ ∀ entry ∈ entries, entry.type.WellKeyed := by
  constructor
  · intro h
    cases h with
    | object _ names types => exact ⟨names, types⟩
  · rintro ⟨names, types⟩
    exact .object description names types

@[simp] theorem corresponds_list_iff :
    (Shape.list item description).Corresponds related (.list other otherDescription) ↔
      item.Corresponds related other := by
  constructor
  · intro h
    cases h with
    | leaf hleaf => cases hleaf
    | list _ _ items => exact items
  · exact .list description otherDescription

@[simp] theorem corresponds_object_iff :
    (Shape.object entries description).Corresponds related (.object others otherDescription) ↔
      ∀ entry ∈ entries, ∀ other ∈ others, entry.name = other.name →
        entry.type.Corresponds related other.type := by
  constructor
  · intro h
    cases h with
    | leaf hleaf => cases hleaf
    | object _ _ types => exact types
  · exact .object description otherDescription

theorem Corresponds.exists_list (h : left.Corresponds related (.list item description)) :
    ∃ other otherDescription, left = .list other otherDescription := by
  cases h with
  | leaf _ hleaf => cases hleaf
  | list description _ _ => exact ⟨_, description, rfl⟩

theorem Corresponds.exists_object (h : left.Corresponds related (.object entries description)) :
    ∃ others otherDescription, left = .object others otherDescription := by
  cases h with
  | leaf _ hleaf => cases hleaf
  | object description _ _ => exact ⟨_, description, rfl⟩

theorem Compatible.symm (h : left.Compatible right) : right.Compatible left := by
  induction h with
  | leaf hleft hright => exact .leaf hright hleft trivial
  | list _ _ _ ih => exact .list _ _ ih
  | object _ _ _ ih =>
      exact .object _ _ fun other hother entry hentry hname =>
        ih entry hentry other hother hname.symm

end

/-! ### Merging -/

theorem merge_of_isLeaf {right : Shape} (left : Shape) (h : right.isLeaf = true) :
    left.merge right = left := by
  cases right with
  | scalar | enum => rw [merge]
  | list | object => cases h

theorem merge_list (item other : Shape) (description otherDescription : Option Explanation) :
    (Shape.list item description).merge (.list other otherDescription) =
      .list (item.merge other) none := by
  rw [merge]

theorem merge_object (entries others : List (Entry Shape))
    (description otherDescription : Option Explanation) :
    (Shape.object entries description).merge (.object others otherDescription) =
      .object (mergeEntries entries others) (firstDescription description otherDescription) := by
  rw [merge]

section

variable {left middle right other : Shape} {related : Shape → Shape → Prop}

theorem WellKeyed.merge (hleft : left.WellKeyed) (hright : right.WellKeyed) :
    (left.merge right).WellKeyed := by
  induction right using Shape.entries_induction generalizing left with
  | scalar | enum => exact hleft
  | list item _ ih =>
      cases left with
      | list other _ =>
          rw [wellKeyed_list_iff] at hleft hright
          rw [merge_list, wellKeyed_list_iff]
          exact ih hleft hright
      | scalar | enum | object => exact hleft
  | object entries _ ih =>
      cases left with
      | object others _ =>
          rw [wellKeyed_object_iff] at hleft hright
          rw [merge_object, wellKeyed_object_iff]
          refine ⟨nodup_mergeEntries hleft.1, forall_mem_mergeEntries hleft.2 hright.2 ?_⟩
          exact fun known entry hentry hknown hkeyed _ => ih entry hentry hknown hkeyed
      | scalar | enum | list => exact hleft

/-- What corresponds to both sides corresponds to the merged shape. -/
theorem Corresponds.merge (hleft : left.Corresponds related other)
    (hright : right.Corresponds related other) : (left.merge right).Corresponds related other := by
  induction other using Shape.entries_induction generalizing left right with
  | scalar | enum =>
      cases hright with | leaf hleaf =>
      rw [merge_of_isLeaf _ hleaf]
      exact hleft
  | list item _ ih =>
      obtain ⟨known, _, rfl⟩ := hleft.exists_list
      obtain ⟨entry, _, rfl⟩ := hright.exists_list
      rw [corresponds_list_iff] at hleft hright
      rw [merge_list, corresponds_list_iff]
      exact ih hleft hright
  | object others _ ih =>
      obtain ⟨knowns, _, rfl⟩ := hleft.exists_object
      obtain ⟨entries, _, rfl⟩ := hright.exists_object
      rw [corresponds_object_iff] at hleft hright
      rw [merge_object, corresponds_object_iff]
      refine forall_mem_mergeEntries hleft hright ?_
      intro known entry _ hknown hentry hname other hother hsame
      exact ih other hother (hknown other hother (hname.trans hsame)) (hentry other hother hsame)

/-- Merging compatible shapes is associative. -/
theorem merge_assoc (hleft : left.WellKeyed) (hmiddle : middle.WellKeyed) (hright : right.WellKeyed)
    (hleftMiddle : left.Compatible middle) (hleftRight : left.Compatible right)
    (hmiddleRight : middle.Compatible right) :
    (left.merge middle).merge right = left.merge (middle.merge right) := by
  induction right using Shape.entries_induction generalizing left middle with
  | scalar | enum => rfl
  | list item _ ih =>
      obtain ⟨first, _, rfl⟩ := hleftRight.exists_list
      obtain ⟨second, _, rfl⟩ := hmiddleRight.exists_list
      simp only [wellKeyed_list_iff, corresponds_list_iff] at *
      simp only [merge_list, ih hleft hmiddle hright hleftMiddle hleftRight hmiddleRight]
  | object third _ ih =>
      obtain ⟨first, _, rfl⟩ := hleftRight.exists_object
      obtain ⟨second, _, rfl⟩ := hmiddleRight.exists_object
      simp only [wellKeyed_object_iff, corresponds_object_iff] at *
      have hentries : mergeEntries (mergeEntries first second) third =
          mergeEntries first (mergeEntries second third) := by
        refine mergeEntries_assoc hleft.1 hmiddle.1 hright.1 fun l hl m hm r hr hlm hmr => ?_
        exact Entry.merge_assoc (ih r hr (hleft.2 l hl) (hmiddle.2 m hm) (hright.2 r hr)
          (hleftMiddle l hl m hm hlm) (hleftRight l hl r hr (hlm.trans hmr))
          (hmiddleRight m hm r hr hmr))
      simp only [merge_object, firstDescription_assoc, hentries]

end

end Shape

/-! ### Grouping -/

/-- Entries of the one list and the other that share a name have compatible types. -/
def EntriesCompatible (entries others : List (Entry Shape)) : Prop :=
  ∀ entry ∈ entries, ∀ other ∈ others, entry.name = other.name →
    entry.type.Compatible other.type

/-- Entries that stand next to one another are merged before the others. -/
inductive Grouped : List (Entry Shape) → List (Entry Shape) → Prop
  | group (before inside after : List (Entry Shape)) :
      Grouped (before ++ inside ++ after) (before ++ mergeEntries [] inside ++ after)

section

variable {entries others grouped : List (Entry Shape)}

theorem EntriesCompatible.symm (h : EntriesCompatible entries others) :
    EntriesCompatible others entries :=
  fun other hother entry hentry hname => (h entry hentry other hother hname.symm).symm

theorem EntriesCompatible.mergeEntries (h : EntriesCompatible entries others) :
    EntriesCompatible (mergeEntries [] entries) others := by
  refine forall_mem_mergeEntries (by simp) h ?_
  intro known entry _ hknown hentry hname other hother hsame
  exact (hknown other hother (hname.trans hsame)).merge (hentry other hother hsame)

theorem wellKeyed_mergeEntries (h : ∀ entry ∈ entries, entry.type.WellKeyed) :
    ∀ entry ∈ mergeEntries [] entries, entry.type.WellKeyed :=
  forall_mem_mergeEntries (by simp) h fun _ _ _ hknown hentry _ => hknown.merge hentry

/-- Merging entries one after the other or all at once with what is there already is the same. -/
theorem mergeEntries_mergeEntries {known : List (Entry Shape)}
    (hnames : (known.map Entry.name).Nodup) (hknown : ∀ entry ∈ known, entry.type.WellKeyed)
    (hentries : ∀ entry ∈ entries, entry.type.WellKeyed) (hboth : EntriesCompatible known entries)
    (hcompatible : EntriesCompatible entries entries) :
    mergeEntries known (mergeEntries [] entries) = mergeEntries known entries := by
  induction entries using List.reverseRecOn with
  | nil => rfl
  | append_singleton entries last ih =>
      have hmem : ∀ entry ∈ entries, entry ∈ entries ++ [last] := fun _ => List.mem_append_left _
      have hlast : last ∈ entries ++ [last] := by simp
      have hsingle : ([last].map Entry.name).Nodup := List.nodup_singleton _
      have hmerged : EntriesCompatible (mergeEntries [] entries) (entries ++ [last]) :=
        EntriesCompatible.mergeEntries fun entry hentry => hcompatible entry (hmem entry hentry)
      have hmerged' : EntriesCompatible (mergeEntries [] entries) known :=
        EntriesCompatible.mergeEntries fun entry hentry => hboth.symm entry (hmem entry hentry)
      have hkeyed := wellKeyed_mergeEntries fun entry hentry => hentries entry (hmem entry hentry)
      rw [mergeEntries_append, mergeEntries_append, ← mergeEntries_assoc hnames
        nodup_mergeEntries_nil hsingle]
      · rw [ih (fun entry hentry => hentries entry (hmem entry hentry))
          (fun entry hentry other hother => hboth entry hentry other (hmem other hother))
          (fun entry hentry other hother =>
            hcompatible entry (hmem entry hentry) other (hmem other hother))]
      · intro left hleft middle hmiddle right hright hleftMiddle hmiddleRight
        obtain rfl := List.mem_singleton.mp hright
        exact Entry.merge_assoc (Shape.merge_assoc (hknown left hleft) (hkeyed middle hmiddle)
          (hentries right hlast) (hmerged'.symm left hleft middle hmiddle hleftMiddle)
          (hboth left hleft right hlast (hleftMiddle.trans hmiddleRight))
          (hmerged middle hmiddle right hlast hmiddleRight))

/-- What a list of entries has to be to be merged in groups. -/
structure Groupable (entries : List (Entry Shape)) : Prop where
  keyed : ∀ entry ∈ entries, entry.type.WellKeyed
  compatible : EntriesCompatible entries entries

theorem Grouped.groupable (h : Grouped entries grouped) (hgroupable : Groupable entries) :
    Groupable grouped := by
  cases h with | group before inside after =>
  have hgroup {others : List (Entry Shape)}
      (h : EntriesCompatible (before ++ inside ++ after) others) :
      EntriesCompatible (before ++ mergeEntries [] inside ++ after) others := by
    have hinside : EntriesCompatible (mergeEntries [] inside) others :=
      EntriesCompatible.mergeEntries fun entry hentry => h entry (by simp [hentry])
    intro entry hentry
    rcases List.mem_append.mp hentry with hentry | hentry
    · rcases List.mem_append.mp hentry with hentry | hentry
      · exact h entry (by simp [hentry])
      · exact hinside entry hentry
    · exact h entry (by simp [hentry])
  refine ⟨fun entry hentry => ?_, hgroup (hgroup hgroupable.compatible).symm⟩
  rcases List.mem_append.mp hentry with hentry | hentry
  · rcases List.mem_append.mp hentry with hentry | hentry
    · exact hgroupable.keyed entry (by simp [hentry])
    · exact wellKeyed_mergeEntries (fun entry hentry => hgroupable.keyed entry (by simp [hentry]))
        entry hentry
  · exact hgroupable.keyed entry (by simp [hentry])

theorem Grouped.mergeEntries_eq (h : Grouped entries grouped) (hgroupable : Groupable entries) :
    mergeEntries [] grouped = mergeEntries [] entries := by
  cases h with | group before inside after =>
  rw [mergeEntries_append, mergeEntries_append, mergeEntries_append, mergeEntries_append]
  have hinside : ∀ entry ∈ inside, entry ∈ before ++ inside ++ after := by simp +contextual
  have hbefore : ∀ entry ∈ before, entry ∈ before ++ inside ++ after := by simp +contextual
  rw [mergeEntries_mergeEntries nodup_mergeEntries_nil]
  · exact wellKeyed_mergeEntries fun entry hentry => hgroupable.keyed entry (hbefore entry hentry)
  · exact fun entry hentry => hgroupable.keyed entry (hinside entry hentry)
  · exact EntriesCompatible.mergeEntries fun entry hentry other hother =>
      hgroupable.compatible entry (hbefore entry hentry) other (hinside other hother)
  · exact fun entry hentry other hother =>
      hgroupable.compatible entry (hinside entry hentry) other (hinside other hother)

/-- However entries are grouped, and groups are grouped again, merging makes the same of them. -/
theorem mergeEntries_of_grouped (h : ReflTransGen Grouped entries grouped)
    (hgroupable : Groupable entries) :
    Groupable grouped ∧ mergeEntries [] grouped = mergeEntries [] entries := by
  induction h with
  | refl => exact ⟨hgroupable, rfl⟩
  | tail _ hstep ih => exact ⟨hstep.groupable ih.1, (hstep.mergeEntries_eq ih.1).trans ih.2⟩

end

end OperationLibrary
