import OperationLibrary.Shape.Merge
import OperationLibrary.Shape.Wrappers

/-!
Places in shapes. A path of keys leads through the objects of a shape, whatever lists stand between
them. Merging two shapes keeps what is said at every place of both, as long as merging two entries
of one name keeps it; and if both sides have the form of one type, the merged shape has all the
places that one of them has.
-/

namespace OperationLibrary

open Syntax

/-- Whatever holds of leaves, and passes from the items of lists and the entries of objects to the
whole, holds of all shapes. -/
theorem Shape.entries_induction {motive : Shape → Prop}
    (scalar : ∀ type description, motive (.scalar type description))
    (enum : ∀ values description, motive (.enum values description))
    (list : ∀ item description, motive item → motive (.list item description))
    (object : ∀ (entries : List (Entry Shape)) description,
      (∀ entry ∈ entries, motive entry.type) → motive (.object entries description))
    (shape : Shape) : motive shape :=
  @Shape.rec motive (fun entries => ∀ entry ∈ entries, motive entry.type)
    (fun entry => motive entry.type) scalar enum list object
    (fun _ h => absurd h List.not_mem_nil)
    (fun _ _ head tail _ h => (List.mem_cons.mp h).elim (· ▸ head) (tail _))
    (fun _ _ _ _ h => h) shape

/-! ### Merging entries -/

/-- The entry that stands for two entries of one name. -/
def Entry.merge (known entry : Entry Shape) : Entry Shape :=
  ⟨entry.name, known.type.merge entry.type, known.nullable && entry.nullable,
    firstDescription known.description entry.description⟩

/-- Adds one entry to others. -/
def addEntry (entries : List (Entry Shape)) (entry : Entry Shape) : List (Entry Shape) :=
  if entries.any (·.name == entry.name) then
    entries.map fun known => if known.name == entry.name then known.merge entry else known
  else entries ++ [entry]

theorem mergeEntries_nil (entries : List (Entry Shape)) : mergeEntries entries [] = entries := by
  rw [mergeEntries]

theorem mergeEntries_cons (entries : List (Entry Shape)) (entry : Entry Shape)
    (rest : List (Entry Shape)) :
    mergeEntries entries (entry :: rest) = mergeEntries (addEntry entries entry) rest := by
  rw [mergeEntries]
  rfl

section

variable {P Q : Entry Shape → Prop} {entries others : List (Entry Shape)} {entry : Entry Shape}

theorem forall_mem_addEntry (hentries : ∀ known ∈ entries, P known) (hentry : P entry)
    (hmerge : ∀ known, P known → known.name = entry.name → P (known.merge entry)) :
    ∀ result ∈ addEntry entries entry, P result := by
  intro result hresult
  rw [addEntry] at hresult
  split at hresult
  · obtain ⟨known, hknown, rfl⟩ := List.mem_map.mp hresult
    by_cases hname : known.name = entry.name
    · simpa [hname] using hmerge known (hentries known hknown) hname
    · simpa [hname] using hentries known hknown
  · rcases List.mem_append.mp hresult with h | h
    · exact hentries result h
    · rw [List.mem_singleton.mp h]
      exact hentry

/-- What holds of all entries and passes to merged ones holds after merging. -/
theorem forall_mem_mergeEntries (hentries : ∀ known ∈ entries, P known)
    (hothers : ∀ entry ∈ others, P entry)
    (hmerge : ∀ known, ∀ entry ∈ others, P known → P entry → known.name = entry.name →
      P (known.merge entry)) :
    ∀ result ∈ mergeEntries entries others, P result := by
  induction others generalizing entries with
  | nil => rwa [mergeEntries_nil]
  | cons entry rest ih =>
      -- the entries that are there already change with every step
      rw [mergeEntries_cons]
      have hentry := hothers entry List.mem_cons_self
      refine ih ?_ (fun other h => hothers other (List.mem_cons_of_mem _ h))
        (fun known other h => hmerge known other (List.mem_cons_of_mem _ h))
      exact forall_mem_addEntry hentries hentry fun known hknown =>
        hmerge known entry List.mem_cons_self hknown hentry

theorem exists_mem_addEntry (h : Q entry ∨ ∃ known ∈ entries, Q known)
    (hleft : ∀ known ∈ entries, Q known → known.name = entry.name → Q (known.merge entry))
    (hright : ∀ known ∈ entries, Q entry → known.name = entry.name → Q (known.merge entry)) :
    ∃ result ∈ addEntry entries entry, Q result := by
  rw [addEntry]
  split
  case isTrue hknown =>
      rcases h with hentry | ⟨known, hmem, hq⟩
      · obtain ⟨known, hmem, hname⟩ := List.any_eq_true.mp hknown
        refine ⟨known.merge entry, List.mem_map.mpr ⟨known, hmem, if_pos hname⟩, ?_⟩
        exact hright known hmem hentry (by simpa using hname)
      · by_cases hname : known.name = entry.name
        · exact ⟨known.merge entry, List.mem_map.mpr ⟨known, hmem, by simp [hname]⟩,
            hleft known hmem hq hname⟩
        · exact ⟨known, List.mem_map.mpr ⟨known, hmem, by simp [hname]⟩, hq⟩
  case isFalse =>
      rcases h with hentry | ⟨known, hmem, hq⟩
      · exact ⟨entry, by simp, hentry⟩
      · exact ⟨known, List.mem_append_left _ hmem, hq⟩

/-- What holds of some entry and is not lost by merging with entries that satisfy `P` holds of some
entry after merging. -/
theorem exists_mem_mergeEntries (hentries : ∀ known ∈ entries, P known)
    (hothers : ∀ entry ∈ others, P entry)
    (hmerge : ∀ known entry, P known → P entry → known.name = entry.name → P (known.merge entry))
    (hleft : ∀ known entry, P known → P entry → known.name = entry.name → Q known →
      Q (known.merge entry))
    (hright : ∀ known entry, P known → P entry → known.name = entry.name → Q entry →
      Q (known.merge entry))
    (h : (∃ known ∈ entries, Q known) ∨ ∃ entry ∈ others, Q entry) :
    ∃ result ∈ mergeEntries entries others, Q result := by
  induction others generalizing entries with
  | nil =>
      rw [mergeEntries_nil]
      exact h.resolve_right (by simp)
  | cons entry rest ih =>
      rw [mergeEntries_cons]
      have hentry := hothers entry List.mem_cons_self
      refine ih ?_ (fun other h => hothers other (List.mem_cons_of_mem _ h)) ?_
      · exact forall_mem_addEntry hentries hentry fun known hknown =>
          hmerge known entry hknown hentry
      -- the entry is found among those already added, or it is yet to come
      · have hadd (h : Q entry ∨ ∃ known ∈ entries, Q known) :
            ∃ result ∈ addEntry entries entry, Q result :=
          exists_mem_addEntry h
            (fun known hmem hq hname => hleft known entry (hentries known hmem) hentry hname hq)
            (fun known hmem hq hname => hright known entry (hentries known hmem) hentry hname hq)
        rcases h with h | ⟨other, hmem, hq⟩
        · exact .inl (hadd (.inr h))
        · rcases List.mem_cons.mp hmem with rfl | hmem
          · exact .inl (hadd (.inl hq))
          · exact .inr ⟨other, hmem, hq⟩

end

namespace Shape

/-! ### Places -/

/-- The entries of the object at the core of a shape. -/
def entries : Shape → List (Entry Shape)
  | .object entries _ => entries
  | .list item _ => item.entries
  | .scalar .. | .enum .. => []

/-- A path of keys leads from a shape to a shape inside it. -/
inductive Leads : Shape → List String → Shape → Prop
  | here (shape : Shape) : Leads shape [] shape
  | entry {shape found : Shape} {entry : Entry Shape} {path : List String}
      (mem : entry ∈ shape.entries) (inner : Leads entry.type path found) :
      Leads shape (entry.name :: path) found

@[simp] theorem leads_nil_iff {shape found : Shape} : shape.Leads [] found ↔ found = shape := by
  constructor
  · intro h
    cases h
    rfl
  · rintro rfl
    exact .here found

@[simp] theorem leads_cons_iff {shape found : Shape} {key : String} {path : List String} :
    shape.Leads (key :: path) found ↔
      ∃ entry ∈ shape.entries, entry.name = key ∧ entry.type.Leads path found := by
  constructor
  · intro h
    cases h with
    | entry mem inner => exact ⟨_, mem, rfl, inner⟩
  · rintro ⟨entry, hmem, rfl, hinner⟩
    exact .entry hmem hinner

theorem leads_concat_iff {shape found : Shape} {path : List String} {key : String} :
    shape.Leads (path ++ [key]) found ↔ ∃ outer entry, shape.Leads path outer ∧
      entry ∈ outer.entries ∧ entry.name = key ∧ entry.type = found := by
  induction path generalizing shape with
  | nil => simp [eq_comm]
  | cons first path ih =>
      simp only [List.cons_append, leads_cons_iff, ih]
      constructor
      · rintro ⟨entry, hmem, hname, outer, last, houter, hlast⟩
        exact ⟨outer, last, ⟨entry, hmem, hname, houter⟩, hlast⟩
      · rintro ⟨outer, last, ⟨entry, hmem, hname, houter⟩, hlast⟩
        exact ⟨entry, hmem, hname, outer, last, houter, hlast⟩

/-- An entry that is never absent stands under a key in the object at the end of a path. -/
def Requires (shape : Shape) (path : List String) (key : String) : Prop :=
  ∃ outer entry, shape.Leads path outer ∧ entry ∈ outer.entries ∧ entry.name = key ∧
    entry.nullable = false

/-- Something holds of every entry of a shape at the path that leads to its object; the shape
itself stands at `path`. -/
def Throughout (P : List String → Entry Shape → Prop) (path : List String) (shape : Shape) : Prop :=
  ∀ inner outer entry, shape.Leads inner outer → entry ∈ outer.entries → P (path ++ inner) entry

end Shape

/-- Something holds of an entry of the object at `path` and of every entry inside it. -/
def Entry.Throughout (P : List String → Entry Shape → Prop) (path : List String)
    (entry : Entry Shape) : Prop :=
  P path entry ∧ entry.type.Throughout P (path ++ [entry.name])

section

variable {P P' : List String → Entry Shape → Prop} {path path' : List String}

theorem Shape.throughout_iff {shape : Shape} :
    shape.Throughout P path ↔ ∀ entry ∈ shape.entries, entry.Throughout P path := by
  constructor
  · intro h entry hmem
    refine ⟨by simpa using h [] shape entry (.here shape) hmem, fun inner outer found hleads => ?_⟩
    simpa using h (entry.name :: inner) outer found (.entry hmem hleads)
  · intro h inner outer found hleads hfound
    cases hleads with
    | here => simpa using (h found hfound).1
    | entry mem hinner => simpa using (h _ mem).2 _ outer found hinner hfound

/-- What holds throughout can be weakened and moved to another path. -/
theorem Shape.Throughout.imp {shape : Shape} (h : shape.Throughout P path)
    (himp : ∀ inner entry, P (path ++ inner) entry → P' (path' ++ inner) entry) :
    shape.Throughout P' path' :=
  fun inner outer entry hleads hmem => himp inner entry (h inner outer entry hleads hmem)

theorem Entry.Throughout.imp {entry : Entry Shape} (h : entry.Throughout P path)
    (himp : ∀ inner entry, P (path ++ inner) entry → P' (path' ++ inner) entry) :
    entry.Throughout P' path' := by
  refine ⟨by simpa using himp [] entry (by simpa using h.1), h.2.imp fun inner other hp => ?_⟩
  simpa using himp (entry.name :: inner) other (by simpa using hp)

/-- What passes to merged entries and holds throughout both sides holds throughout the merged
shape. -/
theorem Shape.Throughout.merge
    (hmerge : ∀ path known entry, P path known → P path entry → known.name = entry.name →
      P path (known.merge entry))
    {left right : Shape} (hleft : left.Throughout P path) (hright : right.Throughout P path) :
    (left.merge right).Throughout P path := by
  rw [Shape.throughout_iff] at hleft hright ⊢
  induction right using Shape.entries_induction generalizing left path with
  | scalar | enum =>
      rw [Shape.merge]
      exact hleft
  | list item _ ih =>
      cases left with
      | list other _ =>
          rw [Shape.merge]
          exact ih hleft hright
      | scalar | enum | object => simpa [Shape.merge] using hleft
  | object others _ ih =>
      cases left with
      | object entries _ =>
          rw [Shape.merge]
          refine forall_mem_mergeEntries hleft hright ?_
          rintro known entry hmem ⟨hknown, hinner⟩ ⟨hentry, hother⟩ hname
          refine ⟨hmerge path known entry hknown hentry hname, Shape.throughout_iff.mpr ?_⟩
          exact ih entry hmem (Shape.throughout_iff.mp (hname ▸ hinner))
            (Shape.throughout_iff.mp hother)
      | scalar | enum | list => simpa [Shape.merge] using hleft

theorem Entry.Throughout.merge
    (hmerge : ∀ path known entry, P path known → P path entry → known.name = entry.name →
      P path (known.merge entry))
    {known entry : Entry Shape} (hname : known.name = entry.name)
    (hknown : known.Throughout P path) (hentry : entry.Throughout P path) :
    (known.merge entry).Throughout P path :=
  ⟨hmerge path known entry hknown.1 hentry.1 hname,
    Shape.Throughout.merge hmerge (hname ▸ hknown.2) hentry.2⟩

theorem Entry.Throughout.mergeEntries
    (hmerge : ∀ path known entry, P path known → P path entry → known.name = entry.name →
      P path (known.merge entry))
    {entries : List (Entry Shape)} (h : ∀ entry ∈ entries, entry.Throughout P path) :
    ∀ entry ∈ mergeEntries [] entries, entry.Throughout P path :=
  forall_mem_mergeEntries (by simp) h fun _ _ _ hknown hentry hname =>
    Entry.Throughout.merge hmerge hname hknown hentry

end

/-! ### Forms -/

namespace Shape

/-- A shape has lists where a type has them, and at the core an object if the type is composite and
a leaf if it is not. -/
def HasForm (composite : Bool) : TypeRef → Shape → Prop
  | .named _, .object .. => composite = true
  | .named _, .scalar .. | .named _, .enum .. => composite = false
  | .list item, .list shape _ => shape.HasForm composite item
  | .nonNull inner, shape => shape.HasForm composite inner
  | _, _ => False

/-- Shapes of one form merge to that form; of objects, all entries are merged. -/
theorem HasForm.merge {composite : Bool} {type : TypeRef} {left right : Shape}
    (hleft : left.HasForm composite type) (hright : right.HasForm composite type) :
    (left.merge right).HasForm composite type ∧ (composite = true →
      (left.merge right).entries = mergeEntries left.entries right.entries) := by
  induction type generalizing left right with
  | named name =>
      cases right with
      | scalar | enum =>
          rw [Shape.merge]
          exact ⟨hleft, fun h => absurd (h.symm.trans hright) (by simp)⟩
      | list => exact hright.elim
      | object others _ =>
          cases left with
          | scalar | enum => exact absurd (hright.symm.trans hleft) (by simp)
          | list => exact hleft.elim
          | object entries _ =>
              rw [Shape.merge]
              exact ⟨hleft, fun _ => rfl⟩
  | list item ih =>
      cases right with
      | scalar | enum | object => exact hright.elim
      | list other _ =>
          cases left with
          | scalar | enum | object => exact hleft.elim
          | list shape _ =>
              rw [Shape.merge]
              exact ih hleft hright
  | nonNull inner ih => exact ih hleft hright

theorem HasForm.entries_eq_nil {type : TypeRef} {shape : Shape}
    (h : shape.HasForm false type) : shape.entries = [] := by
  induction type generalizing shape with
  | named name =>
      cases shape with
      | scalar | enum => rfl
      | object => exact absurd h (by simp [Shape.HasForm])
      | list => exact h.elim
  | list item ih =>
      cases shape with
      | list shape _ => exact @ih shape h
      | scalar | enum | object => exact h.elim
  | nonNull inner ih => exact ih h

/-- A shape has all the forms that are expected at a path. -/
def Formed (expected : List String → Bool → TypeRef → Prop) (path : List String) (shape : Shape) :
    Prop :=
  ∀ composite type, expected path composite type → shape.HasForm composite type

end Shape

section

variable {expected : List String → Bool → TypeRef → Prop} {start path : List String}

/-- The forms that are expected of an entry's own shape. -/
def Entry.Formed (expected : List String → Bool → TypeRef → Prop) (path : List String)
    (entry : Entry Shape) : Prop :=
  entry.type.Formed expected (path ++ [entry.name])

theorem Entry.Formed.merge {known entry : Entry Shape} (hknown : known.Formed expected path)
    (hentry : entry.Formed expected path) (hname : known.name = entry.name) :
    (known.merge entry).Formed expected path := by
  intro composite type hexpected
  have hknown := hknown composite type (hname ▸ hexpected)
  exact (hknown.merge (hentry composite type hexpected)).1

/-- An object is expected wherever a path that starts at `start` goes through. -/
def ObjectsAlong (expected : List String → Bool → TypeRef → Prop) (start path : List String) :
    Prop :=
  ∀ inner rest, path = inner ++ rest → inner ≠ [] → rest ≠ [] →
    ∃ type, expected (start ++ inner) true type

theorem ObjectsAlong.tail {key : String} (h : ObjectsAlong expected start (key :: path)) :
    ObjectsAlong expected (start ++ [key]) path := by
  rintro inner rest rfl _ hrest
  simpa using h (key :: inner) rest rfl (by simp) hrest

/-- A path leads somewhere from the object that has these entries. -/
def Carries (entries : List (Entry Shape)) : List String → Prop
  | [] => True
  | key :: path => ∃ entry ∈ entries, entry.name = key ∧ ∃ found, entry.type.Leads path found

theorem Shape.exists_leads_iff {shape : Shape} :
    (∃ found, shape.Leads path found) ↔ Carries shape.entries path := by
  cases path with
  | nil => simp [Carries]
  | cons key path =>
      simp only [Carries, leads_cons_iff]
      constructor
      · rintro ⟨found, entry, hmem, hname, hleads⟩
        exact ⟨entry, hmem, hname, found, hleads⟩
      · rintro ⟨entry, hmem, hname, found, hleads⟩
        exact ⟨found, entry, hmem, hname, hleads⟩

/-- Merging loses no path that leads through objects. -/
theorem Carries.mergeEntries {entries others : List (Entry Shape)}
    (hentries : ∀ entry ∈ entries, entry.Throughout (Entry.Formed expected) start)
    (hothers : ∀ entry ∈ others, entry.Throughout (Entry.Formed expected) start)
    (hpath : ObjectsAlong expected start path)
    (h : Carries entries path ∨ Carries others path) :
    Carries (mergeEntries entries others) path := by
  induction path generalizing start entries others with
  | nil => trivial
  | cons key path ih =>
      -- below the two entries the path goes on in both shapes, which are objects of one form
      have hmerge (known entry : Entry Shape)
          (hknown : known.Throughout (Entry.Formed expected) start)
          (hentry : entry.Throughout (Entry.Formed expected) start)
          (hname : known.name = entry.name) (hkey : entry.name = key)
          (h : (∃ found, known.type.Leads path found) ∨ ∃ found, entry.type.Leads path found) :
          ∃ found, (known.merge entry).type.Leads path found := by
        cases path with
        | nil => exact ⟨_, .here _⟩
        | cons next rest =>
            obtain ⟨type, htype⟩ := hpath [key] (next :: rest) rfl (by simp) (by simp)
            have hleft := hknown.1 true type (hname ▸ hkey ▸ htype)
            have hright := hentry.1 true type (hkey ▸ htype)
            rw [Shape.exists_leads_iff, Shape.exists_leads_iff] at h
            rw [Shape.exists_leads_iff, Entry.merge, (hleft.merge hright).2 rfl]
            have hinner : known.type.Throughout (Entry.Formed expected) (start ++ [key]) :=
              hkey ▸ hname ▸ hknown.2
            have hother : entry.type.Throughout (Entry.Formed expected) (start ++ [key]) :=
              hkey ▸ hentry.2
            exact ih (Shape.throughout_iff.mp hinner) (Shape.throughout_iff.mp hother) hpath.tail h
      refine exists_mem_mergeEntries hentries hothers ?_ ?_ ?_ h
      · intro known entry hknown hentry hname
        exact Entry.Throughout.merge (fun _ _ _ hknown hentry => hknown.merge hentry) hname hknown
          hentry
      · rintro known entry hknown hentry hname ⟨hkey, hleads⟩
        exact ⟨hname ▸ hkey, hmerge known entry hknown hentry hname (hname ▸ hkey) (.inl hleads)⟩
      · rintro known entry hknown hentry hname ⟨hkey, hleads⟩
        exact ⟨hkey, hmerge known entry hknown hentry hname hkey (.inr hleads)⟩

end

end OperationLibrary
