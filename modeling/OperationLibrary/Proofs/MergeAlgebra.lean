import OperationLibrary.Proofs.CompatibleShapes

/-!
The algebra of merging. At every place that two shapes share, their merged shape has what is merged
there, and no name is lost. A shape that is merged with itself loses the descriptions of its lists;
and it matters little which side comes first: order and descriptions apart, the sides can be swapped
exactly if they are compatible and their leaves agree.
-/

namespace OperationLibrary

open Relation

/-! ### Merging with itself -/

theorem firstDescription_self (description : Option Explanation) :
    firstDescription description description = description := by
  rw [firstDescription, ite_self]

theorem Entry.merge_self_iff {entry : Entry Shape} :
    entry.merge entry = entry ↔ entry.type.merge entry.type = entry.type := by
  obtain ⟨name, type, nullable, description⟩ := entry
  simp [Entry.merge, firstDescription_self]

namespace Shape

/-! ### Places -/

/-- A step into a shape: to the items of a list, or to an entry of an object. -/
inductive Step where
  | item
  | entry (name : String)

/-- The shape at a place. -/
def at? : Shape → List Step → Option Shape
  | shape, [] => some shape
  | .list item _, .item :: place => item.at? place
  | .object entries _, .entry name :: place =>
    (entryNamed? entries name).bind fun entry => entry.type.at? place
  | _, _ :: _ => none

section

variable {left right shape outer inner : Shape} {place : List Step} {name : String}

theorem at?_item_eq_some_iff : shape.at? (.item :: place) = some inner ↔
    ∃ item description, shape = .list item description ∧ item.at? place = some inner := by
  cases shape with
  | list item description => simp [at?]
  | scalar | enum | object => simp [at?]

theorem at?_entry_eq_some_iff : shape.at? (.entry name :: place) = some inner ↔
    ∃ entries description entry, shape = .object entries description ∧
      entryNamed? entries name = some entry ∧ entry.type.at? place = some inner := by
  cases shape with
  | object entries description => simp [at?, Option.bind_eq_some_iff]
  | scalar | enum | list => simp [at?]

theorem WellKeyed.at? (h : shape.WellKeyed) (hat : shape.at? place = some inner) :
    inner.WellKeyed := by
  induction place generalizing shape with
  | nil =>
      rw [Shape.at?, Option.some.injEq] at hat
      exact hat ▸ h
  | cons step place ih =>
      cases step with
      | item =>
          obtain ⟨item, _, rfl, hitem⟩ := at?_item_eq_some_iff.mp hat
          exact ih (wellKeyed_list_iff.mp h) hitem
      | entry name =>
          obtain ⟨entries, _, entry, rfl, hentry, hbelow⟩ := at?_entry_eq_some_iff.mp hat
          exact ih ((wellKeyed_object_iff.mp h).2 entry (mem_of_entryNamed? hentry)) hbelow

/-- At a place that both sides have, the merged shape has what is merged there. -/
theorem at?_merge (hright : right.WellKeyed) (houter : left.at? place = some outer)
    (hinner : right.at? place = some inner) :
    (left.merge right).at? place = some (outer.merge inner) := by
  induction place generalizing left right with
  | nil =>
      rw [at?, Option.some.injEq] at houter hinner
      rw [at?, houter, hinner]
  | cons step place ih =>
      cases step with
      | item =>
          obtain ⟨item, _, rfl, houter⟩ := at?_item_eq_some_iff.mp houter
          obtain ⟨other, _, rfl, hinner⟩ := at?_item_eq_some_iff.mp hinner
          rw [merge_list]
          exact ih (wellKeyed_list_iff.mp hright) houter hinner
      | entry name =>
          obtain ⟨entries, _, known, rfl, hknown, houter⟩ := at?_entry_eq_some_iff.mp houter
          obtain ⟨others, _, entry, rfl, hentry, hinner⟩ := at?_entry_eq_some_iff.mp hinner
          rw [wellKeyed_object_iff] at hright
          rw [merge_object, at?, entryNamed?_mergeEntries hright.1, hknown, hentry]
          exact ih (hright.2 entry (mem_of_entryNamed? hentry)) houter hinner

/-- No list of a shape has a description. -/
def ListsUndescribed (shape : Shape) : Prop :=
  ∀ place item description, shape.at? place = some (.list item description) → description = none

theorem listsUndescribed_of_isLeaf (h : shape.isLeaf = true) : shape.ListsUndescribed := by
  intro place item description hat
  cases shape with
  | scalar | enum => cases place <;> simp [at?] at hat
  | list | object => cases h

theorem listsUndescribed_list_iff {item : Shape} {description : Option Explanation} :
    (Shape.list item description).ListsUndescribed ↔
      description = none ∧ item.ListsUndescribed := by
  constructor
  · intro h
    exact ⟨h [] item description rfl, fun place => h (.item :: place)⟩
  · rintro ⟨rfl, hitem⟩ place other otherDescription hat
    cases place with
    | nil =>
        cases hat
        rfl
    | cons step place =>
        cases step with
        | item => exact hitem place other otherDescription hat
        | entry => cases hat

theorem listsUndescribed_object_iff {entries : List (Entry Shape)}
    {description : Option Explanation} (hnames : (entries.map Entry.name).Nodup) :
    (Shape.object entries description).ListsUndescribed ↔
      ∀ entry ∈ entries, entry.type.ListsUndescribed := by
  constructor
  · intro h entry hentry place item itemDescription hat
    refine h (.entry entry.name :: place) item itemDescription ?_
    rw [at?, entryNamed?_of_mem hnames hentry]
    exact hat
  · intro h place item itemDescription hat
    cases place with
    | nil => cases hat
    | cons step place =>
        cases step with
        | item => cases hat
        | entry name =>
            obtain ⟨entry, hentry, hbelow⟩ := Option.bind_eq_some_iff.mp hat
            exact h entry (mem_of_entryNamed? hentry) place item itemDescription hbelow

/-- What is merged with itself loses the descriptions of its lists, and nothing else. -/
theorem merge_self_iff (h : shape.WellKeyed) :
    shape.merge shape = shape ↔ shape.ListsUndescribed := by
  induction shape using Shape.entries_induction with
  | scalar | enum =>
      rw [merge_of_isLeaf _ rfl]
      exact iff_of_true rfl (listsUndescribed_of_isLeaf rfl)
  | list item description ih =>
      rw [wellKeyed_list_iff] at h
      rw [merge_list, list.injEq, listsUndescribed_list_iff, ih h, @eq_comm _ none, and_comm]
  | object entries description ih =>
      rw [wellKeyed_object_iff] at h
      rw [merge_object, firstDescription_self, object.injEq, listsUndescribed_object_iff h.1,
        mergeEntries_self_iff h.1, and_iff_left rfl]
      refine forall₂_congr fun entry hentry => ?_
      rw [Entry.merge_self_iff, ih entry hentry (h.2 entry hentry)]

end

/-! ### Swapping the sides -/

/-- Two shapes are the same but for descriptions and the order of entries. -/
inductive Alike : Shape → Shape → Prop
  | scalar (type : String) (description otherDescription : Option Explanation) :
      Alike (.scalar type description) (.scalar type otherDescription)
  | enum (values : List String) (description otherDescription : Option Explanation) :
      Alike (.enum values description) (.enum values otherDescription)
  | list {item other : Shape} (description otherDescription : Option Explanation)
      (items : Alike item other) : Alike (.list item description) (.list other otherDescription)
  | object {entries others : List (Entry Shape)} (description otherDescription : Option Explanation)
      (names : (entries.map Entry.name).Perm (others.map Entry.name))
      (marks : ∀ entry ∈ entries, ∀ other ∈ others, entry.name = other.name →
        entry.nullable = other.nullable)
      (types : ∀ entry ∈ entries, ∀ other ∈ others, entry.name = other.name →
        Alike entry.type other.type) :
      Alike (.object entries description) (.object others otherDescription)

section

variable {left right shape : Shape}

theorem Alike.refl (h : shape.WellKeyed) : shape.Alike shape := by
  induction shape using Shape.entries_induction with
  | scalar type description => exact .scalar type _ _
  | enum values description => exact .enum values _ _
  | list item description ih => exact .list _ _ (ih (wellKeyed_list_iff.mp h))
  | object entries description ih =>
      rw [wellKeyed_object_iff] at h
      -- entries of one name are one entry
      have hsame : ∀ entry ∈ entries, ∀ other ∈ entries, entry.name = other.name → entry = other :=
        fun entry hentry other hother hname => List.inj_on_of_nodup_map h.1 hentry hother hname
      refine .object _ _ (.refl _) ?_ ?_
      · intro entry hentry other hother hname
        rw [hsame entry hentry other hother hname]
      · intro entry hentry other hother hname
        rw [← hsame entry hentry other hother hname]
        exact ih entry hentry (h.2 entry hentry)

theorem map_name_mergeEntries_perm {entries others : List (Entry Shape)}
    (hentries : (entries.map Entry.name).Nodup) (hothers : (others.map Entry.name).Nodup) :
    ((mergeEntries entries others).map Entry.name).Perm
      ((mergeEntries others entries).map Entry.name) := by
  rw [List.perm_ext_iff_of_nodup (nodup_mergeEntries hentries) (nodup_mergeEntries hothers)]
  intro name
  rw [map_name_mergeEntries hothers, map_name_mergeEntries hentries]
  simp only [List.mem_append, List.mem_filter, decide_eq_true_eq]
  tauto

/-- Where leaves agree it makes no other difference which side comes first. -/
theorem alike_merge_swap (hleft : left.WellKeyed) (hright : right.WellKeyed)
    (h : left.Corresponds Alike right) : (left.merge right).Alike (right.merge left) := by
  induction right using Shape.entries_induction generalizing left with
  | scalar | enum =>
      cases h with | leaf hleaf _ hsame =>
      rw [merge_of_isLeaf _ rfl, merge_of_isLeaf _ hleaf]
      exact hsame
  | list item _ ih =>
      obtain ⟨other, _, rfl⟩ := h.exists_list
      simp only [wellKeyed_list_iff, corresponds_list_iff] at hleft hright h
      rw [merge_list, merge_list]
      exact .list _ _ (ih hleft hright h)
  | object others _ ih =>
      obtain ⟨entries, _, rfl⟩ := h.exists_object
      simp only [wellKeyed_object_iff, corresponds_object_iff] at hleft hright h
      have hsame : ∀ entry ∈ mergeEntries entries others, ∀ other ∈ mergeEntries others entries,
          entry.name = other.name →
            entry.nullable = other.nullable ∧ entry.type.Alike other.type := by
        intro entry hentry other hother hname
        have hmerged := merge_entryNamed?_of_mem hleft.1 hright.1 hentry
        have hswapped := merge_entryNamed?_of_mem hright.1 hleft.1 hother
        rw [← hname] at hswapped
        -- what one side lacks is the entry of the other one, whichever is first
        cases hknown : entryNamed? entries entry.name with
        | none =>
            rw [hknown, Option.merge_none_left] at hmerged
            rw [hknown, Option.merge_none_right, hmerged, Option.some.injEq] at hswapped
            rw [← hswapped]
            exact ⟨rfl, .refl (hright.2 entry (mem_of_entryNamed? hmerged))⟩
        | some known =>
            cases hadded : entryNamed? others entry.name with
            | none =>
                rw [hknown, hadded, Option.merge_none_right, Option.some.injEq] at hmerged
                rw [hknown, hadded, Option.merge_none_left, Option.some.injEq] at hswapped
                rw [← hswapped, hmerged]
                exact ⟨rfl, .refl (hleft.2 entry (hmerged ▸ mem_of_entryNamed? hknown))⟩
            | some added =>
                rw [hknown, hadded] at hmerged hswapped
                rw [← Option.some.inj hmerged, ← Option.some.inj hswapped]
                have hnames : known.name = added.name :=
                  (name_of_entryNamed? hknown).trans (name_of_entryNamed? hadded).symm
                have hknown := mem_of_entryNamed? hknown
                have hadded := mem_of_entryNamed? hadded
                exact ⟨Bool.and_comm _ _, ih added hadded (hleft.2 known hknown)
                  (hright.2 added hadded) (h known hknown added hadded hnames)⟩
      rw [merge_object, merge_object]
      refine .object _ _ (map_name_mergeEntries_perm hleft.1 hright.1) ?_ ?_
      · exact fun entry hentry other hother hname => (hsame entry hentry other hother hname).1
      · exact fun entry hentry other hother hname => (hsame entry hentry other hother hname).2

theorem corresponds_of_alike_merge_swap (hleft : left.WellKeyed) (hright : right.WellKeyed)
    (h : (left.merge right).Alike (right.merge left)) : left.Corresponds Alike right := by
  induction right using Shape.entries_induction generalizing left with
  | scalar | enum =>
      rw [merge_of_isLeaf _ rfl] at h
      cases left with
      | scalar | enum => exact .leaf rfl rfl h
      | list | object => cases h
  | list item _ ih =>
      cases left with
      | scalar | enum | object => cases h
      | list other _ =>
          simp only [wellKeyed_list_iff, corresponds_list_iff] at *
          rw [merge_list, merge_list] at h
          cases h with | list _ _ hitems =>
          exact ih hleft hright hitems
  | object others _ ih =>
      cases left with
      | scalar | enum | list => cases h
      | object entries _ =>
          simp only [wellKeyed_object_iff, corresponds_object_iff] at *
          rw [merge_object, merge_object] at h
          cases h with | object _ _ _ _ htypes =>
          -- two entries of one name are merged with one another in either order
          intro entry hentry other hother hname
          refine ih other hother (hleft.2 entry hentry) (hright.2 other hother) ?_
          exact htypes _ (merge_mem_mergeEntries hleft.1 hright.1 hentry hother hname) _
            (merge_mem_mergeEntries hright.1 hleft.1 hother hentry hname.symm) hname.symm

end

end Shape

/-! ### The algebra -/

/-- **The algebra of merging.** Let objects have different names for their entries. (1) Wherever
both sides have an object the merged shape has one, with the names of the left side in their order
and behind them the new names of the right side in theirs, and an entry may be absent if it may be
absent on every side that has it. (2) Merging compatible shapes is associative. (3) A shape is the
same after merging with itself if and only if its lists have no descriptions. (4) Swapping the sides
changes descriptions and the order of entries at most, if and only if the sides are compatible and
their leaves are the same but for descriptions. (5) Compatible entries come to the same however they
are grouped. -/
theorem shape_merge_algebra {left middle right : Shape} (hleft : left.WellKeyed)
    (hmiddle : middle.WellKeyed) (hright : right.WellKeyed) :
    (∀ place entries others description otherDescription,
      left.at? place = some (.object entries description) →
      right.at? place = some (.object others otherDescription) →
      ∃ merged, (left.merge right).at? place =
          some (.object merged (firstDescription description otherDescription)) ∧
        merged.map Entry.name = entries.map Entry.name ++
          (others.map Entry.name).filter (fun name => name ∉ entries.map Entry.name) ∧
        ∀ entry ∈ merged, (entry.nullable = true ↔
          ∀ side ∈ entries ++ others, side.name = entry.name → side.nullable = true)) ∧
    (left.Compatible middle → left.Compatible right → middle.Compatible right →
      (left.merge middle).merge right = left.merge (middle.merge right)) ∧
    (left.merge left = left ↔ left.ListsUndescribed) ∧
    ((left.merge right).Alike (right.merge left) ↔ left.Corresponds Shape.Alike right) ∧
    ∀ entries grouped, Groupable entries → ReflTransGen Grouped entries grouped →
      mergeEntries [] grouped = mergeEntries [] entries := by
  refine ⟨?_, Shape.merge_assoc hleft hmiddle hright, Shape.merge_self_iff hleft,
    ⟨Shape.corresponds_of_alike_merge_swap hleft hright, Shape.alike_merge_swap hleft hright⟩,
    fun entries grouped hgroupable h => (mergeEntries_of_grouped h hgroupable).2⟩
  intro place entries others description otherDescription hentries hothers
  have hnames := (Shape.wellKeyed_object_iff.mp (hleft.at? hentries)).1
  have hnames' := (Shape.wellKeyed_object_iff.mp (hright.at? hothers)).1
  refine ⟨mergeEntries entries others, ?_, map_name_mergeEntries hnames',
    fun entry hentry => nullable_iff_of_mem_mergeEntries hnames hnames' hentry⟩
  rw [Shape.at?_merge hright hentries hothers, Shape.merge_object]

namespace PeopleWithHomes

def text : Shape := .scalar "string" none

/-- Homes with these entries. -/
def homes (entries : List (Entry Shape)) (nullable : Bool) : Entry Shape :=
  ⟨"homes", .list (.object entries none) none, nullable, none⟩

def cities : Entry Shape := homes [⟨"city", text, false, none⟩] true

def streets : Entry Shape := homes [⟨"street", text, true, some (.text "With its number")⟩] false

def codes : Entry Shape := homes [⟨"zip", text, true, none⟩, ⟨"city", text, true, none⟩] true

def people (entry : Entry Shape) : Shape := .object [entry] none

theorem groupable : Groupable [cities, streets, codes] := by
  have htext : text.WellKeyed := .scalar _ _
  have hsame : text.Compatible text := .leaf rfl rfl trivial
  constructor
  · simp [cities, streets, codes, homes, htext]
  · simp [EntriesCompatible, cities, streets, codes, homes, hsame]

theorem wellKeyed_people {entry : Entry Shape} (h : entry ∈ [cities, streets, codes]) :
    (people entry).WellKeyed := by
  simp [people, groupable.keyed entry h]

theorem compatible_people {entry other : Entry Shape} (h : entry ∈ [cities, streets, codes])
    (hother : other ∈ [cities, streets, codes]) (hname : entry.name = other.name) :
    (people entry).Compatible (people other) := by
  simp [people, groupable.compatible entry h other hother hname]

/-- People whose homes are selected three times, in parts. -/
theorem people_merge :
    (∀ entry ∈ [cities, streets, codes], (people entry).WellKeyed) ∧
      Groupable [cities, streets, codes] ∧
      (∃ merged, ((people cities).merge (people codes)).at? [.entry "homes", .item] =
          some (.object merged none) ∧ merged.map Entry.name = ["city", "zip"]) ∧
      ((people cities).merge (people streets)).merge (people codes) =
        (people cities).merge ((people streets).merge (people codes)) ∧
      (people codes).merge (people codes) = people codes ∧
      ((people cities).merge (people codes)).Alike ((people codes).merge (people cities)) ∧
      mergeEntries [] ([cities] ++ mergeEntries [] [streets, codes]) =
        mergeEntries [] [cities, streets, codes] := by
  have hcities : cities ∈ [cities, streets, codes] := by simp
  have hstreets : streets ∈ [cities, streets, codes] := by simp
  have hcodes : codes ∈ [cities, streets, codes] := by simp
  obtain ⟨hplaces, hassoc, -, hswap, hgroups⟩ := shape_merge_algebra (wellKeyed_people hcities)
    (wellKeyed_people hstreets) (wellKeyed_people hcodes)
  obtain ⟨-, -, hself, -, -⟩ := shape_merge_algebra (wellKeyed_people hcodes)
    (wellKeyed_people hcodes) (wellKeyed_people hcodes)
  refine ⟨fun entry => wellKeyed_people, groupable, ?_, ?_, ?_, ?_, ?_⟩
  · obtain ⟨merged, hat, hnames, -⟩ := hplaces [.entry "homes", .item] _ _ none none rfl rfl
    exact ⟨merged, hat, hnames⟩
  · exact hassoc (compatible_people hcities hstreets rfl) (compatible_people hcities hcodes rfl)
      (compatible_people hstreets hcodes rfl)
  · have htext : text.ListsUndescribed := Shape.listsUndescribed_of_isLeaf rfl
    refine hself.mpr ?_
    simp [people, codes, homes, Shape.listsUndescribed_object_iff, Shape.listsUndescribed_list_iff,
      htext]
  · have hsame : text.Corresponds Shape.Alike text := .leaf rfl rfl (.scalar _ _ _)
    refine hswap.mpr ?_
    simp [people, cities, codes, homes, hsame]
  · have hgrouped := Grouped.group [cities] [streets, codes] []
    rw [List.append_nil, List.append_nil] at hgrouped
    exact hgroups _ _ groupable (.single hgrouped)

end PeopleWithHomes

end OperationLibrary
