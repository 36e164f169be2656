import Mathlib.Data.List.Nodup
import OperationLibrary.Proofs.ShapePlaces

/-!
Merging entries, name by name. Lists of entries whose names differ are tables: they are the same if
they have the same names in the same order and the same entry under each name. Merging two of them
appends the names that are new and merges the entries that share a name, so what it does to tables
follows from what it does to two entries.
-/

namespace OperationLibrary

/-! ### Entries of a name -/

/-- The entry with a name. -/
def entryNamed? (entries : List (Entry Shape)) (name : String) : Option (Entry Shape) :=
  entries.find? (·.name == name)

section

variable {entries others : List (Entry Shape)} {entry : Entry Shape} {name : String}

theorem mem_of_entryNamed? (h : entryNamed? entries name = some entry) : entry ∈ entries :=
  List.mem_of_find?_eq_some h

theorem name_of_entryNamed? (h : entryNamed? entries name = some entry) : entry.name = name := by
  simpa using List.find?_some h

theorem entryNamed?_eq_none_iff :
    entryNamed? entries name = none ↔ name ∉ entries.map Entry.name := by
  simp [entryNamed?]

/-- Where names differ an entry is the one of its name. -/
theorem entryNamed?_of_mem (hnames : (entries.map Entry.name).Nodup) (h : entry ∈ entries) :
    entryNamed? entries entry.name = some entry := by
  cases hfound : entryNamed? entries entry.name with
  | none => exact absurd (List.mem_map_of_mem h) (entryNamed?_eq_none_iff.mp hfound)
  | some found =>
      rw [List.inj_on_of_nodup_map hnames (mem_of_entryNamed? hfound) h
        (name_of_entryNamed? hfound)]

theorem entryNamed?_eq_some_iff (hnames : (entries.map Entry.name).Nodup) :
    entryNamed? entries name = some entry ↔ entry ∈ entries ∧ entry.name = name := by
  constructor
  · intro h
    exact ⟨mem_of_entryNamed? h, name_of_entryNamed? h⟩
  · rintro ⟨hmem, rfl⟩
    exact entryNamed?_of_mem hnames hmem

theorem entryNamed?_cons :
    entryNamed? (entry :: entries) name =
      if entry.name = name then some entry else entryNamed? entries name := by
  rw [entryNamed?, List.find?_cons]
  cases h : entry.name == name with
  | true => rw [if_pos (beq_iff_eq.mp h)]
  | false => rw [if_neg (beq_eq_false_iff_ne.mp h), entryNamed?]

/-- Tables with the same names in the same order and the same entry under each name are the same. -/
theorem eq_of_entryNamed?_eq (hnames : (entries.map Entry.name).Nodup)
    (hsame : entries.map Entry.name = others.map Entry.name)
    (h : ∀ name, entryNamed? entries name = entryNamed? others name) : entries = others := by
  induction entries generalizing others with
  | nil => exact (List.map_eq_nil_iff.mp hsame.symm).symm
  | cons entry entries ih =>
      cases others with
      | nil => simp at hsame
      | cons other others =>
          rw [List.map_cons, List.map_cons, List.cons.injEq] at hsame
          rw [List.map_cons, List.nodup_cons] at hnames
          have hfirst : entry = other := by
            simpa [entryNamed?_cons, hsame.1] using h entry.name
          subst hfirst
          have hrest : ∀ name, entryNamed? entries name = entryNamed? others name := by
            intro name
            by_cases hname : entry.name = name
            · subst hname
              rw [entryNamed?_eq_none_iff.mpr hnames.1,
                entryNamed?_eq_none_iff.mpr (hsame.2 ▸ hnames.1)]
            · simpa [entryNamed?_cons, hname] using h name
          rw [ih hnames.2 hsame.2 hrest]

/-! ### Adding an entry -/

theorem map_name_addEntry :
    (addEntry entries entry).map Entry.name =
      if entry.name ∈ entries.map Entry.name then entries.map Entry.name
      else entries.map Entry.name ++ [entry.name] := by
  rw [addEntry]
  by_cases h : entry.name ∈ entries.map Entry.name
  · have hany : entries.any (·.name == entry.name) = true := by simpa using h
    rw [if_pos h, if_pos hany, List.map_map]
    refine List.map_congr_left fun known _ => ?_
    by_cases hname : known.name = entry.name <;> simp [hname, Entry.merge]
  · have hany : entries.any (·.name == entry.name) = false := by simpa using h
    rw [if_neg h, hany]
    simp

theorem nodup_addEntry (h : (entries.map Entry.name).Nodup) :
    ((addEntry entries entry).map Entry.name).Nodup := by
  rw [map_name_addEntry]
  split
  · exact h
  · rename_i hfresh
    exact (List.perm_append_singleton entry.name _).nodup_iff.mpr (List.nodup_cons.mpr ⟨hfresh, h⟩)

theorem entryNamed?_addEntry :
    entryNamed? (addEntry entries entry) name =
      if name = entry.name then Option.merge Entry.merge (entryNamed? entries name) (some entry)
      else entryNamed? entries name := by
  rw [addEntry]
  by_cases h : entry.name ∈ entries.map Entry.name
  · have hany : entries.any (·.name == entry.name) = true := by simpa using h
    -- an entry keeps its name when another one is merged into it
    have hkeeps (known : Entry Shape) :
        (if known.name == entry.name then known.merge entry else known).name = known.name := by
      by_cases hname : known.name = entry.name <;> simp [hname, Entry.merge]
    rw [if_pos hany, entryNamed?, List.find?_map]
    simp only [Function.comp_def, hkeeps]
    rw [← entryNamed?]
    cases hfound : entryNamed? entries name with
    | none =>
        have hother : name ≠ entry.name := by
          rintro rfl
          exact entryNamed?_eq_none_iff.mp hfound h
        rw [if_neg hother, Option.map_none]
    | some known =>
        rw [Option.map_some, name_of_entryNamed? hfound]
        by_cases hname : name = entry.name <;> simp [hname, Option.merge]
  · have hany : entries.any (·.name == entry.name) = false := by simpa using h
    rw [hany, if_neg Bool.false_ne_true, entryNamed?, List.find?_append, ← entryNamed?,
      ← entryNamed?, entryNamed?_cons]
    by_cases hname : name = entry.name
    · subst hname
      rw [if_pos rfl, if_pos rfl, entryNamed?_eq_none_iff.mpr h]
      rfl
    · rw [if_neg hname, if_neg (Ne.symm hname)]
      exact Option.or_none

end

/-! ### Merging tables -/

section

variable {entries others : List (Entry Shape)} {name : String}

theorem nodup_mergeEntries (h : (entries.map Entry.name).Nodup) :
    ((mergeEntries entries others).map Entry.name).Nodup := by
  induction others generalizing entries with
  | nil => rwa [mergeEntries_nil]
  | cons entry others ih =>
      rw [mergeEntries_cons]
      exact ih (nodup_addEntry h)

theorem nodup_mergeEntries_nil : ((mergeEntries [] others).map Entry.name).Nodup :=
  nodup_mergeEntries List.nodup_nil

/-- What stands under a name is what stood there on both sides, merged, or on one of them. -/
theorem entryNamed?_mergeEntries (h : (others.map Entry.name).Nodup) :
    entryNamed? (mergeEntries entries others) name =
      Option.merge Entry.merge (entryNamed? entries name) (entryNamed? others name) := by
  induction others generalizing entries with
  | nil =>
      rw [mergeEntries_nil]
      exact Option.merge_none_right.symm
  | cons entry others ih =>
      rw [List.map_cons, List.nodup_cons] at h
      rw [mergeEntries_cons, ih h.2, entryNamed?_addEntry, entryNamed?_cons]
      by_cases hname : name = entry.name
      · subst hname
        rw [if_pos rfl, if_pos rfl, entryNamed?_eq_none_iff.mpr h.1, Option.merge_none_right]
      · rw [if_neg hname, if_neg (Ne.symm hname)]

/-- The names are those of the left side, and behind them the new ones of the right side. -/
theorem map_name_mergeEntries (h : (others.map Entry.name).Nodup) :
    (mergeEntries entries others).map Entry.name =
      entries.map Entry.name ++
        (others.map Entry.name).filter fun name => name ∉ entries.map Entry.name := by
  induction others generalizing entries with
  | nil => simp [mergeEntries_nil]
  | cons entry others ih =>
      rw [List.map_cons, List.nodup_cons] at h
      rw [mergeEntries_cons, ih h.2, map_name_addEntry, List.map_cons]
      by_cases hknown : entry.name ∈ entries.map Entry.name
      · rw [if_pos hknown, List.filter_cons_of_neg (by simpa using hknown)]
      · rw [if_neg hknown, List.filter_cons_of_pos (by simpa using hknown), List.append_assoc,
          List.singleton_append]
        congr 2
        -- the name that was added does not come again
        refine List.filter_congr fun name hname => ?_
        have hother : name ≠ entry.name := fun hsame => h.1 (hsame ▸ hname)
        simp [hother]

/-- The entry that a merged table has is what merging its two sides makes. -/
theorem merge_entryNamed?_of_mem {entry : Entry Shape} (hentries : (entries.map Entry.name).Nodup)
    (hothers : (others.map Entry.name).Nodup) (h : entry ∈ mergeEntries entries others) :
    Option.merge Entry.merge (entryNamed? entries entry.name) (entryNamed? others entry.name) =
      some entry := by
  rw [← entryNamed?_mergeEntries hothers]
  exact entryNamed?_of_mem (nodup_mergeEntries hentries) h

theorem merge_mem_mergeEntries {known other : Entry Shape}
    (hentries : (entries.map Entry.name).Nodup) (hothers : (others.map Entry.name).Nodup)
    (hknown : known ∈ entries) (hother : other ∈ others) (hname : known.name = other.name) :
    known.merge other ∈ mergeEntries entries others := by
  have hfound :
      entryNamed? (mergeEntries entries others) other.name = some (known.merge other) := by
    rw [entryNamed?_mergeEntries hothers, entryNamed?_of_mem hothers hother, ← hname,
      entryNamed?_of_mem hentries hknown]
    rfl
  exact mem_of_entryNamed? hfound

/-- An entry may be absent if it may be absent on every side that has it. -/
theorem nullable_iff_of_mem_mergeEntries {entry : Entry Shape}
    (hentries : (entries.map Entry.name).Nodup) (hothers : (others.map Entry.name).Nodup)
    (h : entry ∈ mergeEntries entries others) :
    entry.nullable = true ↔
      ∀ side ∈ entries ++ others, side.name = entry.name → side.nullable = true := by
  have hmerged := merge_entryNamed?_of_mem hentries hothers h
  have hsides : (∀ side ∈ entries ++ others, side.name = entry.name → side.nullable = true) ↔
      (∀ side, entryNamed? entries entry.name = some side → side.nullable = true) ∧
        ∀ side, entryNamed? others entry.name = some side → side.nullable = true := by
    simp only [entryNamed?_eq_some_iff hentries, entryNamed?_eq_some_iff hothers, and_imp,
      List.forall_mem_append]
  rw [hsides]
  cases hknown : entryNamed? entries entry.name with
  | none =>
      rw [hknown, Option.merge_none_left] at hmerged
      simp [hmerged]
  | some known =>
      cases hother : entryNamed? others entry.name with
      | none =>
          rw [hknown, hother, Option.merge_none_right] at hmerged
          simp [Option.some.inj hmerged]
      | some other =>
          rw [hknown, hother] at hmerged
          simp [← Option.some.inj hmerged, Entry.merge]

/-- A table that is merged with itself stays as it is if each entry does. -/
theorem mergeEntries_self_iff (h : (entries.map Entry.name).Nodup) :
    mergeEntries entries entries = entries ↔ ∀ entry ∈ entries, entry.merge entry = entry := by
  constructor
  · intro hsame entry hentry
    have hmerged : entryNamed? (mergeEntries entries entries) entry.name =
        some (entry.merge entry) := by
      rw [entryNamed?_mergeEntries h, entryNamed?_of_mem h hentry]
      rfl
    rw [hsame, entryNamed?_of_mem h hentry] at hmerged
    exact (Option.some.inj hmerged).symm
  · intro hself
    refine eq_of_entryNamed?_eq (nodup_mergeEntries h) ?_ fun name => ?_
    · rw [map_name_mergeEntries h]
      simp
    · rw [entryNamed?_mergeEntries h]
      cases hfound : entryNamed? entries name with
      | none => rfl
      | some entry => exact congrArg some (hself entry (mem_of_entryNamed? hfound))

theorem mergeEntries_append (first second : List (Entry Shape)) :
    mergeEntries entries (first ++ second) = mergeEntries (mergeEntries entries first) second := by
  induction first generalizing entries with
  | nil => rw [List.nil_append, mergeEntries_nil]
  | cons entry first ih => rw [List.cons_append, mergeEntries_cons, ih, mergeEntries_cons]

/-- Merging tables is associative if merging the entries that share a name is. -/
theorem mergeEntries_assoc {first second third : List (Entry Shape)}
    (hfirst : (first.map Entry.name).Nodup) (hsecond : (second.map Entry.name).Nodup)
    (hthird : (third.map Entry.name).Nodup)
    (h : ∀ left ∈ first, ∀ middle ∈ second, ∀ right ∈ third, left.name = middle.name →
      middle.name = right.name →
        (left.merge middle).merge right = left.merge (middle.merge right)) :
    mergeEntries (mergeEntries first second) third =
      mergeEntries first (mergeEntries second third) := by
  refine eq_of_entryNamed?_eq (nodup_mergeEntries (nodup_mergeEntries hfirst)) ?_ fun name => ?_
  · rw [map_name_mergeEntries hthird, map_name_mergeEntries hsecond,
      map_name_mergeEntries (nodup_mergeEntries hsecond), map_name_mergeEntries hthird,
      List.filter_append, List.append_assoc, List.filter_filter]
    congr 2
    refine List.filter_congr fun name _ => ?_
    by_cases hname : name ∈ first.map Entry.name <;> simp [hname, -List.mem_map]
  · rw [entryNamed?_mergeEntries hthird, entryNamed?_mergeEntries hsecond,
      entryNamed?_mergeEntries (nodup_mergeEntries hsecond), entryNamed?_mergeEntries hthird]
    cases hleft : entryNamed? first name with
    | none => rw [Option.merge_none_left, Option.merge_none_left]
    | some left =>
        cases hmiddle : entryNamed? second name with
        | none => rw [Option.merge_none_right, Option.merge_none_left]
        | some middle =>
            cases hright : entryNamed? third name with
            | none => rw [Option.merge_none_right, Option.merge_none_right]
            | some right =>
                have hnames : left.name = middle.name ∧ middle.name = right.name := by
                  simp [name_of_entryNamed? hleft, name_of_entryNamed? hmiddle,
                    name_of_entryNamed? hright]
                exact congrArg some (h left (mem_of_entryNamed? hleft) middle
                  (mem_of_entryNamed? hmiddle) right (mem_of_entryNamed? hright) hnames.1 hnames.2)

end

end OperationLibrary
