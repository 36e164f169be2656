import Mathlib.Data.List.Basic
import Mathlib.Logic.Relation
import OperationLibrary.Document.Closure

/-!
Where spreads lead. A fragment is reached from selections if they spread it, or if a fragment that
is reached spreads it; names that no fragment answers lead nowhere. Both walks for the fragments
of a definition are measured by this relation.
-/

namespace OperationLibrary

open Syntax

/-! ### Spreads in selections -/

/-- A fragment of this name is spread somewhere in the selections: among them, below a field or in
an inline fragment, at any depth. -/
inductive Spreads (name : String) : List Selection → Prop
  | here {directives : List Directive} {selections : List Selection}
      (mem : .spread name directives ∈ selections) : Spreads name selections
  | field {head : FieldHead} {inner selections : List Selection}
      (mem : .field head (some inner) ∈ selections) (below : Spreads name inner) :
      Spreads name selections
  | inline {condition : Option String} {directives : List Directive}
      {inner selections : List Selection} (mem : .inline condition directives inner ∈ selections)
      (below : Spreads name inner) : Spreads name selections

theorem Spreads.mono {name : String} {selections others : List Selection}
    (h : Spreads name selections) (hsub : ∀ selection ∈ selections, selection ∈ others) :
    Spreads name others := by
  cases h with
  | here mem => exact .here (hsub _ mem)
  | field mem below => exact .field (hsub _ mem) below
  | inline mem below => exact .inline (hsub _ mem) below

theorem mem_spreadNames_of_mem {selection : Selection} {selections : List Selection} {name : String}
    (hmem : selection ∈ selections) (hname : name ∈ selection.spreads) :
    name ∈ spreadNames selections := by
  induction selections with
  | nil => simp at hmem
  | cons first rest ih =>
      rw [spreadNames, List.mem_append]
      rcases List.mem_cons.mp hmem with rfl | hmem
      · exact .inl hname
      · exact .inr (ih hmem)

/-- The names that are gathered from selections are those that are spread in them. -/
theorem mem_spreadNames_iff {name : String} {selections : List Selection} :
    name ∈ spreadNames selections ↔ Spreads name selections := by
  constructor
  · refine spreadNames.induct (fun selection => name ∈ selection.spreads → Spreads name [selection])
      (fun selections => name ∈ spreadNames selections → Spreads name selections)
      ?leaf ?field ?spread ?inline ?nil ?cons selections
    case leaf => simp [Selection.spreads]
    case field =>
      intro head inner ih hname
      exact .field (List.mem_singleton.mpr rfl) (ih (by simpa [Selection.spreads] using hname))
    case spread =>
      intro fragment directives hname
      obtain rfl : name = fragment := by simpa [Selection.spreads] using hname
      exact .here (List.mem_singleton.mpr rfl)
    case inline =>
      intro condition directives inner ih hname
      exact .inline (List.mem_singleton.mpr rfl) (ih (by simpa [Selection.spreads] using hname))
    case nil => simp [spreadNames]
    case cons =>
      intro first rest ihFirst ihRest hname
      rcases List.mem_append.mp (by simpa [spreadNames] using hname) with hfirst | hrest
      · exact (ihFirst hfirst).mono (by simp)
      · exact (ihRest hrest).mono (by simp +contextual)
  · intro h
    induction h with
    | here mem => exact mem_spreadNames_of_mem mem (by simp [Selection.spreads])
    | field mem _ ih => exact mem_spreadNames_of_mem mem (by simpa [Selection.spreads] using ih)
    | inline mem _ ih => exact mem_spreadNames_of_mem mem (by simpa [Selection.spreads] using ih)

/-! ### Fragments that are reached -/

/-- Spreads lead from `selections` to a fragment, directly or through other fragments. -/
inductive Reaches (table : FragmentTable) (selections : List Selection) : Fragment → Prop
  | direct {name : String} {fragment : Fragment} (spread : name ∈ spreadNames selections)
      (found : table.get? name = some fragment) : Reaches table selections fragment
  | through {inner : Fragment} {name : String} {fragment : Fragment}
      (reached : Reaches table selections inner) (spread : name ∈ spreadNames inner.selections)
      (found : table.get? name = some fragment) : Reaches table selections fragment

/-- No fragment of the table leads back to itself. -/
def FragmentTable.Acyclic (table : FragmentTable) : Prop :=
  ∀ name fragment, table.get? name = some fragment → ¬ Reaches table fragment.selections fragment

namespace Reaches

variable {table : FragmentTable} {selections : List Selection} {inner fragment : Fragment}

/-- A fragment that is reached is the one its name stands for. -/
theorem get?_eq (h : Reaches table selections fragment) :
    table.get? fragment.name = some fragment := by
  cases h with
  | direct _ found => rwa [FragmentTable.name_of_get? found]
  | through _ _ found => rwa [FragmentTable.name_of_get? found]

theorem trans (h₁ : Reaches table selections inner)
    (h₂ : Reaches table inner.selections fragment) : Reaches table selections fragment := by
  induction h₂ with
  | direct spread found => exact .through h₁ spread found
  | through _ spread found ih => exact .through ih spread found

/-- What is reached from some of the selections is reached from all of them. -/
theorem mono {others : List Selection}
    (hsub : ∀ name ∈ spreadNames selections, name ∈ spreadNames others)
    (h : Reaches table selections fragment) : Reaches table others fragment := by
  induction h with
  | direct spread found => exact .direct (hsub _ spread) found
  | through _ spread found ih => exact .through ih spread found

end Reaches

/-- The selections spread a name, and the fragment is what the table has under it. -/
def SpreadsTo (table : FragmentTable) (selections : List Selection) (fragment : Fragment) : Prop :=
  ∃ name, Spreads name selections ∧ table.get? name = some fragment

/-- What selections reach is what they spread and everything that this leads to. -/
theorem reaches_iff {table : FragmentTable} {selections : List Selection} {fragment : Fragment} :
    Reaches table selections fragment ↔
      ∃ first, SpreadsTo table selections first ∧
        Relation.ReflTransGen (fun inner next => SpreadsTo table inner.selections next) first
          fragment := by
  constructor
  · intro h
    induction h with
    | direct spread found => exact ⟨_, ⟨_, mem_spreadNames_iff.mp spread, found⟩, .refl⟩
    | through _ spread found ih =>
        obtain ⟨first, hfirst, hlead⟩ := ih
        exact ⟨first, hfirst, hlead.tail ⟨_, mem_spreadNames_iff.mp spread, found⟩⟩
  · rintro ⟨first, ⟨name, spread, found⟩, hlead⟩
    induction hlead with
    | refl => exact .direct (mem_spreadNames_iff.mpr spread) found
    | tail _ hlast ih =>
        obtain ⟨next, spread, found⟩ := hlast
        exact .through ih (mem_spreadNames_iff.mpr spread) found

/-- One fragment is reached from another one by one or more spreads. -/
theorem reaches_iff_transGen {table : FragmentTable} {inner fragment : Fragment} :
    Reaches table inner.selections fragment ↔
      Relation.TransGen (fun inner next => SpreadsTo table inner.selections next) inner
        fragment := by
  rw [reaches_iff, Relation.TransGen.head'_iff]

/-! ### Tables without repeated names -/

/-- Under different names every fragment of a table is the one that its name stands for. -/
theorem FragmentTable.get?_of_mem {table : FragmentTable}
    (hnodup : (table.map Fragment.name).Nodup) {fragment : Fragment} (hmem : fragment ∈ table) :
    table.get? fragment.name = some fragment := by
  induction table with
  | nil => simp at hmem
  | cons first rest ih =>
      rw [List.map_cons, List.nodup_cons] at hnodup
      rcases List.mem_cons.mp hmem with rfl | hrest
      · exact List.find?_cons_of_pos (by simp)
      · have hne : first.name ≠ fragment.name := fun hsame =>
          hnodup.1 (hsame ▸ List.mem_map_of_mem hrest)
        rw [FragmentTable.get?, List.find?_cons_of_neg (by simpa using hne)]
        exact ih hnodup.2 hrest

/-! ### What is found and what is pending -/

/-- The spreads of the fragments found so far lead to fragments that are found or pending. -/
def ClosedUpTo (table : FragmentTable) (found : List Fragment) (pending : List String) : Prop :=
  ∀ inner ∈ found, ∀ name ∈ spreadNames inner.selections, ∀ fragment,
    table.get? name = some fragment → fragment ∈ found ∨ name ∈ pending

/-- Every fragment of a list is the one its name stands for in the table. -/
def FromTable (table : FragmentTable) (found : List Fragment) : Prop :=
  ∀ fragment ∈ found, table.get? fragment.name = some fragment

section

variable {table : FragmentTable} {found : List Fragment} {name : String} {fragment : Fragment}

theorem FromTable.mem_of_name_mem (h : FromTable table found)
    (hname : name ∈ found.map Fragment.name) (hget : table.get? name = some fragment) :
    fragment ∈ found := by
  obtain ⟨known, hknown, rfl⟩ := List.mem_map.mp hname
  have hsame : known = fragment := by simpa [h known hknown] using hget
  exact hsame ▸ hknown

theorem FromTable.concat (h : FromTable table found) (hget : table.get? name = some fragment) :
    FromTable table (found ++ [fragment]) := by
  intro other hother
  rcases List.mem_append.mp hother with hother | hother
  · exact h other hother
  · rw [List.mem_singleton.mp hother, FragmentTable.name_of_get? hget]
    exact hget

/-- A fragment with a new name leaves the names of a list different. -/
theorem names_nodup_concat (hnodup : (found.map Fragment.name).Nodup)
    (hget : table.get? name = some fragment) (hfresh : name ∉ found.map Fragment.name) :
    ((found ++ [fragment]).map Fragment.name).Nodup := by
  rw [List.map_append, List.map_singleton, FragmentTable.name_of_get? hget]
  refine List.nodup_append.mpr ⟨hnodup, by simp, fun known hknown other hother => ?_⟩
  rw [List.mem_singleton.mp hother]
  exact fun hsame => hfresh (hsame ▸ hknown)

namespace ClosedUpTo

variable {pending rest : List String}

theorem mono (h : ClosedUpTo table found pending) (hsub : ∀ name ∈ pending, name ∈ rest) :
    ClosedUpTo table found rest := fun inner hinner name hname fragment hget =>
  (h inner hinner name hname fragment hget).imp_right (hsub name)

/-- A name need not be pending if its fragment, where there is one, is found. -/
theorem drop (h : ClosedUpTo table found (name :: rest))
    (hname : ∀ fragment, table.get? name = some fragment → fragment ∈ found) :
    ClosedUpTo table found rest := by
  intro inner hinner other hother fragment hget
  rcases h inner hinner other hother fragment hget with hfound | hpending
  · exact .inl hfound
  · rcases List.mem_cons.mp hpending with rfl | hrest
    · exact .inl (hname fragment hget)
    · exact .inr hrest

/-- Finding the fragment of a pending name makes the names that it spreads pending. -/
theorem enter (h : ClosedUpTo table found (name :: rest))
    (hget : table.get? name = some fragment) :
    ClosedUpTo table (found ++ [fragment]) (rest ++ spreadNames fragment.selections) := by
  intro inner hinner other hother target htarget
  rcases List.mem_append.mp hinner with hinner | hinner
  · rcases h inner hinner other hother target htarget with hfound | hpending
    · exact .inl (List.mem_append_left _ hfound)
    · rcases List.mem_cons.mp hpending with rfl | hrest
      · rw [hget, Option.some.injEq] at htarget
        exact .inl (by simp [htarget])
      · exact .inr (List.mem_append_left _ hrest)
  · rw [List.mem_singleton.mp hinner] at hother
    exact .inr (List.mem_append_right _ hother)

end ClosedUpTo

end

/-! ### Gathering fragments

Both walks gather fragments: they deal with the pending names one by one and differ only in where
they put the names that a new fragment brings in. What they find is a matter of this relation. -/

/-- From the fragments found and the names pending, passing over the name `own`, one ends up with
these fragments. A name that is found already, or that no fragment answers, is dropped. -/
inductive Gathers (table : FragmentTable) (own : Option String) :
    List Fragment → List String → List Fragment → Prop
  | done (found : List Fragment) : Gathers table own found [] found
  | drop {found result : List Fragment} {name : String} {rest : List String}
      (reason : name ∈ found.map Fragment.name ∨ own = some name ∨ table.get? name = none)
      (next : Gathers table own found rest result) : Gathers table own found (name :: rest) result
  | enter {found result : List Fragment} {name : String} {rest pending : List String}
      {fragment : Fragment} (fresh : name ∉ found.map Fragment.name) (other : own ≠ some name)
      (known : table.get? name = some fragment)
      (brings : ∀ name, name ∈ pending ↔ name ∈ rest ∨ name ∈ spreadNames fragment.selections)
      (next : Gathers table own (found ++ [fragment]) pending result) :
      Gathers table own found (name :: rest) result

theorem gathers_reachByLevel (table : FragmentTable) (own : Option String)
    (found : List Fragment) (pending : List String) :
    Gathers table own found pending (reachByLevel table own found pending) := by
  fun_induction reachByLevel table own found pending with
  | case1 found => exact .done found
  | case2 found name rest hskip ih => exact .drop (hskip.imp_right .inl) ih
  | case3 found name rest _ hnone ih => exact .drop (.inr (.inr hnone)) ih
  | case4 found name rest hskip fragment hget ih =>
      exact .enter (fun h => hskip (.inl h)) (fun h => hskip (.inr h)) hget (by simp) ih

theorem gathers_reachAtOnce (table : FragmentTable) (found : List Fragment)
    (pending : List String) :
    Gathers table none found pending (reachAtOnce table found pending).value := by
  fun_induction reachAtOnce table found pending with
  | case1 found => exact .done found
  | case2 found name rest hseen ih => exact .drop (.inl hseen) ih
  | case3 found name rest _ hnone ih => exact .drop (.inr (.inr hnone)) ih
  | case4 found name rest hfresh fragment hget ih =>
      exact .enter hfresh (by simp) hget (by simp [or_comm]) ih

namespace Gathers

variable {table : FragmentTable} {own : Option String} {found result : List Fragment}
  {pending : List String} {selections : List Selection} {fragment : Fragment}

/-- Whatever holds of the fragments found so far and passes along spreads, those of `own` apart,
holds of all fragments that are gathered. -/
theorem forall_mem {P : Fragment → Prop} (h : Gathers table own found pending result)
    (hfound : ∀ fragment ∈ found, P fragment)
    (hpending : ∀ name ∈ pending, own ≠ some name → ∀ fragment,
      table.get? name = some fragment → P fragment)
    (hspread : ∀ inner, P inner → ∀ name ∈ spreadNames inner.selections, own ≠ some name →
      ∀ fragment, table.get? name = some fragment → P fragment) :
    ∀ fragment ∈ result, P fragment := by
  induction h with
  | done found => exact hfound
  | drop _ _ ih =>
      exact ih hfound fun other hother => hpending other (List.mem_cons_of_mem _ hother)
  | enter _ other known brings _ ih =>
      have hnew := hpending _ List.mem_cons_self other _ known
      apply ih
      · intro target htarget
        rcases List.mem_append.mp htarget with h | h
        · exact hfound target h
        · rw [List.mem_singleton.mp h]
          exact hnew
      · intro target htarget
        rcases (brings target).mp htarget with h | h
        · exact hpending target (List.mem_cons_of_mem _ h)
        · exact hspread _ hnew target h

/-- One ends up with fragments of the table under different names, with all that was found
or pending but `own`, and closed under spreads. -/
theorem spec (h : Gathers table own found pending result) (htable : FromTable table found)
    (hnodup : (found.map Fragment.name).Nodup)
    (hclosed : ClosedUpTo table found (pending ++ own.toList)) :
    FromTable table result ∧ (result.map Fragment.name).Nodup ∧
      ClosedUpTo table result own.toList ∧ (∀ fragment ∈ found, fragment ∈ result) ∧
      ∀ name ∈ pending, own ≠ some name → ∀ fragment, table.get? name = some fragment →
        fragment ∈ result := by
  induction h with
  | done found => exact ⟨htable, hnodup, hclosed, fun _ h => h, by simp⟩
  | @drop found result name rest reason _ ih =>
      -- a dropped name is found already, is the own one, or stands for nothing
      have hknown : own ≠ some name → ∀ fragment, table.get? name = some fragment →
          fragment ∈ found := by
        intro hother fragment hget
        rcases reason with hseen | hown | hnone
        · exact htable.mem_of_name_mem hseen hget
        · exact absurd hown hother
        · simp [hnone] at hget
      have hclosed' : ClosedUpTo table found (rest ++ own.toList) := by
        by_cases hown : own = some name
        · exact hclosed.mono (by simp [hown])
        · exact ClosedUpTo.drop hclosed (hknown hown)
      obtain ⟨h₁, h₂, h₃, h₄, h₅⟩ := ih htable hnodup hclosed'
      refine ⟨h₁, h₂, h₃, h₄, fun other hmem hother fragment hget => ?_⟩
      rcases List.mem_cons.mp hmem with rfl | hmem
      · exact h₄ fragment (hknown hother fragment hget)
      · exact h₅ other hmem hother fragment hget
  | @enter found result name rest pending fragment fresh other known brings _ ih =>
      have hclosed' : ClosedUpTo table (found ++ [fragment]) (pending ++ own.toList) :=
        (ClosedUpTo.enter hclosed known).mono (by simp [brings]; tauto)
      obtain ⟨h₁, h₂, h₃, h₄, h₅⟩ := ih (htable.concat known)
        (names_nodup_concat hnodup known fresh) hclosed'
      refine ⟨h₁, h₂, h₃, fun target htarget => h₄ target (List.mem_append_left _ htarget),
        fun target hmem hother inner hget => ?_⟩
      rcases List.mem_cons.mp hmem with rfl | hmem
      · rw [known, Option.some.injEq] at hget
        exact h₄ inner (by simp [hget])
      · exact h₅ target ((brings target).mpr (.inl hmem)) hother inner hget

/-- Nothing is gathered but what the selections lead to, and never `own`. -/
theorem reaches (h : Gathers table own [] (spreadNames selections) result)
    (hmem : fragment ∈ result) :
    Reaches table selections fragment ∧ own ≠ some fragment.name := by
  refine h.forall_mem (P := fun fragment =>
    Reaches table selections fragment ∧ own ≠ some fragment.name) (by simp) ?_ ?_ fragment hmem
  · intro name hname hother fragment hget
    rw [FragmentTable.name_of_get? hget]
    exact ⟨.direct hname hget, hother⟩
  · intro inner hinner name hname hother fragment hget
    rw [FragmentTable.name_of_get? hget]
    exact ⟨.through hinner.1 hname hget, hother⟩

theorem names_nodup (h : Gathers table own [] pending result) :
    (result.map Fragment.name).Nodup :=
  (h.spec (by simp [FromTable]) (by simp) (by simp [ClosedUpTo])).2.1

/-- What is gathered from selections is exact, provided that `own` stands for a fragment with these
selections: what leads on from there is pending from the start. -/
theorem mem_iff (h : Gathers table own [] (spreadNames selections) result)
    (hown : ∀ fragment, own = some fragment.name → table.get? fragment.name = some fragment →
      fragment.selections = selections) :
    fragment ∈ result ↔ Reaches table selections fragment ∧ own ≠ some fragment.name := by
  refine ⟨h.reaches, ?_⟩
  rintro ⟨hreach, hother⟩
  obtain ⟨-, -, hclosed, -, hpending⟩ :=
    h.spec (by simp [FromTable]) (by simp) (by simp [ClosedUpTo])
  induction hreach with
  | direct spread found =>
      rw [FragmentTable.name_of_get? found] at hother
      exact hpending _ spread hother _ found
  | @through inner name fragment reached spread found ih =>
      rw [FragmentTable.name_of_get? found] at hother
      by_cases hinner : own = some inner.name
      · rw [hown inner hinner reached.get?_eq] at spread
        exact hpending name spread hother fragment found
      · refine (hclosed inner (ih hinner) name spread fragment found).resolve_right fun hmem => ?_
        exact hother (by simpa using hmem)

end Gathers

/-! ### The two walks -/

/-- Dependencies are reached by spreads and are never the definition itself. -/
theorem reaches_of_mem_fragmentDependencies {table : FragmentTable} {definition : Executable}
    {fragment : Fragment} (h : fragment ∈ fragmentDependencies table definition) :
    Reaches table definition.selections fragment ∧
      definition.fragmentName? ≠ some fragment.name :=
  (gathers_reachByLevel table definition.fragmentName? [] _).reaches h

/-- The fragments an operation needs: entries of the table under different names, among them
everything that the operation and they themselves spread. -/
theorem neededFragments_spec (table : FragmentTable) (operation : Operation) :
    let needed := (neededFragments table operation).value
    FromTable table needed ∧ (needed.map Fragment.name).Nodup ∧
      ∀ fragment, Reaches table operation.selections fragment → fragment ∈ needed := by
  have hgathers := gathers_reachAtOnce table [] (spreadNames operation.selections)
  refine ⟨fun fragment hmem => (hgathers.reaches hmem).1.get?_eq, hgathers.names_nodup,
    fun fragment hreach => ?_⟩
  exact (hgathers.mem_iff (by simp)).mpr ⟨hreach, by simp⟩

end OperationLibrary
