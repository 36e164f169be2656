import OperationLibrary.Proofs.KeyedSort
import OperationLibrary.Proofs.Reachability

/-!
The fragments of a definition are the closure of its spreads. Both walks, the one that goes by
levels and the one that follows at once, find exactly the fragments that spreads lead to, each once
and whatever cycles there are. The persistable form of an operation has the same fragments as the
record of the operation, put in order of their names.
-/

namespace OperationLibrary

open Syntax

/-- A fragment is the one that the table has under its name. Operations stand in no table. -/
def FragmentTable.HasOwn (table : FragmentTable) : Executable → Prop
  | .operation _ => True
  | .fragment f => table.get? f.name = some f

/-- By following spreads through the table one comes from the selections to the fragment. -/
def FollowedTo (table : FragmentTable) (selections : List Selection) (fragment : Fragment) : Prop :=
  ∃ first, SpreadsTo table selections first ∧
    Relation.ReflTransGen (fun inner next => SpreadsTo table inner.selections next) first fragment

section

variable {table : FragmentTable} {definition : Executable} {fragment : Fragment}

/-- The walk by levels finds what the selections lead to, the definition itself apart. -/
theorem mem_fragmentDependencies_iff (hown : table.HasOwn definition) :
    fragment ∈ fragmentDependencies table definition ↔
      Reaches table definition.selections fragment ∧ definition ≠ .fragment fragment := by
  have hself : ∀ fragment, definition.fragmentName? = some fragment.name →
      table.get? fragment.name = some fragment → definition = .fragment fragment := by
    intro fragment hname hget
    cases definition with
    | operation o => exact nomatch hname
    | fragment f =>
        obtain hname : f.name = fragment.name := Option.some.inj hname
        have hf : table.get? fragment.name = some f := hname ▸ hown
        rw [Option.some.inj (hf.symm.trans hget)]
  have hgathers := gathers_reachByLevel table definition.fragmentName? []
    (spreadNames definition.selections)
  have hmem : fragment ∈ fragmentDependencies table definition ↔
      Reaches table definition.selections fragment ∧
        definition.fragmentName? ≠ some fragment.name :=
    hgathers.mem_iff fun own hname hget => by
      rw [hself own hname hget]
      rfl
  refine hmem.trans (and_congr_right fun hreach => not_congr ⟨fun hname => ?_, fun hsame => ?_⟩)
  · exact hself fragment hname hreach.get?_eq
  · rw [hsame]
    rfl

theorem names_nodup_fragmentDependencies (table : FragmentTable) (definition : Executable) :
    ((fragmentDependencies table definition).map Fragment.name).Nodup :=
  (gathers_reachByLevel table definition.fragmentName? [] _).names_nodup

/-- The walk that follows at once finds what the selections lead to. -/
theorem mem_reachAtOnce_iff {selections : List Selection} :
    fragment ∈ (reachAtOnce table [] (spreadNames selections)).value ↔
      Reaches table selections fragment :=
  ((gathers_reachAtOnce table [] (spreadNames selections)).mem_iff (by simp)).trans
    (and_iff_left (by simp))

theorem mem_neededFragments_iff {operation : Operation} :
    fragment ∈ (neededFragments table operation).value ↔
      Reaches table operation.selections fragment :=
  mem_reachAtOnce_iff

end

/-- **The closures are exact and agree.** The dependencies of an operation, or of a fragment that
the table has under its name, are the other fragments that one comes to by following spreads through
the table, each once. The persistable form of an operation has exactly the dependencies of the
operation in the table where the last fragment of a name counts, in strictly ascending order of
their names without regard to case and then with it. -/
theorem fragment_closures_exact :
    (∀ (table : FragmentTable) (definition : Executable), table.HasOwn definition →
      ((fragmentDependencies table definition).map Fragment.name).Nodup ∧
        ∀ fragment, fragment ∈ fragmentDependencies table definition ↔
          FollowedTo table definition.selections fragment ∧ definition ≠ .fragment fragment) ∧
    ∀ (document : Document) (operation : Operation),
      let fragments := (persistableOperation document operation).value.fragments
      (∀ fragment, fragment ∈ fragments ↔
        fragment ∈ fragmentDependencies document.lastFragments (.operation operation)) ∧
      fragments.Pairwise fun left right => nameKey left.name < nameKey right.name := by
  constructor
  · intro table definition hown
    refine ⟨names_nodup_fragmentDependencies table definition, fun fragment => ?_⟩
    exact (mem_fragmentDependencies_iff hown).trans (and_congr_left' reaches_iff)
  · intro document operation fragments
    set needed := (neededFragments document.lastFragments operation).value with hneeded
    have hfragments : fragments = sortByName Fragment.name needed := rfl
    have hnodup : (needed.map Fragment.name).Nodup :=
      (neededFragments_spec document.lastFragments operation).2.1
    refine ⟨fun fragment => ?_, hfragments ▸ pairwise_lt_sortByName hnodup⟩
    have hsame : fragment ∈ fragments ↔ fragment ∈ needed :=
      (List.mergeSort_perm needed _).mem_iff
    rw [hsame, hneeded, mem_neededFragments_iff,
      mem_fragmentDependencies_iff
        (show document.lastFragments.HasOwn (.operation operation) from trivial)]
    exact (and_iff_left (by simp)).symm

namespace CyclicFragments

def leaf : Selection := .field ⟨none, "id", [], []⟩ none

/-- Leads to itself through `friends`, and spreads a fragment that nobody knows. -/
def person : Fragment :=
  ⟨none, "Person", "User", [], [leaf, .spread "Friends" [], .spread "Lost" []]⟩

def friends : Fragment :=
  ⟨none, "Friends", "User", [],
    [.field ⟨none, "friends", [], []⟩
      (some [.inline none [] [.spread "Person" [], .inline (some "User") [] [.spread "Name" []]]])]⟩

def name : Fragment :=
  ⟨none, "Name", "User", [], [.spread "Name" []]⟩

def table : FragmentTable := [name, person, friends]

theorem fragmentDependencies_person :
    fragmentDependencies table (.fragment person) = [friends, name] := by
  simp [fragmentDependencies, reachByLevel_cons, reachByLevel, FragmentTable.get?, spreadNames,
    Selection.spreads, Executable.fragmentName?, Executable.selections, table, person, friends,
    name, leaf]

/-- On a cycle a fragment depends on the others that it leads to, and not on itself. -/
theorem dependencies_of_person :
    table.HasOwn (.fragment person) ∧
      fragmentDependencies table (.fragment person) = [friends, name] ∧
      ((fragmentDependencies table (.fragment person)).map Fragment.name).Nodup ∧
      ∀ fragment, fragment ∈ fragmentDependencies table (.fragment person) ↔
        FollowedTo table person.selections fragment ∧
          Executable.fragment person ≠ .fragment fragment :=
  have hown : table.HasOwn (.fragment person) := rfl
  ⟨hown, fragmentDependencies_person, fragment_closures_exact.1 table (.fragment person) hown⟩

end CyclicFragments

end OperationLibrary
