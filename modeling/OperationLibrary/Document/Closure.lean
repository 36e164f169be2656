import OperationLibrary.Document.Fragments
import OperationLibrary.Notice

/-!
The fragments that a definition needs, directly or through other fragments. Two walks find them:
one goes level by level and keeps the order of discovery, the other follows each spread at once and
reports the spreads that stand for nothing. A name is followed at most once, so both end whatever
cycles the fragments form.
-/

namespace OperationLibrary

open Syntax

/-- Follows `pending` level by level; `found` holds the fragments found so far. -/
def reachByLevel (table : FragmentTable) (own : Option String) (found : List Fragment)
    (pending : List String) : List Fragment :=
  match pending with
  | [] => found
  | name :: rest =>
    if name ∈ found.map Fragment.name ∨ own = some name then reachByLevel table own found rest
    else
      match _h : table.get? name with
      | none => reachByLevel table own found rest
      | some fragment =>
        reachByLevel table own (found ++ [fragment]) (rest ++ spreadNames fragment.selections)
termination_by (table.unseen (found.map Fragment.name), pending.length)
decreasing_by
  · exact Prod.Lex.right _ (by simp)
  · exact Prod.Lex.right _ (by simp)
  · apply Prod.Lex.left
    have fresh : name ∉ found.map Fragment.name := by simp_all
    have less := FragmentTable.unseen_cons_lt _h fresh
    refine Nat.lt_of_le_of_lt (Nat.le_of_eq ?_) less
    unfold FragmentTable.unseen unseen
    congr 2
    funext f
    simp [FragmentTable.name_of_get? _h, or_comm]

/-- What the walk does with the first name that is pending. -/
theorem reachByLevel_cons (table : FragmentTable) (own : Option String) (found : List Fragment)
    (name : String) (rest : List String) :
    reachByLevel table own found (name :: rest) =
      if name ∈ found.map Fragment.name ∨ own = some name then reachByLevel table own found rest
      else match table.get? name with
        | none => reachByLevel table own found rest
        | some fragment =>
          reachByLevel table own (found ++ [fragment])
            (rest ++ spreadNames fragment.selections) := by
  rw [reachByLevel]
  split
  · rfl
  · split <;> simp only [*]

/-- The name of the definition if it is a fragment. -/
def Syntax.Executable.fragmentName? : Executable → Option String
  | .operation _ => none
  | .fragment f => some f.name

/-- The fragments a definition depends on, in order of discovery and without the definition
itself. -/
def fragmentDependencies (table : FragmentTable) (definition : Executable) : List Fragment :=
  reachByLevel table definition.fragmentName? [] (spreadNames definition.selections)

/-- Follows every name of `pending` at once, before the names behind it. -/
def reachAtOnce (table : FragmentTable) (found : List Fragment) (pending : List String) :
    Logged (List Fragment) :=
  match pending with
  | [] => pure found
  | name :: rest =>
    if name ∈ found.map Fragment.name then reachAtOnce table found rest
    else
      match _h : table.get? name with
      | none => do
        Logged.warn .documents
          ("Could not find fragment definition for referenced fragment: " ++ name)
        reachAtOnce table found rest
      | some fragment =>
        reachAtOnce table (found ++ [fragment]) (spreadNames fragment.selections ++ rest)
termination_by (table.unseen (found.map Fragment.name), pending.length)
decreasing_by
  · exact Prod.Lex.right _ (by simp)
  · exact Prod.Lex.right _ (by simp)
  · apply Prod.Lex.left
    have less := FragmentTable.unseen_cons_lt _h (by assumption)
    refine Nat.lt_of_le_of_lt (Nat.le_of_eq ?_) less
    unfold FragmentTable.unseen unseen
    congr 2
    funext f
    simp [FragmentTable.name_of_get? _h, or_comm]

/-- What the walk does with the first name that is pending. -/
theorem reachAtOnce_cons (table : FragmentTable) (found : List Fragment) (name : String)
    (rest : List String) :
    reachAtOnce table found (name :: rest) =
      if name ∈ found.map Fragment.name then reachAtOnce table found rest
      else match table.get? name with
        | none => do
          Logged.warn .documents
            ("Could not find fragment definition for referenced fragment: " ++ name)
          reachAtOnce table found rest
        | some fragment =>
          reachAtOnce table (found ++ [fragment]) (spreadNames fragment.selections ++ rest) := by
  rw [reachAtOnce]
  split
  · rfl
  · split <;> simp only [*]

/-- The fragments an operation needs, with a warning for every spread that no fragment answers. -/
def neededFragments (table : FragmentTable) (operation : Operation) : Logged (List Fragment) :=
  reachAtOnce table [] (spreadNames operation.selections)

end OperationLibrary
