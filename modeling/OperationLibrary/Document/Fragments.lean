import OperationLibrary.Syntax.Ast
import OperationLibrary.Unseen

/-!
Fragments by name, and the names that selections spread. A table is a list of fragments in which
the first of a name counts; the fragments of a document give two tables, one from the front and
one from the back.
-/

namespace OperationLibrary

open Syntax

mutual

/-- The fragments a selection spreads, at any depth, in the order of the text. -/
def Syntax.Selection.spreads : Selection → List String
  | .field _ none => []
  | .field _ (some selections) => spreadNames selections
  | .spread fragment _ => [fragment]
  | .inline _ _ selections => spreadNames selections

/-- The fragments that selections spread, repeated as often as they are spread. -/
def spreadNames : List Selection → List String
  | [] => []
  | selection :: rest => selection.spreads ++ spreadNames rest

end

abbrev FragmentTable := List Fragment

namespace FragmentTable

/-- The fragment that a name stands for. -/
def get? (table : FragmentTable) (name : String) : Option Fragment :=
  List.find? (·.name == name) table

/-- How many fragments of the table have names that are not among `names`. -/
def unseen (table : FragmentTable) (names : List String) : Nat :=
  OperationLibrary.unseen Fragment.name table names

theorem name_of_get? {table : FragmentTable} {name : String} {fragment : Fragment}
    (h : table.get? name = some fragment) : fragment.name = name := by
  simpa using List.find?_some h

theorem mem_of_get? {table : FragmentTable} {name : String} {fragment : Fragment}
    (h : table.get? name = some fragment) : fragment ∈ table :=
  List.mem_of_find?_eq_some h

/-- A name of the table that is new among `names` leaves fewer fragments unseen. -/
theorem unseen_cons_lt {table : FragmentTable} {names : List String} {name : String}
    {fragment : Fragment} (found : table.get? name = some fragment) (fresh : name ∉ names) :
    table.unseen (name :: names) < table.unseen names :=
  OperationLibrary.unseen_cons_lt found fresh

end FragmentTable

/-- The last fragment of a name counts. -/
def Syntax.Document.lastFragments (document : Document) : FragmentTable :=
  document.fragments.reverse

end OperationLibrary
