import OperationLibrary.Keyed
import OperationLibrary.Shape.Basic

/-!
Which type of the target language stands for a scalar. Scalars that are not in the table may be
anything.
-/

namespace OperationLibrary

/-- Scalars by name with the types that stand for them. -/
abbrev ScalarTable := List (String × String)

namespace ScalarTable

def standard : ScalarTable :=
  [("String", "string"), ("ID", "string"), ("Int", "number"), ("Float", "number"),
    ("Boolean", "boolean")]

def register (table : ScalarTable) (scalar type : String) : ScalarTable :=
  Keyed.set scalar type table

/-- The standard table with further types, or others in the place of its own. -/
def withTypes (types : List (String × String)) : ScalarTable :=
  types.foldl (fun table entry => table.register entry.1 entry.2) standard

def type? (table : ScalarTable) (scalar : String) : Option String :=
  Keyed.get? scalar table

def shape (table : ScalarTable) (scalar : String) : Shape :=
  match table.type? scalar with
  | some type => .scalar type none
  | none => .any

end ScalarTable

end OperationLibrary
