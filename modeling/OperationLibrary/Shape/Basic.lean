import OperationLibrary.Explanation

/-!
Shapes describe the values that go into an operation and come out of it: scalars of the target
language, closed sets of strings, lists, and objects with named entries. An entry may be absent,
and every part may carry a description.
-/

namespace OperationLibrary

/-- A named part of an object. -/
structure Entry (σ : Type) where
  name : String
  type : σ
  nullable : Bool
  description : Option Explanation
  deriving Inhabited

inductive Shape where
  | scalar (type : String) (description : Option Explanation)
  | enum (values : List String) (description : Option Explanation)
  | list (item : Shape) (description : Option Explanation)
  | object (entries : List (Entry Shape)) (description : Option Explanation)
  deriving Inhabited

namespace Shape

/-- The shape of values about which nothing is said. -/
def any : Shape := .scalar "any" none

/-- The shape where wrappers nest too deep to be followed. -/
def bailedOut : Shape := .scalar "never" (some (.text "Bailed on potential infinite type nesting"))

end Shape

/-- Sets an entry in a list of entries: a new name goes to the end, and a known name gets the new
entry where it stands. -/
def Entry.set {σ : Type} (entries : List (Entry σ)) (entry : Entry σ) : List (Entry σ) :=
  if entries.any (·.name == entry.name) then
    entries.map fun known => if known.name == entry.name then entry else known
  else entries ++ [entry]

end OperationLibrary
