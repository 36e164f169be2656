/-!
Lists of keys with values, as insertion leaves them: a new key goes to the end, and a known key
gets its new value where it stands.
-/

namespace OperationLibrary.Keyed

variable {α : Type}

/-- The value of the first entry with this key. -/
def get? (key : String) (entries : List (String × α)) : Option α :=
  entries.lookup key

def contains (key : String) (entries : List (String × α)) : Bool :=
  entries.any (·.1 == key)

/-- Sets the value of a key. -/
def set (key : String) (value : α) (entries : List (String × α)) : List (String × α) :=
  if contains key entries then
    entries.map fun entry => if entry.1 == key then (key, value) else entry
  else entries ++ [(key, value)]

/-- Sets all keys in turn. -/
def ofList (entries : List (String × α)) : List (String × α) :=
  entries.foldl (fun known entry => set entry.1 entry.2 known) []

end OperationLibrary.Keyed
