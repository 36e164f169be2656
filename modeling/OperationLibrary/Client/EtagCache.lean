/-!
A cache of answers under the entity tags they came with. It holds a limited number of entries and,
when a new key needs room, gives up the entry that has gone unused for longest. Reading an entry
and setting it both count as use.
-/

namespace OperationLibrary

structure EtagCache.Entry (α : Type) where
  key : String
  etag : String
  answer : α
  deriving DecidableEq

/-- Entries stand in the order of their last use, the most recent one last. -/
structure EtagCache (α : Type) where
  capacity : Nat
  entries : List (EtagCache.Entry α)
  deriving DecidableEq

namespace EtagCache

variable {α : Type}

def empty (capacity : Nat) : EtagCache α :=
  ⟨capacity, []⟩

def size (cache : EtagCache α) : Nat :=
  cache.entries.length

def find? (cache : EtagCache α) (key : String) : Option (Entry α) :=
  cache.entries.find? (·.key == key)

/-- All entries but the one of this key. -/
def others (cache : EtagCache α) (key : String) : List (Entry α) :=
  cache.entries.filter (·.key != key)

/-- The entry of a key, which is the most recently used one from then on. -/
def get (cache : EtagCache α) (key : String) : Option (Entry α) × EtagCache α :=
  match cache.find? key with
  | some entry => (some entry, { cache with entries := cache.others key ++ [entry] })
  | none => (none, cache)

/-- Sets the entry of a key. A cache without any room cannot take it. -/
def set? (cache : EtagCache α) (key etag : String) (answer : α) : Option (EtagCache α) :=
  let entry : Entry α := ⟨key, etag, answer⟩
  if (cache.find? key).isSome then some { cache with entries := cache.others key ++ [entry] }
  else if cache.size < cache.capacity then
    some { cache with entries := cache.entries ++ [entry] }
  else
    match cache.entries with
    | [] => none
    | _ :: rest => some { cache with entries := rest ++ [entry] }

end EtagCache

end OperationLibrary
