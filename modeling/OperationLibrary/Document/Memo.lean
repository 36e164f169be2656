/-!
A memo of texts and what was made of them, keyed by a digest of the text. Two texts may share a
key; only the later one is kept then, and the earlier one is unknown again. The memo holds a
limited number of entries and forgets the one that was put in first.
-/

namespace OperationLibrary

structure Memo.Entry (κ α : Type) where
  key : κ
  text : String
  value : α

/-- Entries stand in the order in which they were put in. -/
structure Memo (κ α : Type) where
  keyOf : String → κ
  capacity : Nat
  entries : List (Memo.Entry κ α)

namespace Memo

variable {κ α : Type} [DecidableEq κ]

def empty (keyOf : String → κ) (capacity : Nat) : Memo κ α :=
  ⟨keyOf, capacity, []⟩

def size (memo : Memo κ α) : Nat :=
  memo.entries.length

/-- What was put in for exactly this text. -/
def get? (memo : Memo κ α) (text : String) : Option α :=
  match memo.entries.find? (·.key = memo.keyOf text) with
  | some entry => if entry.text = text then some entry.value else none
  | none => none

/-- Puts a value in as the newest entry and forgets the oldest ones above the capacity. -/
def put (memo : Memo κ α) (text : String) (value : α) : Memo κ α :=
  let kept := memo.entries.filter fun entry => entry.key ≠ memo.keyOf text
  let entries := kept ++ [⟨memo.keyOf text, text, value⟩]
  { memo with entries := entries.drop (entries.length - memo.capacity) }

def clear (memo : Memo κ α) : Memo κ α :=
  { memo with entries := [] }

end Memo

end OperationLibrary
