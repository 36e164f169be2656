/-!
How many entries of a table have names outside a list. Walks that follow a name of the table at
most once get a measure from it: a name that is new leaves fewer entries unseen.
-/

namespace OperationLibrary

variable {α : Type}

/-- The number of entries whose names are not among `names`. -/
def unseen (nameOf : α → String) (table : List α) (names : List String) : Nat :=
  (table.filter fun entry => !names.contains (nameOf entry)).length

theorem unseen_cons_le (nameOf : α → String) (table : List α) (names : List String)
    (name : String) : unseen nameOf table (name :: names) ≤ unseen nameOf table names := by
  unfold unseen
  rw [← List.countP_eq_length_filter, ← List.countP_eq_length_filter]
  apply List.countP_mono_left
  intro entry _ h
  simp_all

theorem unseen_cons_lt {nameOf : α → String} {table : List α} {names : List String}
    {name : String} {entry : α} (found : table.find? (nameOf · == name) = some entry)
    (fresh : name ∉ names) : unseen nameOf table (name :: names) < unseen nameOf table names := by
  induction table with
  | nil => simp at found
  | cons head tail ih =>
    have rest := unseen_cons_le nameOf tail names name
    by_cases same : nameOf head = name
    · simp only [unseen, List.filter_cons, same] at rest ⊢
      simp [fresh] at rest ⊢
      omega
    · have inner := ih (by simpa [List.find?_cons, same] using found)
      by_cases seen : nameOf head ∈ names <;>
        simp [unseen, same, seen] at inner ⊢ <;> omega

end OperationLibrary
