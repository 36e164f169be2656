import Mathlib.Data.List.DropRight
import OperationLibrary.Text.Blank

/-!
Lists without a run at their ends, and texts without the blanks at theirs. The run is taken away as
`List.rdropWhile` does it, so all that is known of that function holds here.
-/

namespace OperationLibrary.Text

section

variable {α : Type} (p : α → Bool) (xs : List α)

theorem dropEndWhile_eq_rdropWhile : dropEndWhile p xs = xs.rdropWhile p := rfl

theorem dropEndWhile_prefix : dropEndWhile p xs <+: xs := by
  rw [dropEndWhile_eq_rdropWhile]
  exact List.rdropWhile_prefix p xs

variable {p xs}

/-- A list whose last element stays is kept as it is. -/
theorem dropEndWhile_eq_self (h : ∀ x ∈ xs.getLast?, p x = false) : dropEndWhile p xs = xs := by
  rw [dropEndWhile_eq_rdropWhile, List.rdropWhile_eq_self_iff]
  intro hne
  simp [h _ (List.getLast?_eq_some_getLast hne)]

end

/-- Nothing is cut off a text that neither begins nor ends with a blank. -/
theorem trimBlank_eq_self {text : String} (hfirst : ∀ c ∈ text.toList.head?, isBlank c = false)
    (hlast : ∀ c ∈ text.toList.getLast?, isBlank c = false) : trimBlank text = text := by
  have hfront : text.toList.dropWhile isBlank = text.toList := by
    cases hchars : text.toList with
    | nil => rfl
    | cons c rest => rw [List.dropWhile_cons_of_neg (by simp [hfirst c (by simp [hchars])])]
  rw [trimBlank, hfront, trimBlankEnd, dropEndWhile_eq_self hlast, String.ofList_toList]

end OperationLibrary.Text
