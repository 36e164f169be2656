/-!
Blank characters of Unicode, and texts without the blanks at their ends.
-/

namespace OperationLibrary.Text

/-- White space, line and paragraph separators, and the four information separators. -/
def isBlank (c : Char) : Bool :=
  let n := c.toNat
  (0x09 ≤ n && n ≤ 0x0d) || (0x1c ≤ n && n ≤ 0x20) || n == 0x85 || n == 0xa0 || n == 0x1680 ||
    (0x2000 ≤ n && n ≤ 0x200a) || n == 0x2028 || n == 0x2029 || n == 0x202f || n == 0x205f ||
    n == 0x3000

/-- A list without the longest run at its end that satisfies `p`. -/
def dropEndWhile {α : Type} (p : α → Bool) (xs : List α) : List α :=
  (xs.reverse.dropWhile p).reverse

/-- An element that stays keeps all that stands before it. -/
theorem dropEndWhile_append_cons {α : Type} {p : α → Bool} {x : α} (hx : p x = false)
    (front back : List α) :
    dropEndWhile p (front ++ x :: back) = front ++ x :: dropEndWhile p back := by
  have hreverse : (front ++ x :: back).reverse = back.reverse ++ x :: front.reverse := by simp
  have hstay : (x :: front.reverse).dropWhile p = x :: front.reverse :=
    List.dropWhile_cons_of_neg (by simp [hx])
  rw [dropEndWhile, dropEndWhile, hreverse, List.dropWhile_append, hstay]
  split
  case isTrue hempty => simp [List.isEmpty_iff.mp hempty]
  case isFalse => simp

def trimBlankEnd (text : List Char) : List Char :=
  dropEndWhile isBlank text

/-- The text without blanks at either end. -/
def trimBlank (text : String) : String :=
  String.ofList (trimBlankEnd (text.toList.dropWhile isBlank))

end OperationLibrary.Text
