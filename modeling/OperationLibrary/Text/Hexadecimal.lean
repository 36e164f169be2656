/-!
Hexadecimal digits and the numbers that they write.
-/

namespace OperationLibrary.Text

/-- The value of a hexadecimal digit in either case. -/
def hexDigit? (c : Char) : Option Nat :=
  if c.isDigit then some (c.toNat - 48)
  else if 'a' ≤ c ∧ c ≤ 'f' then some (c.toNat - 87)
  else if 'A' ≤ c ∧ c ≤ 'F' then some (c.toNat - 55)
  else none

/-- The number that hexadecimal digits write. -/
def hexNumber? (digits : List Char) : Option Nat :=
  digits.foldlM (fun n c => (hexDigit? c).map (n * 16 + ·)) 0

/-- The number that the four digits in front of a text write. -/
def hexUnit? (text : List Char) : Option Nat :=
  if (text.take 4).length = 4 then hexNumber? (text.take 4) else none

/-- Four digits write the number that they are made of. -/
theorem hexUnit?_digits {digit : Nat → Char} (hdigit : ∀ d < 16, hexDigit? (digit d) = some d)
    {n : Nat} (h : n < 65536) (rest : List Char) :
    hexUnit? (([n / 4096, n / 256, n / 16, n].map fun d => digit (d % 16)) ++ rest) = some n := by
  have hnumber : hexNumber? ([n / 4096, n / 256, n / 16, n].map fun d => digit (d % 16)) =
      some ((((n / 4096 % 16) * 16 + n / 256 % 16) * 16 + n / 16 % 16) * 16 + n % 16) := by
    simp [hexNumber?, hdigit, Nat.mod_lt]
  have htaken : (([n / 4096, n / 256, n / 16, n].map fun d => digit (d % 16)) ++ rest).take 4 =
      [n / 4096, n / 256, n / 16, n].map fun d => digit (d % 16) := rfl
  rw [hexUnit?, htaken, if_pos (by simp), hnumber]
  congr 1
  omega

/-- The last `width` hexadecimal digits of a number, in lower case. -/
def hexDigits : Nat → Nat → List Char
  | 0, _ => []
  | width + 1, n => hexDigits width (n / 16) ++ [Nat.digitChar (n % 16)]

end OperationLibrary.Text
