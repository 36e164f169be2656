/-!
Base 64: three bytes as four characters of six bits, with equals signs in the place of the bytes
that are missing at the end.
-/

namespace OperationLibrary.Text.Base64

def digit (n : Nat) : Char :=
  if n < 26 then Char.ofNat (n + 65)
  else if n < 52 then Char.ofNat (n + 71)
  else if n < 62 then Char.ofNat (n - 4)
  else if n = 62 then '+'
  else '/'

/-- The four digits of three bytes. -/
def group (a b c : UInt8) : List Char :=
  let bits := (a.toNat * 256 + b.toNat) * 256 + c.toNat
  [bits / 262144, bits / 4096 % 64, bits / 64 % 64, bits % 64].map digit

def encode : List UInt8 → List Char
  | a :: b :: c :: rest => group a b c ++ encode rest
  | [a, b] => (group a b 0).take 3 ++ ['=']
  | [a] => (group a 0 0).take 2 ++ ['=', '=']
  | [] => []

end OperationLibrary.Text.Base64
