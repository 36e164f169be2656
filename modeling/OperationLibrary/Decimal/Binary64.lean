/-!
Binary floating point numbers of 64 bits, exactly: a finite one is a mantissa times a power of two.
A decimal becomes the nearest such number, and a number is written with the fewest decimal digits
that become the same number again.
-/

namespace OperationLibrary.Decimal

/-- A finite number is `mantissa * 2 ^ exponent`, with a mantissa below `2 ^ 53` that is at least
`2 ^ 52` unless the exponent is the least one. -/
inductive Binary64 where
  | nan
  | infinite (negative : Bool)
  | finite (negative : Bool) (mantissa : Nat) (exponent : Int)
  deriving DecidableEq, Inhabited

namespace Binary64

def leastExponent : Int := -1074

def greatestExponent : Int := 971

def pow2 (n : Nat) : Nat := Nat.pow 2 n

def pow10 (n : Nat) : Nat := Nat.pow 10 n

/-! ### From decimals -/

/-- The quotient rounded to the nearest number, a half to the even one. -/
def roundHalfEven (num den : Nat) : Nat :=
  let quotient := num / den
  let twice := 2 * (num % den)
  if twice < den then quotient
  else if den < twice then quotient + 1
  else quotient + quotient % 2

/-- `num * 2 ^ (-exponent) / den`, rounded. -/
def scaleDown (num den : Nat) (exponent : Int) : Nat :=
  roundHalfEven (num * pow2 (-exponent).toNat) (den * pow2 exponent.toNat)

/-- The exponent that leaves a mantissa of 53 bits for `num / den`. -/
def exponentOf (num den : Nat) : Int :=
  let guess : Int := (Nat.log2 num : Int) - (Nat.log2 den : Int) - 53
  let wide := num * pow2 (-guess).toNat ≥ pow2 53 * (den * pow2 guess.toNat)
  max leastExponent (if wide then guess + 1 else guess)

/-- The number nearest to `num / den`, which is not zero. -/
def ofRatio (negative : Bool) (num den : Nat) : Binary64 :=
  let exponent := exponentOf num den
  let mantissa := scaleDown num den exponent
  let (mantissa, exponent) :=
    if mantissa = pow2 53 then (pow2 52, exponent + 1) else (mantissa, exponent)
  if greatestExponent < exponent then .infinite negative else .finite negative mantissa exponent

def decimalLength (n : Nat) : Nat :=
  (Nat.toDigits 10 n).length

/-- The number nearest to `digits * 10 ^ power`. Powers far outside the range are decided by their
size alone. -/
def ofDecimal (negative : Bool) (digits : Nat) (power : Int) : Binary64 :=
  let places := (decimalLength digits : Int) + power
  if digits = 0 then .finite negative 0 leastExponent
  else if 400 < places then .infinite negative
  else if places < -400 then .finite negative 0 leastExponent
  else ofRatio negative (digits * pow10 power.toNat) (pow10 (-power).toNat)

/-! ### Reading -/

/-- A number as it is written: sign, digits with or without a point, and a power of ten. -/
def ofText (text : String) : Binary64 :=
  let (negative, body) := match text.toList with
    | '-' :: rest => (true, rest)
    | '+' :: rest => (false, rest)
    | rest => (false, rest)
  let isExponentMark := fun (c : Char) => c == 'e' || c == 'E'
  let significand := body.takeWhile fun c => !isExponentMark c
  let whole := significand.takeWhile (· != '.')
  let fraction := (significand.drop whole.length).drop 1
  let power : Int := match (body.drop significand.length).drop 1 with
    | '-' :: digits => -(decimalValue digits : Int)
    | '+' :: digits => decimalValue digits
    | digits => decimalValue digits
  ofDecimal negative (decimalValue (whole ++ fraction)) (power - fraction.length)
where
  decimalValue (digits : List Char) : Nat :=
    digits.foldl (fun n c => n * 10 + (c.toNat - 48)) 0

/-! ### Comparison with zero -/

def isPositive : Binary64 → Bool
  | .nan => false
  | .infinite negative => !negative
  | .finite negative mantissa _ => !negative && mantissa != 0

/-- Whether the number is a zero of either sign. -/
def isZero : Binary64 → Bool
  | .finite _ mantissa _ => mantissa == 0
  | _ => false

/-! ### Shortest digits -/

/-- Whether `digits * 10 ^ power` lies among the reals whose nearest number is
`mantissa * 2 ^ exponent`. Below a power of two the interval is narrower. -/
def readsBack (mantissa : Nat) (exponent : Int) (digits : Nat) (power : Int) : Bool :=
  let low := if mantissa = pow2 52 ∧ leastExponent < exponent then 4 * mantissa - 1
    else 4 * mantissa - 2
  let high := 4 * mantissa + 2
  let quarter := exponent - 2
  let decimal := digits * pow10 power.toNat * pow2 (-quarter).toNat
  let unit := pow2 quarter.toNat * pow10 (-power).toNat
  if mantissa % 2 = 0 then low * unit ≤ decimal && decimal ≤ high * unit
  else low * unit < decimal && decimal < high * unit

/-- The least `k` from `start` on with `num < den * 10 ^ k`, looked for in `steps` steps. -/
def decimalScale (num den : Nat) : Nat → Int → Int
  | 0, k => k
  | steps + 1, k =>
    if num * pow10 (-k).toNat < den * pow10 k.toNat then k else decimalScale num den steps (k + 1)

/-- The shortest decimal with `count` digits or more that reads back, as digits and power of ten.
Of two with the same number of digits the nearer one is taken, and of two as near the even one. -/
def shortestFrom (mantissa : Nat) (exponent scale : Int) : Nat → Nat → Nat × Int
  | 0, _ => (mantissa * pow2 exponent.toNat * Nat.pow 5 (-exponent).toNat, min exponent 0)
  | tries + 1, count =>
    let power := scale - count
    let top := mantissa * pow2 exponent.toNat * pow10 (-power).toNat
    let bottom := pow2 (-exponent).toNat * pow10 power.toNat
    let below := top / bottom
    let lower := readsBack mantissa exponent below power
    let upper := readsBack mantissa exponent (below + 1) power
    if lower && upper then
      let twice := 2 * (top % bottom)
      if twice < bottom || (twice == bottom && below % 2 == 0) then (below, power)
      else (below + 1, power)
    else if lower then (below, power)
    else if upper then (below + 1, power)
    else shortestFrom mantissa exponent scale tries (count + 1)

/-- Seventeen digits always read back. -/
def mostDigits : Nat := 17

def shortest (mantissa : Nat) (exponent : Int) : Nat × Int :=
  let num := mantissa * pow2 exponent.toNat
  let den := pow2 (-exponent).toNat
  let start : Int := ((Nat.log2 num : Int) - (Nat.log2 den : Int)) * 30103 / 100000 - 1
  shortestFrom mantissa exponent (decimalScale num den 5 start) mostDigits 1

/-! ### Text

A number is written positionally when the place of its first digit lies between the fourth behind
the point and the sixteenth in front of it, otherwise with one digit in front of the point and a
signed exponent of two digits or more. -/

def padded (width : Nat) (digits : List Char) : List Char :=
  List.replicate (width - digits.length) '0' ++ digits

def dropTrailingZeros (digits : List Char) : List Char :=
  (digits.reverse.dropWhile (· == '0')).reverse

/-- Digits with the point behind the first `place` of them; `place` may lie outside. -/
def positional (digits : List Char) (place : Int) : List Char :=
  if place ≤ 0 then '0' :: '.' :: (List.replicate (-place).toNat '0' ++ digits)
  else if digits.length ≤ place.toNat then
    digits ++ List.replicate (place.toNat - digits.length) '0' ++ ['.', '0']
  else digits.take place.toNat ++ '.' :: digits.drop place.toNat

def scientific (digits : List Char) (exponent : Int) : List Char :=
  let fraction := digits.drop 1
  digits.take 1 ++ (if fraction.isEmpty then [] else '.' :: fraction) ++ 'e' ::
    (if exponent < 0 then '-' else '+') :: padded 2 (Nat.toDigits 10 exponent.natAbs)

def magnitudeText (mantissa : Nat) (exponent : Int) : List Char :=
  if mantissa = 0 then ['0', '.', '0']
  else
    let (number, power) := shortest mantissa exponent
    let written := Nat.toDigits 10 number
    let place : Int := written.length + power
    let digits := dropTrailingZeros written
    if -4 ≤ place - 1 ∧ place - 1 < 16 then positional digits place
    else scientific digits (place - 1)

def toText : Binary64 → String
  | .nan => "nan"
  | .infinite negative => if negative then "-inf" else "inf"
  | .finite negative mantissa exponent =>
    String.ofList ((if negative then ['-'] else []) ++ magnitudeText mantissa exponent)

end Binary64

end OperationLibrary.Decimal
