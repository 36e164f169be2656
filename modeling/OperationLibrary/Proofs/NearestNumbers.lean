import Mathlib.Algebra.Order.Field.Power
import Mathlib.Algebra.Order.Ring.Rat
import Mathlib.Tactic.FieldSimp
import Mathlib.Tactic.Linarith
import Mathlib.Tactic.LinearCombination
import Mathlib.Tactic.Positivity
import Mathlib.Tactic.Ring
import OperationLibrary.Decimal.Binary64

/-!
Numbers nearest to decimals. The reals that are nearer to a number than to its neighbours lie within
half a step of it, or a quarter of one below a power of two; and every one of them becomes this
number when it is read.
-/

namespace OperationLibrary.Decimal.Binary64

/-! ### Powers -/

theorem zpow_mul_pow_toNat {base : ℚ} (h : base ≠ 0) (z : ℤ) :
    base ^ z * base ^ (-z).toNat = base ^ z.toNat := by
  rw [← zpow_natCast, ← zpow_natCast, ← zpow_add₀ h]
  congr 1
  omega

theorem cast_pow2 (n : Nat) : ((pow2 n : Nat) : ℚ) = 2 ^ n := by
  rw [pow2, Nat.pow_eq, Nat.cast_pow]
  rfl

theorem cast_pow10 (n : Nat) : ((pow10 n : Nat) : ℚ) = 10 ^ n := by
  rw [pow10, Nat.pow_eq, Nat.cast_pow]
  rfl

/-! ### Numbers in normal form -/

/-- The mantissa has 53 bits, and all of them are used unless the exponent is the least one. -/
structure IsNormal (mantissa : Nat) (exponent : Int) : Prop where
  mantissa_lt : mantissa < 2 ^ 53
  least_le : leastExponent ≤ exponent
  le_greatest : exponent ≤ greatestExponent
  full : 2 ^ 52 ≤ mantissa ∨ exponent = leastExponent

/-- The real lies among those whose nearest number is `mantissa * 2 ^ exponent`; the reals in the
middle between two numbers belong to the even one. -/
def RoundsTo (mantissa : Nat) (exponent : Int) (value : ℚ) : Prop :=
  let low : ℚ := if mantissa = 2 ^ 52 ∧ leastExponent < exponent then 4 * mantissa - 1
    else 4 * mantissa - 2
  let high : ℚ := 4 * mantissa + 2
  let quarter : ℚ := 2 ^ (exponent - 2)
  if mantissa % 2 = 0 then low * quarter ≤ value ∧ value ≤ high * quarter
  else low * quarter < value ∧ value < high * quarter

/-- The check for a decimal compares exactly. -/
theorem readsBack_iff {mantissa : Nat} (hpos : 0 < mantissa) (exponent : Int) (digits : Nat)
    (power : Int) : readsBack mantissa exponent digits power = true ↔
      RoundsTo mantissa exponent (digits * 10 ^ power) := by
  obtain ⟨quarter, hquarter⟩ : ∃ quarter, quarter = exponent - 2 := ⟨_, rfl⟩
  -- both sides are multiplied until no power in them is a fraction
  have hscale : (0 : ℚ) < 2 ^ (-quarter).toNat * 10 ^ (-power).toNat := by positivity
  have hunit (x : ℚ) : x * 2 ^ quarter * (2 ^ (-quarter).toNat * 10 ^ (-power).toNat) =
      x * (2 ^ quarter.toNat * 10 ^ (-power).toNat) := by
    rw [← zpow_mul_pow_toNat (by norm_num : (2 : ℚ) ≠ 0) quarter]
    ring
  have hdecimal : (digits : ℚ) * 10 ^ power * (2 ^ (-quarter).toNat * 10 ^ (-power).toNat) =
      digits * 10 ^ power.toNat * 2 ^ (-quarter).toNat := by
    rw [← zpow_mul_pow_toNat (by norm_num : (10 : ℚ) ≠ 0) power]
    ring
  have hle (n : Nat) : n * (pow2 quarter.toNat * pow10 (-power).toNat) ≤
      digits * pow10 power.toNat * pow2 (-quarter).toNat ↔
        (n : ℚ) * 2 ^ quarter ≤ digits * 10 ^ power := by
    refine Iff.trans ?_ (mul_le_mul_iff_left₀ hscale)
    rw [hunit, hdecimal, ← Nat.cast_le (α := ℚ)]
    simp only [Nat.cast_mul, cast_pow2, cast_pow10]
  have hge (n : Nat) : digits * pow10 power.toNat * pow2 (-quarter).toNat ≤
      n * (pow2 quarter.toNat * pow10 (-power).toNat) ↔
        (digits : ℚ) * 10 ^ power ≤ n * 2 ^ quarter := by
    refine Iff.trans ?_ (mul_le_mul_iff_left₀ hscale)
    rw [hunit, hdecimal, ← Nat.cast_le (α := ℚ)]
    simp only [Nat.cast_mul, cast_pow2, cast_pow10]
  have hcast (d : Nat) (hd : d ≤ 4 * mantissa) :
      ((4 * mantissa - d : Nat) : ℚ) = 4 * mantissa - d := by
    rw [Nat.cast_sub hd]
    push_cast
    rfl
  have hpow : pow2 52 = 2 ^ 52 := rfl
  have hhigh : ((4 * mantissa + 2 : Nat) : ℚ) = 4 * mantissa + 2 := by push_cast; rfl
  unfold readsBack RoundsTo
  simp only [← hquarter, hpow]
  split <;> split <;>
    simp only [Bool.and_eq_true, decide_eq_true_eq, hle, hge, ← not_le, hhigh,
      hcast 1 (by omega), hcast 2 (by omega), Nat.cast_one, Nat.cast_ofNat]

/-! ### Rounding -/

/-- A quotient within half a step of a number, or in the middle next to an even one, is rounded to
it. -/
theorem roundHalfEven_eq {num den n : Nat} (hden : 0 < den)
    (hlow : (2 * n - 1 : ℤ) * den ≤ 2 * num) (hhigh : (2 * num : ℤ) ≤ (2 * n + 1) * den)
    (hodd : n % 2 = 1 → (2 * n - 1 : ℤ) * den < 2 * num ∧ (2 * num : ℤ) < (2 * n + 1) * den) :
    roundHalfEven num den = n := by
  obtain ⟨quotient, hquotient⟩ : ∃ quotient, quotient = num / den := ⟨_, rfl⟩
  obtain ⟨left, hleft⟩ : ∃ left, left = num % den := ⟨_, rfl⟩
  have hlt : left < den := hleft ▸ Nat.mod_lt num hden
  have hnum : (num : ℤ) = den * quotient + left := by
    have h := Nat.div_add_mod num den
    rw [← hquotient, ← hleft] at h
    exact_mod_cast h.symm
  -- the bounds leave the quotient and the number behind it
  have hcases : n = quotient ∨ n = quotient + 1 := by
    have hlow' : (2 * n - 1 : ℤ) < 2 * quotient + 2 := by
      refine lt_of_mul_lt_mul_right (a := (den : ℤ)) ?_ (by positivity)
      have hlt' : (left : ℤ) < den := by exact_mod_cast hlt
      linarith
    have hhigh' : (2 * quotient : ℤ) ≤ 2 * n + 1 := by
      refine le_of_mul_le_mul_right (a := (den : ℤ)) ?_ (by exact_mod_cast hden)
      have hleft' : (0 : ℤ) ≤ left := by positivity
      linarith
    omega
  rw [roundHalfEven]
  simp only [← hquotient, ← hleft]
  rcases hcases with rfl | rfl
  · have htwice : 2 * (left : ℤ) ≤ den := by linarith
    have hstrict : n % 2 = 1 → 2 * (left : ℤ) < den := fun h => by linarith [(hodd h).2]
    split
    · rfl
    · rw [if_neg (by omega)]
      omega
  · have htwice : (den : ℤ) ≤ 2 * left := by push_cast at hlow; linarith
    have hstrict : (quotient + 1) % 2 = 1 → (den : ℤ) < 2 * left := fun h => by
      have hlow := (hodd h).1
      push_cast at hlow
      linarith
    rw [if_neg (by omega)]
    split
    · rfl
    · omega

theorem roundHalfEven_bounds (num den : Nat) :
    num / den ≤ roundHalfEven num den ∧ roundHalfEven num den ≤ num / den + 1 := by
  rw [roundHalfEven]
  split
  · exact ⟨le_rfl, Nat.le_succ _⟩
  · split <;> omega

section

variable {num den : Nat} {exponent : ℤ}

/-- Rounding in steps of a power of two. -/
theorem scaleDown_eq {n : Nat} (hden : 0 < den)
    (hlow : (2 * n - 1) * 2 ^ exponent ≤ 2 * (num / den : ℚ))
    (hhigh : 2 * (num / den : ℚ) ≤ (2 * n + 1) * 2 ^ exponent)
    (hodd : n % 2 = 1 → (2 * n - 1) * 2 ^ exponent < 2 * (num / den : ℚ) ∧
      2 * (num / den : ℚ) < (2 * n + 1) * 2 ^ exponent) : scaleDown num den exponent = n := by
  have hden' : (0 : ℚ) < den := by exact_mod_cast hden
  have hscale : (0 : ℚ) < den * 2 ^ (-exponent).toNat := by positivity
  have hstep (x : ℚ) : x * 2 ^ exponent * (den * 2 ^ (-exponent).toNat) =
      x * (den * 2 ^ exponent.toNat) := by
    rw [← zpow_mul_pow_toNat (by norm_num : (2 : ℚ) ≠ 0) exponent]
    ring
  have hvalue : 2 * (num / den : ℚ) * (den * 2 ^ (-exponent).toNat) =
      2 * (num * 2 ^ (-exponent).toNat) := by
    field_simp
  have hle (x : ℤ) : x * ((den * pow2 exponent.toNat : Nat) : ℤ) ≤
      2 * ((num * pow2 (-exponent).toNat : Nat) : ℤ) ↔
        (x : ℚ) * 2 ^ exponent ≤ 2 * (num / den : ℚ) := by
    refine Iff.trans ?_ (mul_le_mul_iff_left₀ hscale)
    rw [hstep, hvalue, ← Int.cast_le (R := ℚ)]
    simp only [Int.cast_mul, Int.cast_natCast, Nat.cast_mul, cast_pow2, Int.cast_ofNat]
  have hge (x : ℤ) : 2 * ((num * pow2 (-exponent).toNat : Nat) : ℤ) ≤
      x * ((den * pow2 exponent.toNat : Nat) : ℤ) ↔
        2 * (num / den : ℚ) ≤ x * 2 ^ exponent := by
    refine Iff.trans ?_ (mul_le_mul_iff_left₀ hscale)
    rw [hstep, hvalue, ← Int.cast_le (R := ℚ)]
    simp only [Int.cast_mul, Int.cast_natCast, Nat.cast_mul, cast_pow2, Int.cast_ofNat]
  have hpow : 0 < pow2 exponent.toNat := Nat.pow_pos (by decide)
  refine roundHalfEven_eq (Nat.mul_pos hden hpow) ?_ ?_ fun h => ?_
  · exact (hle (2 * n - 1)).mpr (by push_cast; exact hlow)
  · exact (hge (2 * n + 1)).mpr (by push_cast; exact hhigh)
  · simp only [← not_le] at hodd ⊢
    refine (hodd h).imp (fun h => mt (hge (2 * n - 1)).mp ?_) fun h => mt (hle (2 * n + 1)).mp ?_
    · push_cast
      exact h
    · push_cast
      exact h

/-- Multiples of a power of two are compared without fractions. -/
theorem mul_scaled_le_iff (hden : 0 < den) (n : Nat) :
    n * (den * pow2 exponent.toNat) ≤ num * pow2 (-exponent).toNat ↔
      n * 2 ^ exponent ≤ (num / den : ℚ) := by
  have hden' : (0 : ℚ) < den := by exact_mod_cast hden
  have hscale : (0 : ℚ) < den * 2 ^ (-exponent).toNat := by positivity
  refine Iff.trans ?_ (mul_le_mul_iff_left₀ hscale)
  have hstep : n * (2 : ℚ) ^ exponent * (den * 2 ^ (-exponent).toNat) =
      n * (den * 2 ^ exponent.toNat) := by
    rw [← zpow_mul_pow_toNat (by norm_num : (2 : ℚ) ≠ 0) exponent]
    ring
  have hvalue : (num / den : ℚ) * (den * 2 ^ (-exponent).toNat) = num * 2 ^ (-exponent).toNat := by
    field_simp
  rw [hstep, hvalue, ← Nat.cast_le (α := ℚ)]
  simp only [Nat.cast_mul, cast_pow2]

/-- Rounding does not go below a number that is in steps of the power of two. -/
theorem le_scaleDown {n : Nat} (hden : 0 < den) (h : n * 2 ^ exponent ≤ (num / den : ℚ)) :
    n ≤ scaleDown num den exponent := by
  have hpow : 0 < pow2 exponent.toNat := Nat.pow_pos (by decide)
  have hquotient := (Nat.le_div_iff_mul_le (Nat.mul_pos hden hpow)).mpr
    ((mul_scaled_le_iff hden n).mpr h)
  exact hquotient.trans (roundHalfEven_bounds _ _).1

/-- Rounding does not go above a number that is in steps of the power of two. -/
theorem scaleDown_le {n : Nat} (hden : 0 < den) (h : (num / den : ℚ) < n * 2 ^ exponent) :
    scaleDown num den exponent ≤ n := by
  have hpow : 0 < pow2 exponent.toNat := Nat.pow_pos (by decide)
  have hquotient := (Nat.div_lt_iff_lt_mul (Nat.mul_pos hden hpow)).mpr
    (not_le.mp (mt (mul_scaled_le_iff hden n).mp (not_le.mpr h)))
  exact (roundHalfEven_bounds _ _).2.trans hquotient

/-- The lengths of two numbers in bits tell their quotient up to a factor of two. -/
theorem quotient_between (hnum : 0 < num) (hden : 0 < den) {bits : ℤ}
    (hbits : bits = (Nat.log2 num : ℤ) - Nat.log2 den) :
    2 ^ (bits - 1) < (num / den : ℚ) ∧ (num / den : ℚ) < 2 ^ (bits + 1) := by
  have hden' : (0 : ℚ) < den := by exact_mod_cast hden
  rw [lt_div_iff₀ hden', div_lt_iff₀ hden']
  constructor
  · have hleft : (2 : ℚ) ^ (Nat.log2 num) ≤ num := by exact_mod_cast Nat.log2_self_le hnum.ne'
    have hright : (den : ℚ) < 2 ^ (Nat.log2 den + 1) := by exact_mod_cast Nat.lt_log2_self
    calc (2 : ℚ) ^ (bits - 1) * den < 2 ^ (bits - 1) * 2 ^ (Nat.log2 den + 1) := by gcongr
      _ = 2 ^ (Nat.log2 num) := by
          rw [← zpow_natCast, ← zpow_natCast, ← zpow_add₀ (by norm_num)]
          congr 1
          omega
      _ ≤ num := hleft
  · have hleft : (num : ℚ) < 2 ^ (Nat.log2 num + 1) := by exact_mod_cast Nat.lt_log2_self
    have hright : (2 : ℚ) ^ (Nat.log2 den) ≤ den := by exact_mod_cast Nat.log2_self_le hden.ne'
    calc (num : ℚ) < 2 ^ (Nat.log2 num + 1) := hleft
      _ = 2 ^ (bits + 1) * 2 ^ (Nat.log2 den) := by
          rw [← zpow_natCast, ← zpow_natCast, ← zpow_add₀ (by norm_num)]
          congr 1
          omega
      _ ≤ 2 ^ (bits + 1) * den := by gcongr

/-- The exponent leaves 53 bits in front of the point, unless it is the least one. -/
theorem exponentOf_spec (hnum : 0 < num) (hden : 0 < den) :
    (num / den : ℚ) < 2 ^ (exponentOf num den + 53) ∧ leastExponent ≤ exponentOf num den ∧
      (exponentOf num den = leastExponent ∨ 2 ^ (exponentOf num den + 52) ≤ (num / den : ℚ)) := by
  obtain ⟨guess, hguess⟩ : ∃ guess : ℤ,
      guess = (Nat.log2 num : ℤ) - (Nat.log2 den : ℤ) - 53 := ⟨_, rfl⟩
  have hbits : guess + 53 = (Nat.log2 num : ℤ) - Nat.log2 den := by omega
  obtain ⟨hlow, hhigh⟩ := quotient_between hnum hden hbits
  -- the lengths leave two exponents, and one comparison tells them apart
  have hwide : num * pow2 (-guess).toNat ≥ pow2 53 * (den * pow2 guess.toNat) ↔
      2 ^ (guess + 53) ≤ (num / den : ℚ) := by
    have hpower : (2 : ℚ) ^ (guess + 53) = (pow2 53 : ℕ) * 2 ^ guess := by
      rw [add_comm, zpow_add₀ (by norm_num), cast_pow2]
      rfl
    rw [hpower]
    exact mul_scaled_le_iff hden (pow2 53)
  have hmono {a b : ℤ} (h : a ≤ b) : (2 : ℚ) ^ a ≤ 2 ^ b := zpow_le_zpow_right₀ (by norm_num) h
  rw [exponentOf]
  simp only [← hguess, hwide]
  refine ⟨?_, le_max_left _ _, ?_⟩
  · split
    case isTrue => exact hhigh.trans_le (hmono (by omega))
    case isFalse hnarrow => exact (not_le.mp hnarrow).trans_le (hmono (by omega))
  · split
    case isTrue hfull =>
      rcases le_total (guess + 1) leastExponent with h | h
      · exact .inl (max_eq_left h)
      · rw [max_eq_right h]
        exact .inr ((hmono (by omega)).trans hfull)
    case isFalse =>
      rcases le_total guess leastExponent with h | h
      · exact .inl (max_eq_left h)
      · rw [max_eq_right h]
        exact .inr ((hmono (by omega)).trans hlow.le)

/-- Only one exponent leaves 53 bits. -/
theorem exponentOf_eq (hnum : 0 < num) (hden : 0 < den)
    (hhigh : (num / den : ℚ) < 2 ^ (exponent + 53)) (hleast : leastExponent ≤ exponent)
    (hlow : exponent = leastExponent ∨ 2 ^ (exponent + 52) ≤ (num / den : ℚ)) :
    exponentOf num den = exponent := by
  obtain ⟨hhigh', hleast', hlow'⟩ := exponentOf_spec hnum hden
  have hbetween {low high : ℤ} (h : (2 : ℚ) ^ (low + 52) ≤ num / den)
      (h' : (num / den : ℚ) < 2 ^ (high + 53)) : low ≤ high := by
    have hlt := (zpow_lt_zpow_iff_right₀ (by norm_num : (1 : ℚ) < 2)).mp (h.trans_lt h')
    omega
  apply le_antisymm
  · rcases hlow' with h | h
    · rwa [h]
    · exact hbetween h hhigh
  · rcases hlow with h | h
    · rwa [h]
    · exact hbetween h hhigh'

end

/-! ### Reading -/

section

variable {mantissa : Nat} {exponent : ℤ} {value : ℚ}

/-- What all reals of a number have in common, with twice the value for halves of a step. -/
theorem RoundsTo.bounds (h : RoundsTo mantissa exponent value) :
    (2 * mantissa - 1) * 2 ^ exponent ≤ 2 * value ∧ 2 * value ≤ (2 * mantissa + 1) * 2 ^ exponent ∧
      (mantissa % 2 = 1 → (2 * mantissa - 1) * 2 ^ exponent < 2 * value ∧
        2 * value < (2 * mantissa + 1) * 2 ^ exponent) := by
  have hquarter : (0 : ℚ) < 2 ^ (exponent - 2) := by positivity
  have hstep : (2 : ℚ) ^ exponent = 4 * 2 ^ (exponent - 2) := by
    rw [zpow_sub₀ (by norm_num), show (2 : ℚ) ^ (2 : ℤ) = 4 from by norm_num]
    ring
  unfold RoundsTo at h
  rw [hstep]
  split_ifs at h with hbelow heven heven
  all_goals
    obtain ⟨hlow, hhigh⟩ := h
    refine ⟨by linarith, by linarith, fun hodd => ?_⟩
    first | omega | exact ⟨by linarith, by linarith⟩

theorem RoundsTo.pos (h : RoundsTo mantissa exponent value) (hpos : 0 < mantissa) : 0 < value := by
  have hmantissa : (1 : ℚ) ≤ mantissa := by exact_mod_cast hpos
  have hlow : (0 : ℚ) < (2 * mantissa - 1) * 2 ^ exponent :=
    mul_pos (by linarith) (by positivity)
  linarith [h.bounds.1]

theorem zpow_bits (exponent bits : ℤ) : (2 : ℚ) ^ (exponent + bits) = 2 ^ exponent * 2 ^ bits :=
  zpow_add₀ (by norm_num) exponent bits

theorem zpow_halved (exponent : ℤ) : (2 : ℚ) ^ exponent = 2 * 2 ^ (exponent - 1) := by
  rw [← zpow_one_add₀ (by norm_num), add_sub_cancel]

section

variable {num den : Nat} (hnum : 0 < num) (hden : 0 < den)

include hnum hden

/-- Where the real has the bits of the number, it is rounded to the mantissa. -/
theorem ofRatio_of_bits (hnormal : IsNormal mantissa exponent)
    (h : RoundsTo mantissa exponent (num / den))
    (hbits : exponent = leastExponent ∨ (2 : ℚ) ^ (exponent + 52) ≤ num / den) (negative : Bool) :
    ofRatio negative num den = .finite negative mantissa exponent := by
  obtain ⟨hlow, hhigh, hodd⟩ := h.bounds
  have hstep : (0 : ℚ) < 2 ^ exponent := by positivity
  have hmost : (mantissa : ℚ) ≤ 2 ^ 53 - 1 := by
    have hlt : ((mantissa + 1 : ℕ) : ℚ) ≤ ((2 ^ 53 : ℕ) : ℚ) := Nat.cast_le.mpr hnormal.mantissa_lt
    push_cast at hlt
    linarith
  have hbelow : (num / den : ℚ) < 2 ^ (exponent + 53) := by
    rw [zpow_bits, zpow_ofNat]
    nlinarith
  have hexponent := exponentOf_eq hnum hden hbelow hnormal.least_le hbits
  have hmantissa := scaleDown_eq hden hlow hhigh hodd
  have hne : mantissa ≠ pow2 53 := hnormal.mantissa_lt.ne
  simp only [ofRatio, hexponent, hmantissa, if_neg hne, if_neg (not_lt.mpr hnormal.le_greatest)]

/-- A real just below a power of two has an exponent less, and is rounded up to the power. -/
theorem ofRatio_of_below (hleast : leastExponent < exponent)
    (hgreatest : exponent ≤ greatestExponent) (h : RoundsTo (2 ^ 52) exponent (num / den))
    (hbelow : (num / den : ℚ) < 2 ^ (exponent + 52)) (negative : Bool) :
    ofRatio negative num den = .finite negative (2 ^ 52) exponent := by
  have hquarter : (2 : ℚ) ^ (exponent - 1) = 2 * 2 ^ (exponent - 2) := by
    rw [zpow_halved, sub_sub]
    rfl
  have hleft : (2 ^ 54 - 1) * 2 ^ (exponent - 2) ≤ (num / den : ℚ) := by
    rw [RoundsTo, if_pos (by decide), if_pos ⟨rfl, hleast⟩] at h
    have hfirst := h.1
    push_cast at hfirst
    linarith
  have hpos : (0 : ℚ) < 2 ^ (exponent - 2) := by positivity
  have hexponent : exponentOf num den = exponent - 1 := by
    refine exponentOf_eq hnum hden ?_ (by omega) (.inr ?_)
    · rwa [show exponent - 1 + 53 = exponent + 52 by omega]
    · rw [zpow_bits, zpow_ofNat, hquarter]
      linarith
  -- the mantissa is rounded up to one bit more, which the next exponent takes back
  have hmantissa : scaleDown num den (exponent - 1) = 2 ^ 53 := by
    refine scaleDown_eq hden ?_ ?_ (fun hodd => absurd hodd (by decide))
    · rw [hquarter]
      push_cast
      linarith
    · rw [zpow_bits, zpow_ofNat, zpow_halved] at hbelow
      push_cast
      linarith
  have hsame : (2 : ℕ) ^ 53 = pow2 53 := rfl
  simp only [ofRatio, hexponent, hmantissa, if_pos hsame, sub_add_cancel,
    if_neg (not_lt.mpr hgreatest)]
  rfl

/-- **Reading the reals of a number.** A quotient that lies among the reals of a number becomes this
number. -/
theorem ofRatio_of_roundsTo (hnormal : IsNormal mantissa exponent)
    (h : RoundsTo mantissa exponent (num / den)) (negative : Bool) :
    ofRatio negative num den = .finite negative mantissa exponent := by
  by_cases hbits : exponent = leastExponent ∨ (2 : ℚ) ^ (exponent + 52) ≤ num / den
  · exact ofRatio_of_bits hnum hden hnormal h hbits negative
  · rw [not_or, not_le] at hbits
    obtain ⟨hexponent, hbelow⟩ := hbits
    have hfull := hnormal.full.resolve_right hexponent
    have hmost : mantissa < 2 ^ 52 + 1 := by
      have hstep : (0 : ℚ) < 2 ^ exponent := by positivity
      have hlow := h.bounds.1
      rw [zpow_bits, zpow_ofNat] at hbelow
      have hless : (mantissa : ℚ) < 2 ^ 52 + 1 := by
        by_contra hlarge
        rw [not_lt] at hlarge
        nlinarith
      exact_mod_cast hless
    obtain rfl : mantissa = 2 ^ 52 := by omega
    exact ofRatio_of_below hnum hden (lt_of_le_of_ne hnormal.least_le (Ne.symm hexponent))
      hnormal.le_greatest h hbelow negative

end

/-- A number with a mantissa lies among its own reals. -/
theorem roundsTo_self (mantissa : Nat) (exponent : ℤ) :
    RoundsTo mantissa exponent (mantissa * 2 ^ exponent) := by
  have hquarter : (0 : ℚ) < 2 ^ (exponent - 2) := by positivity
  have hstep : (2 : ℚ) ^ exponent = 4 * 2 ^ (exponent - 2) := by
    rw [zpow_sub₀ (by norm_num), show (2 : ℚ) ^ (2 : ℤ) = 4 from by norm_num]
    ring
  unfold RoundsTo
  rw [hstep]
  split_ifs <;> exact ⟨by linarith, by linarith⟩

end

theorem lt_pow_decimalLength (digits : Nat) : digits < 10 ^ decimalLength digits :=
  (Nat.length_toDigits_le_iff (by decide) Nat.length_toDigits_pos).mp le_rfl

theorem pow_decimalLength_le {digits : Nat} (h : digits ≠ 0) :
    10 ^ (decimalLength digits - 1) ≤ digits := by
  have hlength : 0 < decimalLength digits := Nat.length_toDigits_pos
  by_contra hless
  rw [not_le] at hless
  by_cases hone : decimalLength digits - 1 = 0
  · rw [hone] at hless
    omega
  · have hshort : decimalLength digits ≤ decimalLength digits - 1 :=
      (Nat.length_toDigits_le_iff (by decide) (Nat.pos_of_ne_zero hone)).mpr hless
    omega

/-- A decimal is no less than the power of ten at its first place. -/
theorem pow_le_decimal {digits : Nat} (h : digits ≠ 0) {power place : ℤ}
    (hplace : place < (decimalLength digits : ℤ) + power) :
    (10 : ℚ) ^ place ≤ digits * 10 ^ power := by
  have hfirst : ((10 ^ (decimalLength digits - 1) : ℕ) : ℚ) ≤ digits :=
    Nat.cast_le.mpr (pow_decimalLength_le h)
  have hlength : 0 < decimalLength digits := Nat.length_toDigits_pos
  push_cast at hfirst
  calc (10 : ℚ) ^ place ≤ 10 ^ (((decimalLength digits - 1 : ℕ) : ℤ) + power) :=
        zpow_le_zpow_right₀ (by norm_num) (by omega)
    _ = 10 ^ (decimalLength digits - 1) * 10 ^ power := by
        rw [zpow_add₀ (by norm_num), zpow_natCast]
    _ ≤ digits * 10 ^ power := by gcongr

/-- A decimal is no more than a power of ten in front of its first place. -/
theorem decimal_le_pow {digits : Nat} {power place : ℤ}
    (hplace : (decimalLength digits : ℤ) + power ≤ place) :
    digits * 10 ^ power ≤ (10 : ℚ) ^ place := by
  have hlast : (digits : ℚ) < ((10 ^ decimalLength digits : ℕ) : ℚ) :=
    Nat.cast_lt.mpr (lt_pow_decimalLength digits)
  push_cast at hlast
  calc (digits : ℚ) * 10 ^ power ≤ 10 ^ decimalLength digits * 10 ^ power := by gcongr
    _ = 10 ^ ((decimalLength digits : ℤ) + power) := by
        rw [zpow_add₀ (by norm_num), zpow_natCast]
    _ ≤ 10 ^ place := zpow_le_zpow_right₀ (by norm_num) hplace

/-- No number reaches the powers from which on decimals are too large. -/
theorem greatest_lt_pow : ((2 : ℚ) * 2 ^ 53 + 1) * 2 ^ (971 : ℤ) < 2 * 10 ^ (400 : ℤ) := by
  have hbound : (2 * 2 ^ 53 + 1) * 2 ^ 971 < 2 * 10 ^ 400 := by decide +kernel
  exact_mod_cast hbound

/-- No number but zero is as small as decimals that are too small. -/
theorem pow_lt_least : 2 * (10 : ℚ) ^ (-400 : ℤ) < 2 ^ (-1074 : ℤ) := by
  have hbound : 2 * 2 ^ 1074 < 10 ^ 400 := by decide +kernel
  rw [zpow_neg, zpow_neg, ← div_eq_mul_inv, ← one_div,
    div_lt_div_iff₀ (by positivity) (by positivity), one_mul]
  exact_mod_cast hbound

/-- A decimal among the reals of a number becomes this number. -/
theorem ofDecimal_of_roundsTo {mantissa : Nat} {exponent : ℤ} (hpos : 0 < mantissa)
    (hnormal : IsNormal mantissa exponent) {digits : Nat} {power : ℤ}
    (h : RoundsTo mantissa exponent (digits * 10 ^ power)) (negative : Bool) :
    ofDecimal negative digits power = .finite negative mantissa exponent := by
  obtain ⟨hlow, hhigh, -⟩ := h.bounds
  have hmantissa : (1 : ℚ) ≤ mantissa := by exact_mod_cast hpos
  have hmost : (mantissa : ℚ) ≤ 2 ^ 53 := by exact_mod_cast hnormal.mantissa_lt.le
  have hstep : (0 : ℚ) < 2 ^ exponent := by positivity
  have hleast : (2 : ℚ) ^ (-1074 : ℤ) ≤ 2 ^ exponent :=
    zpow_le_zpow_right₀ (by norm_num) hnormal.least_le
  have hgreatest : (2 : ℚ) ^ exponent ≤ 2 ^ (971 : ℤ) :=
    zpow_le_zpow_right₀ (by norm_num) hnormal.le_greatest
  have hdigits : digits ≠ 0 := by
    rintro rfl
    simpa using h.pos hpos
  -- decimals of more than 400 places are given up at once, and this is none of them
  have hlarge : ¬ 400 < (decimalLength digits : ℤ) + power := by
    intro hplaces
    have hrange : (2 * mantissa + 1) * (2 : ℚ) ^ exponent ≤ (2 * 2 ^ 53 + 1) * 2 ^ (971 : ℤ) := by
      gcongr
    have hbelow := (hhigh.trans hrange).trans_lt greatest_lt_pow
    exact absurd (lt_of_mul_lt_mul_left hbelow (by norm_num))
      (not_lt.mpr (pow_le_decimal hdigits hplaces))
  have hsmall : ¬ (decimalLength digits : ℤ) + power < -400 := by
    intro hplaces
    have hrange : (2 : ℚ) ^ exponent ≤ (2 * mantissa - 1) * 2 ^ exponent :=
      le_mul_of_one_le_left hstep.le (by linarith)
    linarith [pow_lt_least, decimal_le_pow hplaces.le]
  have hratio : ((digits * pow10 power.toNat : ℕ) : ℚ) / ((pow10 (-power).toNat : ℕ) : ℚ) =
      digits * 10 ^ power := by
    rw [Nat.cast_mul, cast_pow10, cast_pow10, div_eq_iff (by positivity), mul_assoc,
      zpow_mul_pow_toNat (by norm_num)]
  have hpower (n : ℕ) : 0 < pow10 n := Nat.pow_pos (by decide)
  rw [ofDecimal]
  simp only [if_neg hdigits, if_neg hlarge, if_neg hsmall]
  exact ofRatio_of_roundsTo (Nat.mul_pos (Nat.pos_of_ne_zero hdigits) (hpower _)) (hpower _)
    hnormal (hratio ▸ h) negative

/-! ### Numbers that decimals become -/

/-- A number is in normal form wherever it has a mantissa. -/
inductive Normal : Binary64 → Prop
  | nan : Normal .nan
  | infinite (negative : Bool) : Normal (.infinite negative)
  | finite (negative : Bool) {mantissa : Nat} {exponent : Int}
      (normal : IsNormal mantissa exponent) : Normal (.finite negative mantissa exponent)

theorem isNormal_zero : IsNormal 0 leastExponent :=
  ⟨by decide, le_rfl, by decide, .inr rfl⟩

theorem normal_ofRatio {num den : Nat} (hnum : 0 < num) (hden : 0 < den) (negative : Bool) :
    Normal (ofRatio negative num den) := by
  obtain ⟨hhigh, hleast, hlow⟩ := exponentOf_spec hnum hden
  have hpower (n : ℕ) : (2 : ℚ) ^ (exponentOf num den + n) =
      ((2 ^ n : ℕ) : ℚ) * 2 ^ exponentOf num den := by
    rw [add_comm, zpow_add₀ (by norm_num), zpow_natCast, Nat.cast_pow]
    rfl
  have hmost : scaleDown num den (exponentOf num den) ≤ 2 ^ 53 :=
    scaleDown_le hden (hhigh.trans_eq (hpower 53))
  have hfull : 2 ^ 52 ≤ scaleDown num den (exponentOf num den) ∨
      exponentOf num den = leastExponent :=
    hlow.symm.imp_left fun h => le_scaleDown hden ((hpower 52).symm.trans_le h)
  have hbits : pow2 53 = 2 ^ 53 := rfl
  rw [ofRatio]
  by_cases hcarry : scaleDown num den (exponentOf num den) = pow2 53
  · simp only [if_pos hcarry]
    split
    · exact .infinite negative
    · exact .finite negative ⟨by decide, by omega, by omega, .inl le_rfl⟩
  · simp only [if_neg hcarry]
    split
    · exact .infinite negative
    · exact .finite negative ⟨by omega, hleast, by omega, hfull⟩

/-- Every decimal becomes a number in normal form. -/
theorem normal_ofDecimal (negative : Bool) (digits : Nat) (power : ℤ) :
    Normal (ofDecimal negative digits power) := by
  have hpower (n : ℕ) : 0 < pow10 n := Nat.pow_pos (by decide)
  rw [ofDecimal]
  split
  · exact .finite negative isNormal_zero
  · rename_i hdigits
    split
    · exact .infinite negative
    · split
      · exact .finite negative isNormal_zero
      · have hnum := Nat.mul_pos (Nat.pos_of_ne_zero hdigits) (hpower power.toNat)
        exact normal_ofRatio hnum (hpower _) negative

/-! ### Shortest decimals -/

/-- Whichever decimal is taken, it lies among the reals of the number. -/
theorem roundsTo_shortestFrom {mantissa : Nat} (hpos : 0 < mantissa) (exponent scale : ℤ)
    (tries count : Nat) :
    RoundsTo mantissa exponent ((shortestFrom mantissa exponent scale tries count).1 *
      10 ^ (shortestFrom mantissa exponent scale tries count).2) := by
  fun_induction shortestFrom mantissa exponent scale tries count with
  | case1 count =>
      -- the number itself, as a decimal
      have hexact : ((mantissa * pow2 exponent.toNat * Nat.pow 5 (-exponent).toNat : ℕ) : ℚ) *
          10 ^ min exponent 0 = mantissa * 2 ^ exponent := by
        have htwos := zpow_mul_pow_toNat (by norm_num : (2 : ℚ) ≠ 0) exponent
        have hfives := zpow_mul_pow_toNat (by norm_num : (5 : ℚ) ≠ 0) exponent
        rw [Nat.cast_mul, Nat.cast_mul, cast_pow2, Nat.pow_eq, Nat.cast_pow, Nat.cast_ofNat]
        rcases le_total 0 exponent with h | h
        · rw [show (-exponent).toNat = 0 by omega, pow_zero, mul_one] at htwos
          rw [show (-exponent).toNat = 0 by omega, min_eq_right h, htwos]
          simp
        · rw [show exponent.toNat = 0 by omega, pow_zero] at hfives ⊢
          rw [min_eq_left h, show (10 : ℚ) = 2 * 5 by norm_num, mul_zpow]
          linear_combination (mantissa * 2 ^ exponent : ℚ) * hfives
      rw [hexact]
      exact roundsTo_self mantissa exponent
  | case2 _ _ _ _ _ _ _ _ hboth =>
      exact (readsBack_iff hpos _ _ _).mp (Bool.and_eq_true_iff.mp hboth).1
  | case3 _ _ _ _ _ _ _ _ hboth =>
      exact (readsBack_iff hpos _ _ _).mp (Bool.and_eq_true_iff.mp hboth).2
  | case4 _ _ _ _ _ _ _ _ _ hlower => exact (readsBack_iff hpos _ _ _).mp hlower
  | case5 _ _ _ _ _ _ _ _ _ _ hupper => exact (readsBack_iff hpos _ _ _).mp hupper
  | case6 _ _ _ _ _ _ _ _ _ _ _ ih => exact ih

theorem roundsTo_shortest {mantissa : Nat} (hpos : 0 < mantissa) (exponent : ℤ) :
    RoundsTo mantissa exponent
      ((shortest mantissa exponent).1 * 10 ^ (shortest mantissa exponent).2) :=
  roundsTo_shortestFrom hpos _ _ _ _

end OperationLibrary.Decimal.Binary64
