import OperationLibrary.Proofs.JsonLexemes
import OperationLibrary.Proofs.NearestNumbers
import OperationLibrary.Proofs.NumberText

/-!
Numbers as text. The text of a finite number has digits with a point or a power of ten, wherever the
point falls; what it writes is the shortest decimal of the number, and so the number is read back.
-/

namespace OperationLibrary.Decimal.Binary64

open Syntax (IsDigits NumberParts)

/-! ### Digits -/

theorem decimalValue_eq (digits : List Char) :
    ofText.decimalValue digits = Nat.ofDigitChars 10 digits 0 := by
  rw [Nat.ofDigitChars_eq_foldl, ofText.decimalValue]
  congr
  funext n c
  rw [Nat.mul_comm]
  rfl

theorem decimalValue_toDigits (n : Nat) : ofText.decimalValue (Nat.toDigits 10 n) = n := by
  rw [decimalValue_eq, Nat.ofDigitChars_toDigits (by decide) (by decide)]

/-- Zeros in front do not count. -/
theorem decimalValue_zeros_append (count : Nat) (digits : List Char) :
    ofText.decimalValue (List.replicate count '0' ++ digits) = ofText.decimalValue digits := by
  simp [decimalValue_eq, Nat.ofDigitChars_append]

/-- Zeros behind multiply by ten. -/
theorem decimalValue_append_zeros (digits : List Char) (count : Nat) :
    ofText.decimalValue (digits ++ List.replicate count '0') =
      10 ^ count * ofText.decimalValue digits := by
  simp [decimalValue_eq, Nat.ofDigitChars_append]

/-- A number that is not zero starts with another digit. -/
theorem head?_toDigits_ne {n : Nat} (h : 0 < n) : (Nat.toDigits 10 n).head? ≠ some '0' := by
  induction n using Nat.base_induction 10 (by decide) with
  | single d hd =>
      rw [Nat.toDigits_of_lt_base hd]
      simpa using h.ne'
  | digit n d hd hn ih =>
      rw [← Nat.toDigits_append_toDigits (by decide) hn hd,
        List.head?_append_of_ne_nil _ Nat.toDigits_ne_nil]
      exact ih hn

theorem exists_eq_dropTrailingZeros_append (digits : List Char) :
    ∃ count, digits = dropTrailingZeros digits ++ List.replicate count '0' := by
  refine ⟨(digits.reverse.takeWhile (· == '0')).length, ?_⟩
  have hzeros : digits.reverse.takeWhile (· == '0') =
      List.replicate (digits.reverse.takeWhile (· == '0')).length '0' :=
    List.eq_replicate_iff.mpr ⟨rfl, fun c hc => by simpa using List.mem_takeWhile_imp hc⟩
  have hsplit := congrArg List.reverse
    (List.takeWhile_append_dropWhile (p := (· == '0')) (l := digits.reverse))
  rw [List.reverse_append, List.reverse_reverse, hzeros, List.reverse_replicate] at hsplit
  rw [dropTrailingZeros, hsplit]

/-! ### Numbers that are put together -/

/-- The power of ten that is written behind its mark. -/
def writtenPower (exponent : List Char) : ℤ :=
  match exponent.drop 1 with
  | '-' :: digits => -(ofText.decimalValue digits : ℤ)
  | '+' :: digits => ofText.decimalValue digits
  | digits => ofText.decimalValue digits

theorem writtenPower_mark (exponent : ℤ) :
    writtenPower ('e' :: (if exponent < 0 then '-' else '+') ::
      padded 2 (Nat.toDigits 10 exponent.natAbs)) = exponent := by
  have hdigits : ofText.decimalValue (padded 2 (Nat.toDigits 10 exponent.natAbs)) =
      exponent.natAbs := by
    rw [padded, decimalValue_zeros_append, decimalValue_toDigits]
  split_ifs with hsign
  · change -(ofText.decimalValue (padded 2 (Nat.toDigits 10 exponent.natAbs)) : ℤ) = exponent
    omega
  · change (ofText.decimalValue (padded 2 (Nat.toDigits 10 exponent.natAbs)) : ℤ) = exponent
    omega

theorem takeWhile_significand {sign whole fraction exponent : List Char}
    (h : NumberParts sign whole fraction exponent) :
    (whole ++ (fraction ++ exponent)).takeWhile (fun c => !(c == 'e' || c == 'E')) =
      whole ++ fraction := by
  have hdigit (c : Char) (hc : c.isDigit = true) : (!(c == 'e' || c == 'E')) = true := by
    simp [Syntax.ne_of_kind hc (d := 'e') rfl, Syntax.ne_of_kind hc (d := 'E') rfl]
  have hfront : ∀ c ∈ whole ++ fraction, (!(c == 'e' || c == 'E')) = true := by
    rw [List.forall_mem_append]
    refine ⟨fun c hc => hdigit c (h.digits.2 c hc), ?_⟩
    obtain rfl | ⟨digits, rfl, hdigits⟩ := h.fraction_cases
    · simp
    · exact List.forall_mem_cons.mpr ⟨rfl, fun c hc => hdigit c (hdigits.2 c hc)⟩
  rw [← List.append_assoc, List.takeWhile_append_of_pos hfront]
  obtain rfl | ⟨e, mark, digits, rfl, he, -, -⟩ := h.exponent_cases
  · simp
  · rw [List.takeWhile_cons_of_neg (by simp only [he]; decide), List.append_nil]

theorem takeWhile_whole {sign whole fraction exponent : List Char}
    (h : NumberParts sign whole fraction exponent) :
    (whole ++ fraction).takeWhile (· != '.') = whole := by
  have hwhole : ∀ c ∈ whole, (c != '.') = true := fun c hc =>
    bne_iff_ne.mpr (Syntax.ne_of_kind (h.digits.2 c hc) rfl)
  rw [List.takeWhile_append_of_pos hwhole]
  obtain rfl | ⟨digits, rfl, -⟩ := h.fraction_cases
  · simp
  · rw [List.takeWhile_cons_of_neg (by decide), List.append_nil]

/-- The number that a text without a sign writes. -/
def ofUnsigned (negative : Bool) (body : List Char) : Binary64 :=
  let significand := body.takeWhile fun c => !(c == 'e' || c == 'E')
  let whole := significand.takeWhile (· != '.')
  let fraction := (significand.drop whole.length).drop 1
  ofDecimal negative (ofText.decimalValue (whole ++ fraction))
    (writtenPower (body.drop significand.length) - fraction.length)

theorem ofText_ofList_minus (body : List Char) :
    ofText (String.ofList ('-' :: body)) = ofUnsigned true body := by
  rw [ofText, String.toList_ofList]
  rfl

theorem ofText_ofList_digit {d : Char} (hd : d.isDigit = true) (more : List Char) :
    ofText (String.ofList (d :: more)) = ofUnsigned false (d :: more) := by
  rw [ofText, String.toList_ofList]
  split
  rename_i negative body hsign
  split at hsign
  · rename_i hminus
    exact absurd (List.cons.inj hminus).1 (Syntax.ne_of_kind hd rfl)
  · rename_i hplus
    exact absurd (List.cons.inj hplus).1 (Syntax.ne_of_kind hd rfl)
  · obtain ⟨rfl, rfl⟩ := Prod.mk.inj hsign
    rfl

/-- What the text of a number is read as. -/
theorem ofText_parts {sign whole fraction exponent : List Char}
    (h : NumberParts sign whole fraction exponent) :
    ofText (String.ofList (sign ++ (whole ++ (fraction ++ exponent)))) =
      ofDecimal (!sign.isEmpty) (ofText.decimalValue (whole ++ fraction.drop 1))
        (writtenPower exponent - (fraction.drop 1).length) := by
  have hunsigned : ∀ negative, ofUnsigned negative (whole ++ (fraction ++ exponent)) =
      ofDecimal negative (ofText.decimalValue (whole ++ fraction.drop 1))
        (writtenPower exponent - (fraction.drop 1).length) := by
    intro negative
    simp only [ofUnsigned, takeWhile_significand h, takeWhile_whole h, List.drop_left]
    rw [← List.append_assoc, List.drop_left]
  rw [← hunsigned]
  obtain rfl | rfl := h.sign_cases
  · obtain ⟨d, more, rfl, hd⟩ := h.digits.exists_cons
    exact ofText_ofList_digit hd _
  · exact ofText_ofList_minus _

/-! ### Positional and scientific texts -/

/-- A text that writes a number with a point or a power of ten, which is `value`. -/
def Writes (text : List Char) (value : ℚ) : Prop :=
  ∃ whole fraction exponent, NumberParts [] whole fraction exponent ∧
    text = whole ++ (fraction ++ exponent) ∧ (fraction.isEmpty && exponent.isEmpty) = false ∧
      ofText.decimalValue (whole ++ fraction.drop 1) *
        10 ^ (writtenPower exponent - (fraction.drop 1).length) = value

theorem signed_parts {whole fraction exponent : List Char}
    (h : NumberParts [] whole fraction exponent) (negative : Bool) :
    NumberParts (if negative then ['-'] else []) whole fraction exponent :=
  { h with sign_cases := by cases negative <;> simp }

theorem Writes.isNumber {text : List Char} {value : ℚ} (h : Writes text value) (negative : Bool) :
    Syntax.IsNumber ((if negative then ['-'] else []) ++ text) true := by
  obtain ⟨whole, fraction, exponent, hparts, rfl, hfloat, -⟩ := h
  refine ⟨_, whole, fraction, exponent, signed_parts hparts negative, rfl, ?_⟩
  rw [hfloat]
  rfl

/-- A text is read as the number that all decimals of its value become. -/
theorem Writes.ofText_eq {text : List Char} {value : ℚ} (h : Writes text value) (negative : Bool)
    {x : Binary64} (hvalue : ∀ (digits : Nat) (power : ℤ), digits * 10 ^ power = value →
      ofDecimal negative digits power = x) :
    ofText (String.ofList ((if negative then ['-'] else []) ++ text)) = x := by
  obtain ⟨whole, fraction, exponent, hparts, rfl, -, htext⟩ := h
  rw [ofText_parts (signed_parts hparts negative)]
  cases negative <;> exact hvalue _ _ htext

theorem isDigits_replicate_append {digits : List Char} (h : IsDigits digits) (count : Nat) :
    IsDigits (List.replicate count '0' ++ digits) := by
  refine ⟨by simp [h.1], List.forall_mem_append.mpr ⟨fun c hc => ?_, h.2⟩⟩
  rw [(List.mem_replicate.mp hc).2]
  rfl

theorem isDigits_append_replicate {digits : List Char} (h : IsDigits digits) (count : Nat) :
    IsDigits (digits ++ List.replicate count '0') := by
  refine ⟨by simp [h.1], List.forall_mem_append.mpr ⟨h.2, fun c hc => ?_⟩⟩
  rw [(List.mem_replicate.mp hc).2]
  rfl

theorem isDigits_zero : IsDigits ['0'] := by
  simp [IsDigits]

/-- Digits in front of a point and behind it. -/
theorem writes_point {whole fraction : List Char} (hwhole : IsDigits whole)
    (hzero : whole.head? = some '0' → whole = ['0']) (hfraction : IsDigits fraction) :
    Writes (whole ++ '.' :: fraction)
      (ofText.decimalValue (whole ++ fraction) * 10 ^ (-fraction.length : ℤ)) := by
  refine ⟨whole, '.' :: fraction, [], ?_, by rw [List.append_nil], rfl, ?_⟩
  · exact ⟨.inl rfl, hwhole, hzero, .inr ⟨fraction, rfl, hfraction⟩, .inl rfl⟩
  · have hpower : writtenPower [] = 0 := rfl
    rw [List.drop_one, List.tail_cons, hpower, zero_sub]

section

variable {digits : List Char} (hdigits : IsDigits digits) (hfirst : digits.head? ≠ some '0')

include hdigits hfirst

theorem writes_positional (place : ℤ) : Writes (positional digits place)
    (ofText.decimalValue digits * 10 ^ (place - digits.length)) := by
  unfold positional
  split_ifs with hfront hbehind
  · -- zeros stand in front of the digits
    have hwrites := writes_point isDigits_zero (fun _ => rfl)
      (isDigits_replicate_append hdigits (-place).toNat)
    have hzeros : ['0'] ++ (List.replicate (-place).toNat '0' ++ digits) =
        List.replicate ((-place).toNat + 1) '0' ++ digits := by
      rw [List.replicate_succ]
      rfl
    have hpower : (-(List.replicate (-place).toNat '0' ++ digits).length : ℤ) =
        place - digits.length := by
      rw [List.length_append, List.length_replicate]
      omega
    rwa [hzeros, decimalValue_zeros_append, hpower] at hwrites
  · -- zeros stand behind the digits
    have hwhole := isDigits_append_replicate hdigits (place.toNat - digits.length)
    have hwrites := writes_point hwhole (fun hzero => ?_) isDigits_zero
    · have hzeros : digits ++ List.replicate (place.toNat - digits.length) '0' ++ ['0'] =
          digits ++ List.replicate (place.toNat - digits.length + 1) '0' := by
        rw [List.append_assoc, List.replicate_succ']
      have hpower : ((place.toNat - digits.length + 1 : ℕ) : ℤ) + -(['0'].length : ℤ) =
          place - digits.length := by
        rw [List.length_singleton]
        omega
      rwa [hzeros, decimalValue_append_zeros, Nat.cast_mul, Nat.cast_pow, Nat.cast_ofNat,
        mul_right_comm, mul_comm, ← zpow_natCast, ← zpow_add₀ (by norm_num), hpower] at hwrites
    · rw [List.head?_append_of_ne_nil _ hdigits.1] at hzero
      exact absurd hzero hfirst
  · -- the point stands between the digits
    have hplace : place.toNat < digits.length := by omega
    have hwhole : IsDigits (digits.take place.toNat) := by
      refine ⟨?_, fun d hd => hdigits.2 d (List.mem_of_mem_take hd)⟩
      rw [Ne, List.take_eq_nil_iff]
      exact not_or.mpr ⟨by omega, hdigits.1⟩
    have hfraction : IsDigits (digits.drop place.toNat) := by
      refine ⟨?_, fun d hd => hdigits.2 d (List.mem_of_mem_drop hd)⟩
      rw [Ne, List.drop_eq_nil_iff]
      omega
    have hwrites := writes_point hwhole (fun hzero => ?_) hfraction
    · have hpower : (-(digits.drop place.toNat).length : ℤ) = place - digits.length := by
        rw [List.length_drop]
        omega
      rwa [List.take_append_drop, hpower] at hwrites
    · rw [List.head?_take, if_neg (by omega)] at hzero
      exact absurd hzero hfirst

theorem writes_scientific (exponent : ℤ) : Writes (scientific digits exponent)
    (ofText.decimalValue digits * 10 ^ (exponent + 1 - digits.length)) := by
  obtain ⟨d, more, rfl, hd⟩ := hdigits.exists_cons
  have hmore : ∀ c ∈ more, c.isDigit = true := fun c hc => hdigits.2 c (List.mem_cons_of_mem _ hc)
  have hpadded : IsDigits (padded 2 (Nat.toDigits 10 exponent.natAbs)) :=
    isDigits_replicate_append
      ⟨Nat.toDigits_ne_nil, fun c hc => Json.isDigit_of_mem_toDigits hc⟩ _
  -- a single digit has no point behind it
  obtain ⟨fraction, hfraction⟩ : ∃ fraction, fraction = if more.isEmpty then [] else '.' :: more :=
    ⟨_, rfl⟩
  have hbehind : fraction.drop 1 = more := by
    rw [hfraction]
    split
    · rename_i hnil
      exact (List.isEmpty_iff.mp hnil).symm
    · rfl
  refine ⟨[d], fraction, 'e' :: (if exponent < 0 then '-' else '+') ::
    padded 2 (Nat.toDigits 10 exponent.natAbs), ?_, ?_, by simp, ?_⟩
  · refine ⟨.inl rfl, ⟨by simp, by simpa using hd⟩, fun hzero => absurd hzero hfirst, ?_,
      .inr ⟨'e', [if exponent < 0 then '-' else '+'], _, rfl, rfl, ?_, hpadded⟩⟩
    · rw [hfraction]
      split
      · exact .inl rfl
      · rename_i hne
        exact .inr ⟨more, rfl, by simpa using hne, hmore⟩
    · split
      · exact .inr (.inr rfl)
      · exact .inr (.inl rfl)
  · rw [hfraction]
    simp [scientific]
  · rw [hbehind, writtenPower_mark]
    congr 2
    rw [List.length_cons]
    omega

end

/-! ### Numbers read back -/

/-- Zeros at the end make no difference behind the place of the first digit. -/
theorem decimalValue_dropTrailingZeros (digits : List Char) (power : ℤ) :
    (ofText.decimalValue (dropTrailingZeros digits) : ℚ) *
      10 ^ (digits.length + power - (dropTrailingZeros digits).length) =
        ofText.decimalValue digits * 10 ^ power := by
  obtain ⟨count, hzeros⟩ := exists_eq_dropTrailingZeros_append digits
  generalize dropTrailingZeros digits = kept at hzeros ⊢
  subst hzeros
  rw [decimalValue_append_zeros, Nat.cast_mul, Nat.cast_pow, Nat.cast_ofNat, mul_right_comm,
    mul_comm, ← zpow_natCast, ← zpow_add₀ (by norm_num), List.length_append, List.length_replicate]
  congr 2
  omega

theorem isDigits_dropTrailingZeros {number : Nat} (h : 0 < number) :
    IsDigits (dropTrailingZeros (Nat.toDigits 10 number)) ∧
      (dropTrailingZeros (Nat.toDigits 10 number)).head? ≠ some '0' := by
  obtain ⟨count, hzeros⟩ := exists_eq_dropTrailingZeros_append (Nat.toDigits 10 number)
  have hfirst := head?_toDigits_ne h
  have hne : dropTrailingZeros (Nat.toDigits 10 number) ≠ [] := by
    intro hnil
    rw [hnil, List.nil_append] at hzeros
    cases count with
    | zero => exact Nat.toDigits_ne_nil hzeros
    | succ count => exact hfirst (by rw [hzeros]; rfl)
  refine ⟨⟨hne, fun d hd => Json.isDigit_of_mem_toDigits (Json.mem_dropTrailingZeros hd)⟩, ?_⟩
  rwa [hzeros, List.head?_append_of_ne_nil _ hne] at hfirst

/-- The text of a number writes its shortest decimal. -/
theorem writes_magnitudeText {mantissa : Nat} (hpos : 0 < mantissa) (exponent : ℤ) :
    Writes (magnitudeText mantissa exponent)
      ((shortest mantissa exponent).1 * 10 ^ (shortest mantissa exponent).2) := by
  have hnumber : 0 < (shortest mantissa exponent).1 := by
    have hvalue := (roundsTo_shortest hpos exponent).pos hpos
    refine Nat.pos_of_ne_zero fun hzero => ?_
    simp [hzero] at hvalue
  rw [magnitudeText, if_neg hpos.ne']
  generalize shortest mantissa exponent = decimal at hnumber ⊢
  obtain ⟨number, power⟩ := decimal
  obtain ⟨hdigits, hfirst⟩ := isDigits_dropTrailingZeros hnumber
  dsimp only
  split_ifs
  · have hwrites := writes_positional hdigits hfirst ((Nat.toDigits 10 number).length + power)
    rwa [decimalValue_dropTrailingZeros, decimalValue_toDigits] at hwrites
  · have hwrites := writes_scientific hdigits hfirst ((Nat.toDigits 10 number).length + power - 1)
    rwa [sub_add_cancel, decimalValue_dropTrailingZeros, decimalValue_toDigits] at hwrites

theorem magnitudeText_zero (exponent : ℤ) : magnitudeText 0 exponent = ['0', '.', '0'] :=
  if_pos rfl

theorem writes_zero : Writes ['0', '.', '0'] 0 := by
  have hwrites := writes_point isDigits_zero (fun _ => rfl) isDigits_zero
  have hvalue : ofText.decimalValue (['0'] ++ ['0']) = 0 := rfl
  rwa [hvalue, Nat.cast_zero, zero_mul] at hwrites

/-- The text of a finite number is that of a number with a point or a power of ten. -/
theorem isNumber_toText (negative : Bool) (mantissa : Nat) (exponent : ℤ) :
    Syntax.IsNumber (toText (.finite negative mantissa exponent)).toList true := by
  obtain ⟨value, hwrites⟩ : ∃ value, Writes (magnitudeText mantissa exponent) value := by
    rcases Nat.eq_zero_or_pos mantissa with rfl | hpos
    · exact ⟨0, by rw [magnitudeText_zero]; exact writes_zero⟩
    · exact ⟨_, writes_magnitudeText hpos exponent⟩
  rw [toText, String.toList_ofList]
  exact hwrites.isNumber negative

/-- **Numbers are read back.** The text of a finite number is read as this number. -/
theorem ofText_toText {mantissa : Nat} {exponent : ℤ} (hnormal : IsNormal mantissa exponent)
    (negative : Bool) : ofText (toText (.finite negative mantissa exponent)) =
      .finite negative mantissa exponent := by
  rw [toText]
  rcases Nat.eq_zero_or_pos mantissa with rfl | hpos
  · rw [magnitudeText_zero]
    refine writes_zero.ofText_eq negative fun digits power hvalue => ?_
    obtain rfl : exponent = leastExponent := hnormal.full.resolve_left (by decide)
    have hpower : (10 : ℚ) ^ power ≠ 0 := zpow_ne_zero _ (by norm_num)
    obtain rfl : digits = 0 := by simpa [hpower] using hvalue
    rw [ofDecimal, if_pos rfl]
  · refine (writes_magnitudeText hpos exponent).ofText_eq negative fun digits power hvalue => ?_
    exact ofDecimal_of_roundsTo hpos hnormal (hvalue ▸ roundsTo_shortest hpos exponent) negative

end OperationLibrary.Decimal.Binary64
