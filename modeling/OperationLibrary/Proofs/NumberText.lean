import OperationLibrary.Proofs.Lexemes

/-!
Numbers in a text. A number has a sign, digits, a fraction and an exponent, of which only the digits
must be there; it is read up to where it ends, so that it is read the same way wherever it stands
and nothing behind it belongs to it.
-/

namespace OperationLibrary.Syntax

/-- Digits, at least one. -/
def IsDigits (digits : List Char) : Prop :=
  digits ≠ [] ∧ ∀ d ∈ digits, d.isDigit = true

/-- The parts that a number is put together from. -/
structure NumberParts (sign whole fraction exponent : List Char) : Prop where
  sign_cases : sign = [] ∨ sign = ['-']
  digits : IsDigits whole
  zero : whole.head? = some '0' → whole = ['0']
  fraction_cases : fraction = [] ∨ ∃ digits, fraction = '.' :: digits ∧ IsDigits digits
  exponent_cases : exponent = [] ∨ ∃ e mark digits, exponent = e :: (mark ++ digits) ∧
    (e == 'e' || e == 'E') = true ∧ (mark = [] ∨ mark = ['+'] ∨ mark = ['-']) ∧ IsDigits digits

/-- The text of a number, with a fraction or an exponent or without either. -/
def IsNumber (text : List Char) (isFloat : Bool) : Prop :=
  ∃ sign whole fraction exponent, NumberParts sign whole fraction exponent ∧
    text = sign ++ (whole ++ (fraction ++ exponent)) ∧
      isFloat = !(fraction.isEmpty && exponent.isEmpty)

/-- No digit is at the front. -/
def NoDigit (rest : List Char) : Prop :=
  ∀ c ∈ rest.head?, c.isDigit = false

theorem Separated.noDigit {rest : List Char} (h : Separated rest) : NoDigit rest := by
  intro c hc
  have hname := h.isNameContinue_eq_false c hc
  simp only [isNameContinue, Char.isAlphanum, Bool.or_eq_false_iff] at hname
  exact hname.1.2

theorem NoDigit.cons {c : Char} (h : c.isDigit = false) (rest : List Char) :
    NoDigit (c :: rest) := by
  intro d hd
  obtain rfl := Option.some.inj hd
  exact h

/-! ### Reading what has been put together -/

theorem scanDigits_append {digits rest : List Char} (h : IsDigits digits) (hrest : NoDigit rest)
    (offset : Nat) : scanDigits (digits ++ rest) offset = .ok digits := by
  rw [scanDigits, takeWhile_append_eq h.2 hrest]
  split
  · exact absurd rfl h.1
  · rfl

theorem IsDigits.exists_cons {digits : List Char} (h : IsDigits digits) :
    ∃ d more, digits = d :: more ∧ d.isDigit = true := by
  obtain ⟨d, more, rfl⟩ := List.exists_cons_of_ne_nil h.1
  exact ⟨d, more, rfl, h.2 d List.mem_cons_self⟩

theorem scanWhole_append {whole rest : List Char} (h : IsDigits whole)
    (hzero : whole.head? = some '0' → whole = ['0']) (hrest : NoDigit rest) (offset : Nat) :
    scanWhole (whole ++ rest) offset = .ok whole := by
  unfold scanWhole
  split
  · rename_i c more htext
    obtain ⟨d, digits, rfl, -⟩ := h.exists_cons
    obtain ⟨rfl, htail⟩ := List.cons.inj htext
    obtain rfl : digits = [] := (List.cons.inj (hzero rfl)).2
    obtain rfl : rest = c :: more := htail
    rw [if_neg (by simp [hrest c rfl])]
  · exact scanDigits_append h hrest offset

/-- Neither a point nor the mark of an exponent is at the front. -/
theorem Separated.ne_of_mem_head? {rest : List Char} (h : Separated rest) {c : Char}
    (hc : c ∈ rest.head?) : c ≠ '.' ∧ (c == 'e' || c == 'E') = false ∧ isNameStart c = false := by
  have hname := h.isNameContinue_eq_false c hc
  have hseparator := h c hc
  refine ⟨?_, ?_, ?_⟩
  · rintro rfl
    exact absurd hseparator (by decide)
  · rw [Bool.or_eq_false_iff, beq_eq_false_iff_ne, beq_eq_false_iff_ne]
    constructor <;> (rintro rfl; exact absurd hname (by decide))
  · cases hstart : isNameStart c with
    | false => rfl
    | true => rw [isNameContinue_of_isNameStart hstart] at hname; contradiction

theorem scanFraction_append {fraction rest : List Char}
    (h : fraction = [] ∨ ∃ digits, fraction = '.' :: digits ∧ IsDigits digits)
    (hdigit : NoDigit rest) (hpoint : '.' ∉ rest.head?) (offset : Nat) :
    scanFraction (fraction ++ rest) offset = .ok fraction := by
  obtain rfl | ⟨digits, rfl, hdigits⟩ := h
  · unfold scanFraction
    split
    · rename_i more htext
      exact absurd (by rw [← List.nil_append rest, htext]; rfl) hpoint
    · rfl
  · rw [List.cons_append, scanFraction, scanDigits_append hdigits hdigit]
    rfl

theorem exponentSign_append {mark digits : List Char}
    (hmark : mark = [] ∨ mark = ['+'] ∨ mark = ['-']) (hdigits : IsDigits digits)
    (rest : List Char) : exponentSign (mark ++ (digits ++ rest)) = mark := by
  obtain ⟨d, more, rfl, hd⟩ := hdigits.exists_cons
  have hplain : (d == '+' || d == '-') = false := by
    rw [Bool.or_eq_false_iff, beq_eq_false_iff_ne, beq_eq_false_iff_ne]
    exact ⟨ne_of_kind hd rfl, ne_of_kind hd rfl⟩
  obtain rfl | rfl | rfl := hmark
  · simp [exponentSign, hplain]
  · rfl
  · rfl

theorem scanExponent_append {exponent rest : List Char}
    (h : exponent = [] ∨ ∃ e mark digits, exponent = e :: (mark ++ digits) ∧
      (e == 'e' || e == 'E') = true ∧ (mark = [] ∨ mark = ['+'] ∨ mark = ['-']) ∧ IsDigits digits)
    (hrest : Separated rest) (offset : Nat) :
    scanExponent (exponent ++ rest) offset = .ok exponent := by
  obtain rfl | ⟨e, mark, digits, rfl, he, hmark, hdigits⟩ := h
  · cases rest with
    | nil => rfl
    | cons c rest =>
        rw [List.nil_append, scanExponent, if_neg (by simp [(hrest.ne_of_mem_head? rfl).2.1])]
  · rw [List.cons_append, List.append_assoc, scanExponent, if_pos he]
    simp only [exponentSign_append hmark hdigits, List.drop_left]
    rw [scanDigits_append hdigits hrest.noDigit]
    rfl

theorem NumberParts.noDigit {sign whole fraction exponent rest : List Char}
    (h : NumberParts sign whole fraction exponent) (hrest : Separated rest) :
    NoDigit (exponent ++ rest) ∧ '.' ∉ (exponent ++ rest).head? ∧
      NoDigit (fraction ++ (exponent ++ rest)) := by
  have hexponent : NoDigit (exponent ++ rest) ∧ '.' ∉ (exponent ++ rest).head? := by
    obtain rfl | ⟨e, mark, digits, rfl, he, -, -⟩ := h.exponent_cases
    · exact ⟨hrest.noDigit, fun hpoint => (hrest.ne_of_mem_head? hpoint).1 rfl⟩
    · rw [Bool.or_eq_true, beq_iff_eq, beq_iff_eq] at he
      obtain rfl | rfl := he
      · exact ⟨.cons rfl _, by simp⟩
      · exact ⟨.cons rfl _, by simp⟩
  refine ⟨hexponent.1, hexponent.2, ?_⟩
  obtain rfl | ⟨digits, rfl, -⟩ := h.fraction_cases
  · exact hexponent.1
  · exact .cons rfl _

/-- A number is read as it is written. -/
theorem scanNumber_append {text rest : List Char} {isFloat : Bool} (h : IsNumber text isFloat)
    (hrest : Separated rest) : scanNumber (text ++ rest) = .ok (text, isFloat) := by
  obtain ⟨sign, whole, fraction, exponent, hparts, htext, rfl⟩ := h
  obtain ⟨hexponent, hpoint, hfraction⟩ := hparts.noDigit hrest
  have hsign : ((text ++ rest).takeWhile (· == '-')).take 1 = sign := by
    obtain ⟨d, more, rfl, hd⟩ := hparts.digits.exists_cons
    have hplain : (d == '-') = false := beq_eq_false_iff_ne.mpr (ne_of_kind hd rfl)
    obtain rfl | rfl := hparts.sign_cases <;> simp [htext, hplain]
  -- each part is read from where the one before it ends
  have hwhole : (text ++ rest).drop sign.length =
      whole ++ (fraction ++ (exponent ++ rest)) := by
    simp [htext]
  have hfront : (text ++ rest).drop (sign ++ whole).length = fraction ++ (exponent ++ rest) := by
    have hsplit : text ++ rest = (sign ++ whole) ++ (fraction ++ (exponent ++ rest)) := by
      simp [htext]
    rw [hsplit, List.drop_left]
  have hpower : (text ++ rest).drop (sign ++ whole ++ fraction).length = exponent ++ rest := by
    have hsplit : text ++ rest = (sign ++ whole ++ fraction) ++ (exponent ++ rest) := by
      simp [htext]
    rw [hsplit, List.drop_left]
  have hall : sign ++ whole ++ fraction ++ exponent = text := by simp [htext]
  unfold scanNumber
  simp only [hsign, hwhole, hfront, hpower, scanWhole_append hparts.digits hparts.zero hfraction,
    scanFraction_append hparts.fraction_cases hexponent hpoint,
    scanExponent_append hparts.exponent_cases hrest, hall, List.drop_left, bind, Except.bind]
  cases rest with
  | nil => rfl
  | cons c rest =>
      obtain ⟨hc, -, hstart⟩ := hrest.ne_of_mem_head? (c := c) rfl
      simp [hc, hstart]

/-! ### What is read has been put together -/

/-- A result comes from a result of the first step. -/
theorem exists_of_bind_ok {ε α β : Type} {x : Except ε α} {f : α → Except ε β} {b : β}
    (h : x >>= f = .ok b) : ∃ a, x = .ok a ∧ f a = .ok b := by
  cases x with
  | error fault => contradiction
  | ok a => exact ⟨a, rfl, h⟩

theorem exists_of_map_ok {ε α β : Type} {x : Except ε α} {f : α → β} {b : β}
    (h : x.map f = .ok b) : ∃ a, x = .ok a ∧ f a = b := by
  cases x with
  | error fault => contradiction
  | ok a => exact ⟨a, rfl, Except.ok.inj h⟩

theorem isDigits_of_scanDigits {text digits : List Char} {offset : Nat}
    (h : scanDigits text offset = .ok digits) :
    digits = text.takeWhile Char.isDigit ∧ IsDigits digits := by
  unfold scanDigits at h
  split at h
  · contradiction
  · rename_i hne
    obtain rfl := Except.ok.inj h
    exact ⟨rfl, fun hnil => hne hnil, fun d hd => List.mem_takeWhile_imp hd⟩

/-- Digits at the front of a text that starts with a zero and has no digit behind it. -/
theorem takeWhile_zero {text : List Char} (hlong : ∀ c more, text ≠ '0' :: c :: more)
    (hzero : (text.takeWhile Char.isDigit).head? = some '0') :
    text.takeWhile Char.isDigit = ['0'] := by
  match text with
  | [] => contradiction
  | [c] =>
      by_cases hc : c.isDigit = true
      · rw [List.takeWhile_cons_of_pos hc] at hzero ⊢
        obtain rfl := Option.some.inj hzero
        rfl
      · rw [List.takeWhile_cons_of_neg hc] at hzero
        contradiction
  | c :: d :: more =>
      by_cases hc : c.isDigit = true
      · rw [List.takeWhile_cons_of_pos hc] at hzero
        obtain rfl := Option.some.inj hzero
        exact absurd rfl (hlong d more)
      · rw [List.takeWhile_cons_of_neg hc] at hzero
        contradiction

theorem digits_of_scanWhole {text whole : List Char} {offset : Nat}
    (h : scanWhole text offset = .ok whole) :
    IsDigits whole ∧ (whole.head? = some '0' → whole = ['0']) := by
  unfold scanWhole at h
  split at h
  · split at h
    · contradiction
    · obtain rfl := Except.ok.inj h
      exact ⟨⟨by simp, by simp⟩, fun _ => rfl⟩
  · rename_i hlong
    obtain ⟨rfl, hdigits⟩ := isDigits_of_scanDigits h
    exact ⟨hdigits, takeWhile_zero hlong⟩

theorem fraction_of_scanFraction {text fraction : List Char} {offset : Nat}
    (h : scanFraction text offset = .ok fraction) :
    fraction = [] ∨ ∃ digits, fraction = '.' :: digits ∧ IsDigits digits := by
  unfold scanFraction at h
  split at h
  · obtain ⟨digits, hdigits, rfl⟩ := exists_of_map_ok h
    exact .inr ⟨digits, rfl, (isDigits_of_scanDigits hdigits).2⟩
  · exact .inl (Except.ok.inj h).symm

theorem exponentSign_cases (text : List Char) :
    exponentSign text = [] ∨ exponentSign text = ['+'] ∨ exponentSign text = ['-'] := by
  cases text with
  | nil => exact .inl rfl
  | cons c text =>
      by_cases hplus : c = '+'
      · subst hplus; exact .inr (.inl rfl)
      · by_cases hminus : c = '-'
        · subst hminus; exact .inr (.inr rfl)
        · exact .inl (by simp [exponentSign, hplus, hminus])

theorem exponent_of_scanExponent {text exponent : List Char} {offset : Nat}
    (h : scanExponent text offset = .ok exponent) :
    exponent = [] ∨ ∃ e mark digits, exponent = e :: (mark ++ digits) ∧
      (e == 'e' || e == 'E') = true ∧ (mark = [] ∨ mark = ['+'] ∨ mark = ['-']) ∧
        IsDigits digits := by
  unfold scanExponent at h
  split at h
  · rename_i e rest
    split at h
    · rename_i he
      obtain ⟨digits, hdigits, rfl⟩ := exists_of_map_ok h
      exact .inr ⟨e, exponentSign rest, digits, rfl, he, exponentSign_cases rest,
        (isDigits_of_scanDigits hdigits).2⟩
    · exact .inl (Except.ok.inj h).symm
  · exact .inl (Except.ok.inj h).symm

theorem sign_cases (text : List Char) :
    (text.takeWhile (· == '-')).take 1 = [] ∨ (text.takeWhile (· == '-')).take 1 = ['-'] := by
  cases text with
  | nil => exact .inl rfl
  | cons c text =>
      by_cases h : c = '-'
      · subst h; exact .inr (by simp)
      · exact .inl (by simp [h])

theorem isNumber_of_scanNumber {text number : List Char} {isFloat : Bool}
    (h : scanNumber text = .ok (number, isFloat)) : IsNumber number isFloat := by
  unfold scanNumber at h
  obtain ⟨whole, hwhole, h⟩ := exists_of_bind_ok h
  obtain ⟨fraction, hfraction, h⟩ := exists_of_bind_ok h
  obtain ⟨exponent, hexponent, h⟩ := exists_of_bind_ok h
  have hparts : NumberParts _ whole fraction exponent :=
    ⟨sign_cases text, (digits_of_scanWhole hwhole).1, (digits_of_scanWhole hwhole).2,
      fraction_of_scanFraction hfraction, exponent_of_scanExponent hexponent⟩
  have hresult : ((text.takeWhile (· == '-')).take 1 ++ whole ++ fraction ++ exponent,
      !(fraction.isEmpty && exponent.isEmpty)) = (number, isFloat) := by
    simp only at h
    split at h
    · split at h
      · contradiction
      · exact Except.ok.inj h
    · exact Except.ok.inj h
  obtain ⟨rfl, rfl⟩ := Prod.mk.inj hresult
  exact ⟨_, whole, fraction, exponent, hparts, by simp, rfl⟩

/-! ### Numbers as lexemes -/

/-- The lexeme of a number. -/
def numberLexeme (text : String) (isFloat : Bool) : Lexeme :=
  if isFloat then .float text else .int text

/-- A number starts with a digit or its sign. -/
def isNumberStart (c : Char) : Bool :=
  c.isDigit || c == '-'

theorem IsNumber.exists_cons {text : List Char} {isFloat : Bool} (h : IsNumber text isFloat) :
    ∃ c more, text = c :: more ∧ isNumberStart c = true := by
  obtain ⟨sign, whole, fraction, exponent, hparts, rfl, -⟩ := h
  obtain ⟨d, digits, rfl, hd⟩ := hparts.digits.exists_cons
  obtain rfl | rfl := hparts.sign_cases
  · exact ⟨d, _, rfl, by simp [isNumberStart, hd]⟩
  · exact ⟨'-', _, rfl, rfl⟩

theorem scanLexeme_number {c : Char} {more rest : List Char} {isFloat : Bool}
    (hc : isNumberStart c = true) (h : IsNumber (c :: more) isFloat) (hrest : Separated rest) :
    scanLexeme c (more ++ rest) =
      .ok (numberLexeme (String.ofList (c :: more)) isFloat, more.length) := by
  have hnumber : scanNumber (c :: (more ++ rest)) = .ok (c :: more, isFloat) :=
    scanNumber_append h hrest
  unfold scanLexeme
  split
  all_goals first | exact absurd hc (by decide) | skip
  rw [ofChar?_eq_none hc rfl]
  rw [isNumberStart] at hc
  simp only [hc, if_true, hnumber]
  rfl

/-- A number is on one line. -/
theorem IsNumber.feed_not_mem {text : List Char} {isFloat : Bool} (h : IsNumber text isFloat) :
    '\n' ∉ text := by
  have hdigits : ∀ digits, IsDigits digits → '\n' ∉ digits :=
    fun digits hdigits hmem => absurd (hdigits.2 _ hmem) (by decide)
  obtain ⟨sign, whole, fraction, exponent, hparts, rfl, -⟩ := h
  have hsign : '\n' ∉ sign := by obtain rfl | rfl := hparts.sign_cases <;> simp
  have hfraction : '\n' ∉ fraction := by
    obtain rfl | ⟨digits, rfl, h⟩ := hparts.fraction_cases
    · simp
    · simp [hdigits digits h]
  have hexponent : '\n' ∉ exponent := by
    obtain rfl | ⟨e, mark, digits, rfl, he, hmark, h⟩ := hparts.exponent_cases
    · simp
    · have hplain : '\n' ≠ e := by rintro rfl; exact absurd he (by decide)
      obtain rfl | rfl | rfl := hmark <;> simp [hdigits digits h, hplain]
  simp [hsign, hdigits whole hparts.digits, hfraction, hexponent]

theorem IsNumber.writes {text : List Char} {isFloat : Bool} (h : IsNumber text isFloat) :
    Writes text [numberLexeme (String.ofList text) isFloat] := by
  intro margin rest hrest
  obtain ⟨c, more, rfl, hc⟩ := h.exists_cons
  have hscan := scanLexeme_number hc h hrest
  rw [shifted_of_not_mem h.feed_not_mem, List.cons_append,
    lexemes_cons (isIgnored_eq_false hc rfl) (ne_of_kind hc rfl) hscan, List.drop_left]
  rfl

end OperationLibrary.Syntax
