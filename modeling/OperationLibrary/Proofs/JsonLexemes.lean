import Mathlib.Data.List.Forall2
import OperationLibrary.Proofs.JsonStrings

/-!
Where the parts of a compact JSON text end. Words and numbers consist of characters that neither
open, close nor divide anything, and a string ends at its closing quote; so of two texts that start
with values the values are the same if the texts are.
-/

namespace OperationLibrary.Json

open Decimal (Binary64)

/-- Whatever holds of values without parts, and passes from the parts of arrays and objects to the
whole, holds of all values. -/
theorem parts_induction {motive : Json → Prop} (null : motive .null)
    (bool : ∀ value, motive (.bool value)) (int : ∀ value, motive (.int value))
    (float : ∀ value, motive (.float value)) (string : ∀ text, motive (.string text))
    (array : ∀ items, (∀ item ∈ items, motive item) → motive (.array items))
    (object : ∀ members : List (String × Json), (∀ member ∈ members, motive member.2) →
      motive (.object members)) (value : Json) : motive value :=
  @Json.rec motive (fun items => ∀ item ∈ items, motive item)
    (fun members => ∀ member ∈ members, motive member.2) (fun member => motive member.2)
    null bool int float string array object
    (fun _ h => absurd h List.not_mem_nil)
    (fun _ _ head tail _ h => (List.mem_cons.mp h).elim (· ▸ head) (tail _))
    (fun _ h => absurd h List.not_mem_nil)
    (fun _ _ head tail _ h => (List.mem_cons.mp h).elim (· ▸ head) (tail _))
    (fun _ _ h => h) value

/-! ### Numbers -/

/-- The characters of integers. -/
def IsIntegerMark (c : Char) : Prop :=
  c.isDigit = true ∨ c = '-'

/-- The characters of numbers that are finite. -/
def IsNumberMark (c : Char) : Prop :=
  IsIntegerMark c ∨ c = '+' ∨ c = '.' ∨ c = 'e'

theorem isDigit_of_mem_toDigits {n : Nat} {c : Char} (h : c ∈ Nat.toDigits 10 n) :
    c.isDigit = true :=
  Nat.isDigit_of_mem_toDigits (by decide) (by decide) h

theorem eq_of_toDigits_eq {n m : Nat} (h : Nat.toDigits 10 n = Nat.toDigits 10 m) : n = m := by
  rw [← Nat.ofDigitChars_toDigits (by decide : 1 < 10) (by decide) (n := n), h,
    Nat.ofDigitChars_toDigits (by decide) (by decide)]

/-- The text of an integer is the digits of its size, behind a sign if it is negative. -/
theorem toList_toString (n : Int) : (toString n).toList =
    (if n < 0 then ['-'] else []) ++ Nat.toDigits 10 n.natAbs := by
  cases n with
  | ofNat n => simp [toString, Int.repr, Nat.repr]
  | negSucc n => simp [toString, Int.repr, Nat.repr, Int.negSucc_lt_zero]

theorem isIntegerMark_of_mem_toString {n : Int} {c : Char} (h : c ∈ (toString n).toList) :
    IsIntegerMark c := by
  rw [toList_toString, List.mem_append] at h
  rcases h with hsign | hdigit
  · split at hsign
    · exact .inr (List.mem_singleton.mp hsign)
    · exact absurd hsign List.not_mem_nil
  · exact .inl (isDigit_of_mem_toDigits hdigit)

theorem mem_dropTrailingZeros {digits : List Char} {c : Char}
    (h : c ∈ Binary64.dropTrailingZeros digits) : c ∈ digits :=
  List.mem_reverse.mp ((List.dropWhile_sublist _).subset (List.mem_reverse.mp h))

theorem isNumberMark_of_isDigit {c : Char} (h : c.isDigit = true) : IsNumberMark c :=
  .inl (.inl h)

section

variable {digits : List Char} (hdigits : ∀ d ∈ digits, d.isDigit = true)

include hdigits

theorem positional_marks (place : Int) :
    '.' ∈ Binary64.positional digits place ∧
      ∀ c ∈ Binary64.positional digits place, IsNumberMark c := by
  have hmark : IsNumberMark '.' := .inr (.inr (.inl rfl))
  have hzeros : ∀ n, ∀ c ∈ List.replicate n '0', IsNumberMark c := fun n c hc =>
    isNumberMark_of_isDigit (by rw [(List.mem_replicate.mp hc).2]; rfl)
  have hzero : IsNumberMark '0' := isNumberMark_of_isDigit rfl
  have hall : ∀ c ∈ digits, IsNumberMark c := fun c hc => isNumberMark_of_isDigit (hdigits c hc)
  unfold Binary64.positional
  split
  · refine ⟨by simp, ?_⟩
    simp only [List.forall_mem_cons, List.forall_mem_append]
    exact ⟨hzero, hmark, hzeros _, hall⟩
  split
  · refine ⟨by simp, ?_⟩
    simp only [List.forall_mem_cons, List.forall_mem_append]
    exact ⟨⟨hall, hzeros _⟩, hmark, hzero, by simp⟩
  · refine ⟨by simp, ?_⟩
    simp only [List.forall_mem_cons, List.forall_mem_append]
    exact ⟨fun c hc => hall c (List.mem_of_mem_take hc), hmark,
      fun c hc => hall c (List.mem_of_mem_drop hc)⟩

theorem scientific_marks (exponent : Int) :
    'e' ∈ Binary64.scientific digits exponent ∧
      ∀ c ∈ Binary64.scientific digits exponent, IsNumberMark c := by
  have hall : ∀ c ∈ digits, IsNumberMark c := fun c hc => isNumberMark_of_isDigit (hdigits c hc)
  have hfraction : ∀ c ∈ (if (digits.drop 1).isEmpty then [] else '.' :: digits.drop 1),
      IsNumberMark c := by
    split
    · simp
    · simp only [List.forall_mem_cons]
      exact ⟨.inr (.inr (.inl rfl)), fun c hc => hall c (List.mem_of_mem_drop hc)⟩
  have hpadded : ∀ c ∈ Binary64.padded 2 (Nat.toDigits 10 exponent.natAbs), IsNumberMark c := by
    intro c hc
    refine isNumberMark_of_isDigit ?_
    rcases List.mem_append.mp hc with hc | hc
    · rw [(List.mem_replicate.mp hc).2]; rfl
    · exact isDigit_of_mem_toDigits hc
  have hsign : IsNumberMark (if exponent < 0 then '-' else '+') := by
    split
    · exact .inl (.inr rfl)
    · exact .inr (.inl rfl)
  unfold Binary64.scientific
  refine ⟨by simp, ?_⟩
  simp only [List.forall_mem_cons, List.forall_mem_append]
  exact ⟨⟨fun c hc => hall c (List.mem_of_mem_take hc), hfraction⟩, .inr (.inr (.inr rfl)), hsign,
    hpadded⟩

end

/-- The characters by which the text of a floating point number is none of an integer. -/
def isFloatMark (c : Char) : Bool :=
  c ∈ ['.', 'e', 'N', 'I']

/-- The letters by which a word is no number. -/
def isWordMark (c : Char) : Bool :=
  c ∈ ['u', 'l']

theorem IsIntegerMark.isFloatMark_eq_false {c : Char} (h : IsIntegerMark c) :
    isFloatMark c = false := by
  refine Bool.eq_false_iff.mpr fun hfloat => ?_
  simp only [isFloatMark, List.mem_cons, List.not_mem_nil, or_false, decide_eq_true_iff] at hfloat
  rcases hfloat with rfl | rfl | rfl | rfl <;> exact absurd h (by unfold IsIntegerMark; decide)

theorem IsNumberMark.isWordMark_eq_false {c : Char} (h : IsNumberMark c) :
    isWordMark c = false := by
  refine Bool.eq_false_iff.mpr fun hword => ?_
  simp only [isWordMark, List.mem_cons, List.not_mem_nil, or_false, decide_eq_true_iff] at hword
  rcases hword with rfl | rfl <;>
    exact absurd h (by unfold IsNumberMark IsIntegerMark; decide)

theorem magnitudeText_marks (mantissa : Nat) (exponent : Int) :
    (Binary64.magnitudeText mantissa exponent).any isFloatMark = true ∧
      ∀ c ∈ Binary64.magnitudeText mantissa exponent, IsNumberMark c := by
  unfold Binary64.magnitudeText
  split
  · refine ⟨by decide, ?_⟩
    simp only [List.forall_mem_cons]
    exact ⟨isNumberMark_of_isDigit rfl, .inr (.inr (.inl rfl)), isNumberMark_of_isDigit rfl,
      by simp⟩
  · have hdigits : ∀ d ∈ Binary64.dropTrailingZeros
        (Nat.toDigits 10 (Binary64.shortest mantissa exponent).1), d.isDigit = true :=
      fun d hd => isDigit_of_mem_toDigits (mem_dropTrailingZeros hd)
    dsimp only
    split
    · obtain ⟨hpoint, hmarks⟩ := positional_marks hdigits _
      exact ⟨List.any_eq_true.mpr ⟨'.', hpoint, by decide⟩, hmarks⟩
    · obtain ⟨hmark, hmarks⟩ := scientific_marks hdigits _
      exact ⟨List.any_eq_true.mpr ⟨'e', hmark, by decide⟩, hmarks⟩

/-! ### Values without quotes and brackets -/

/-- The characters that open, close or divide the parts of a text. -/
def isStructural (c : Char) : Bool :=
  c ∈ ['"', ',', ':', '[', ']', '\x7b', '\x7d']

theorem IsNumberMark.isStructural_eq_false {c : Char} (h : IsNumberMark c) :
    isStructural c = false := by
  refine Bool.eq_false_iff.mpr fun hstructural => ?_
  simp only [isStructural, List.mem_cons, List.not_mem_nil, or_false, decide_eq_true_iff]
    at hstructural
  rcases hstructural with rfl | rfl | rfl | rfl | rfl | rfl | rfl <;>
    exact absurd h (by unfold IsNumberMark IsIntegerMark; decide)

/-- Words and numbers. -/
def isBare : Json → Bool
  | null | bool _ | int _ | float _ => true
  | string _ | array _ | object _ => false

/-- What the text of a word or a number tells by its characters: nothing in it opens, closes or
divides, and its marks say whether it is a word, an integer or another number. -/
structure BareText (isWord isFloat : Bool) (text : List Char) : Prop where
  ne_nil : text ≠ []
  bare : ∀ c ∈ text, isStructural c = false
  word : text.any isWordMark = isWord
  float : isWord = false → text.any isFloatMark = isFloat

theorem any_eq_false_of_forall {p : Char → Bool} {text : List Char}
    (h : ∀ c ∈ text, p c = false) : text.any p = false :=
  List.any_eq_false.mpr fun c hc => by simp [h c hc]

theorem BareText.of_checks {isWord isFloat : Bool} {text : List Char} (hnil : text ≠ [])
    (hbare : text.any isStructural = false) (hword : text.any isWordMark = isWord)
    (hfloat : isWord = false → text.any isFloatMark = isFloat) : BareText isWord isFloat text where
  ne_nil := hnil
  bare := fun c hc => by simpa using List.any_eq_false.mp hbare c hc
  word := hword
  float := hfloat

theorem bareText_toString (n : Int) : BareText false false (toString n).toList where
  ne_nil := by
    rw [toList_toString]
    exact fun hnil => Nat.toDigits_ne_nil (List.append_eq_nil_iff.mp hnil).2
  bare c hc := IsNumberMark.isStructural_eq_false (.inl (isIntegerMark_of_mem_toString hc))
  word := any_eq_false_of_forall fun c hc =>
    IsNumberMark.isWordMark_eq_false (.inl (isIntegerMark_of_mem_toString hc))
  float _ := any_eq_false_of_forall fun c hc =>
    (isIntegerMark_of_mem_toString hc).isFloatMark_eq_false

theorem bareText_numberText (x : Binary64) : BareText false true (numberText x).toList := by
  cases x with
  | nan => apply BareText.of_checks <;> decide
  | infinite negative => cases negative <;> apply BareText.of_checks <;> decide
  | finite negative mantissa exponent =>
      obtain ⟨hfloat, hmarks⟩ := magnitudeText_marks mantissa exponent
      have hall : ∀ c ∈ (numberText (.finite negative mantissa exponent)).toList,
          IsNumberMark c := by
        simp only [numberText, Binary64.toText, String.toList_ofList, List.forall_mem_append]
        refine ⟨?_, hmarks⟩
        split
        · simpa using .inl (.inr rfl)
        · simp
      have htext : (numberText (.finite negative mantissa exponent)).toList.any isFloatMark =
          true := by
        simp [numberText, Binary64.toText, hfloat]
      refine ⟨fun hnil => by simp [hnil] at htext, fun c hc => (hall c hc).isStructural_eq_false,
        any_eq_false_of_forall fun c hc => (hall c hc).isWordMark_eq_false, fun _ => htext⟩

theorem bareText_null : BareText true false "null".toList := by
  apply BareText.of_checks <;> decide

theorem bareText_bool (value : Bool) :
    BareText true false (if value then "true" else "false").toList := by
  cases value <;> apply BareText.of_checks <;> decide

/-- Words. -/
def isWord : Json → Bool
  | null | bool _ => true
  | int _ | float _ | string _ | array _ | object _ => false

def isFloat : Json → Bool
  | float _ => true
  | null | bool _ | int _ | string _ | array _ | object _ => false

theorem bareText_print (style : Style) {value : Json} (h : value.isBare = true) :
    BareText value.isWord value.isFloat (print style value).toList := by
  cases value with
  | null => rw [print]; exact bareText_null
  | bool value => rw [print]; exact bareText_bool value
  | int value => rw [print]; exact bareText_toString value
  | float value => rw [print]; exact bareText_numberText value
  | string | array | object => contradiction

theorem intercalate_append {α : Type} (mark part : List α) (parts : List (List α)) :
    mark.intercalate (part :: parts) = part ++ parts.flatMap (mark ++ ·) := by
  induction parts generalizing part with
  | nil => simp
  | cons next parts ih => simp [List.intercalate_cons_cons, ih]

section

variable {α : Type} {text : α → List Char} {R : α → α → Prop} {close : Char} {rest left : List Char}

end

end OperationLibrary.Json
