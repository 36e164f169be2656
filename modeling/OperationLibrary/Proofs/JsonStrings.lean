import OperationLibrary.Json.Parser
import OperationLibrary.Json.Printer

/-!
Strings in JSON. However a printer escapes the characters of a text, as itself, behind a backslash,
by the digits of its number or by those of a surrogate pair, the reader finds the same text between
the quotes.
-/

namespace OperationLibrary.Json

/-! ### Escapes -/

theorem hexDigit?_digitChar : ∀ d < 16, Text.hexDigit? (Nat.digitChar d) = some d := by
  decide

theorem hexUnit?_hex4 {n : Nat} (h : n < 65536) (rest : List Char) :
    Text.hexUnit? (hex4 n ++ rest) = some n :=
  Text.hexUnit?_digits hexDigit?_digitChar h rest

theorem drop_hex4_append (n : Nat) (rest : List Char) : (hex4 n ++ rest).drop 4 = rest := rfl

/-- How a character may be written in a string. -/
inductive Escaped (c : Char) : List Char → Prop where
  | plain : c ≠ '"' → c ≠ '\\' → 0x20 ≤ c.toNat → Escaped c [c]
  | short (letter : Char) : letter ≠ 'u' → escapeLetter? letter = some c →
      Escaped c ['\\', letter]
  | unit : c.toNat < 0x10000 → Escaped c (unicodeEscape c.toNat)
  | pair : 0x10000 ≤ c.toNat → Escaped c (unicodeEscape (0xd800 + (c.toNat - 0x10000) / 0x400) ++
      unicodeEscape (0xdc00 + (c.toNat - 0x10000) % 0x400))

theorem escaped_shortEscape? {c : Char} {escape : List Char} (h : shortEscape? c = some escape) :
    Escaped c escape := by
  unfold shortEscape? at h
  split at h
  case h_8 => contradiction
  all_goals
    obtain rfl := Option.some.inj h
    exact .short _ (by decide) rfl

theorem ne_of_shortEscape?_eq_none {c : Char} (h : shortEscape? c = none) :
    c ≠ '"' ∧ c ≠ '\\' := by
  constructor <;> rintro rfl <;> simp [shortEscape?] at h

theorem escaped_asciiEscape (c : Char) : Escaped c (asciiEscape c) := by
  unfold asciiEscape
  cases hshort : shortEscape? c with
  | some escape => exact escaped_shortEscape? hshort
  | none =>
      obtain ⟨hquote, hbackslash⟩ := ne_of_shortEscape?_eq_none hshort
      dsimp only
      split
      case isTrue hprintable => exact .plain hquote hbackslash hprintable.1
      case isFalse =>
        split
        case isTrue hbasic => exact .unit hbasic
        case isFalse hbeyond => exact .pair (Nat.le_of_not_lt hbeyond)

theorem escaped_plainEscape (c : Char) : Escaped c (plainEscape c) := by
  unfold plainEscape
  cases hshort : shortEscape? c with
  | some escape => exact escaped_shortEscape? hshort
  | none =>
      obtain ⟨hquote, hbackslash⟩ := ne_of_shortEscape?_eq_none hshort
      dsimp only
      split
      case isTrue hcontrol => exact .unit (by omega)
      case isFalse hplain => exact .plain hquote hbackslash (Nat.le_of_not_lt hplain)

/-! ### Reading escapes -/

variable {strictness : Strictness} {rest : List Char}

/-- No character is half of a surrogate pair. -/
theorem toNat_lt_or_le (c : Char) : c.toNat < 0xd800 ∨ 0xe000 ≤ c.toNat ∧ c.toNat < 0x110000 := by
  rcases c.valid with hlow | ⟨hhigh, hmost⟩
  · exact .inl hlow
  · exact .inr ⟨hhigh, hmost⟩

theorem readUnit_unit {c : Char} (h : c.toNat < 0x10000) (hrest : rest ≠ []) :
    readUnit strictness ('u' :: (hex4 c.toNat ++ rest)) = .ok (c, 4) := by
  have hsingle : (c.toNat < 0xd800 || 0xdc00 ≤ c.toNat ||
      ((hex4 c.toNat ++ rest).drop 10).isEmpty) = true := by
    have hchar := toNat_lt_or_le c
    simp only [Bool.or_eq_true, decide_eq_true_iff]
    omega
  have hwhole : ¬ (strictness = .strict ∧ 0xd800 ≤ c.toNat ∧ c.toNat < 0xe000) := by
    have hchar := toNat_lt_or_le c
    omega
  simp only [readUnit, List.drop_one, List.tail_cons, drop_hex4_append, hexUnit?_hex4 h]
  rw [if_neg (by simpa using hrest), if_pos hsingle, readUnit.single, if_neg hwhole,
    Char.ofNat_toNat]

/-- The two halves of a pair write the number of the character. -/
theorem readUnit_pair {c : Char} (h : 0x10000 ≤ c.toNat) (hrest : rest ≠ []) :
    readUnit strictness ('u' :: (hex4 (0xd800 + (c.toNat - 0x10000) / 0x400) ++
      unicodeEscape (0xdc00 + (c.toNat - 0x10000) % 0x400) ++ rest)) = .ok (c, 10) := by
  have hmost : c.toNat < 0x110000 := by
    have hchar := toNat_lt_or_le c
    omega
  obtain ⟨high, hhigh⟩ : ∃ high, high = 0xd800 + (c.toNat - 0x10000) / 0x400 := ⟨_, rfl⟩
  obtain ⟨low, hlow⟩ : ∃ low, low = 0xdc00 + (c.toNat - 0x10000) % 0x400 := ⟨_, rfl⟩
  rw [← hhigh, ← hlow]
  have hdrop : (hex4 high ++ unicodeEscape low ++ rest).drop 4 =
      '\\' :: 'u' :: (hex4 low ++ rest) := rfl
  have hleft : (hex4 high ++ unicodeEscape low ++ rest).drop 10 = rest := rfl
  have hfirst : ¬ (high < 0xd800 || 0xdc00 ≤ high || rest.isEmpty) = true := by
    simp only [Bool.or_eq_true, decide_eq_true_iff, List.isEmpty_iff, hrest, or_false]
    omega
  have hsecond : (0xdc00 ≤ low && low < 0xe000) = true := by
    simp only [Bool.and_eq_true, decide_eq_true_iff]
    omega
  have hnumber : 0x10000 + (high - 0xd800) * 0x400 + (low - 0xdc00) = c.toNat := by omega
  simp only [readUnit, List.drop_one, List.tail_cons]
  rw [hdrop, hleft, List.append_assoc, hexUnit?_hex4 (by omega)]
  simp only [List.isEmpty_cons, hfirst, hexUnit?_hex4 (show low < 65536 by omega), hsecond, hnumber,
    Char.ofNat_toNat]
  simp

/-! ### Reading strings -/

/-- What is written for a character is read as this character. -/
theorem Escaped.readString {c : Char} {written : List Char} (h : Escaped c written)
    (hrest : rest ≠ []) (opening : List Char) :
    Json.readString strictness opening (written ++ rest) =
      (Json.readString strictness opening rest).map fun (cs, left) => (c :: cs, left) := by
  cases h with
  | plain hquote hbackslash hprintable =>
      rw [List.singleton_append, Json.readString, if_neg (Nat.not_lt_of_le hprintable)]
      all_goals simp [hquote, hbackslash]
  | short letter hletter hmeaning =>
      rw [List.cons_append, List.singleton_append, Json.readString]
      · simp [hmeaning]
      · simpa
  | unit hbasic =>
      rw [unicodeEscape, List.cons_append, List.cons_append, Json.readString,
        readUnit_unit hbasic hrest]
      rfl
  | pair hbeyond =>
      rw [unicodeEscape, List.cons_append, List.cons_append, List.cons_append, List.cons_append,
        Json.readString, readUnit_pair hbeyond hrest]
      rfl

/-- The text between quotes is read back, whatever stands behind it. -/
theorem readString_flatMap {escape : Char → List Char} (hescape : ∀ c, Escaped c (escape c))
    (strictness : Strictness) (opening text rest : List Char) :
    readString strictness opening (text.flatMap escape ++ '"' :: rest) = .ok (text, rest) := by
  induction text with
  | nil => rw [List.flatMap_nil, List.nil_append, readString]
  | cons c text ih =>
      rw [List.flatMap_cons, List.append_assoc, (hescape c).readString (by simp), ih]
      rfl

end OperationLibrary.Json
