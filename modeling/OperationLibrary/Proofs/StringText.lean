import OperationLibrary.Proofs.Lexemes
import OperationLibrary.Syntax.Printer

/-!
Strings between quotes. Every character is written so that it is read back: quotes, backslashes,
line ends and other control characters as escapes, the others as they are.
-/

namespace OperationLibrary.Syntax

open Text (hexDigit? hexNumber? hexUnit?)

/-! ### Escapes -/

theorem hexDigit?_digitChar : ∀ d < 16, hexDigit? (Nat.digitChar d).toUpper = some d := by
  decide

theorem hexUnit?_upperHex4 {n : Nat} (h : n < 65536) (rest : List Char) :
    hexUnit? (escapeCharacter.upperHex4 n ++ rest) = some n :=
  Text.hexUnit?_digits hexDigit?_digitChar h rest

/-- A digit opens no escape of variable width and ends no line. -/
theorem digitChar_ne : ∀ d < 16,
    (Nat.digitChar d).toUpper ≠ '\x7b' ∧ (Nat.digitChar d).toUpper ≠ '\n' := by
  decide

theorem feed_not_mem_upperHex4 (n : Nat) : '\n' ∉ escapeCharacter.upperHex4 n := by
  intro hmem
  obtain ⟨d, -, hd⟩ := List.mem_map.mp hmem
  exact (digitChar_ne (d % 16) (Nat.mod_lt _ (by omega))).2 hd

/-- An escape of four digits is read as the character of that number. -/
theorem scanEscape_upperHex4 {c : Char} (h : c.toNat < 0xd800) (rest : List Char) :
    scanEscape ('u' :: (escapeCharacter.upperHex4 c.toNat ++ rest)) = .ok (c, 5) := by
  have hunit := hexUnit?_upperHex4 (n := c.toNat) (by omega) rest
  -- without a brace behind it, the mark of the escape stands for four digits
  have hbrace : (Nat.digitChar (c.toNat / 4096 % 16)).toUpper ≠ '\x7b' :=
    (digitChar_ne _ (Nat.mod_lt _ (by omega))).1
  have hcode : isCharacterCode c.toNat = true := by simp [isCharacterCode, h]
  unfold scanEscape
  split
  · rename_i digits htext
    exact absurd (List.cons.inj (List.cons.inj htext).2).1 hbrace
  · rename_i more hshape htext
    obtain rfl := (List.cons.inj htext).2
    simp [hunit, hcode, Char.ofNat_toNat]
  · rename_i hfixed htext
    exact absurd (List.cons.inj htext).1.symm hfixed
  · contradiction

/-- How a character is written in a string: as it is, or behind a backslash. -/
inductive Escaped (c : Char) : List Char → Prop where
  | plain : c ≠ '"' → c ≠ '\\' → isLineEnd c = false → Escaped c [c]
  | escape (written : List Char) : '\n' ∉ written →
      (∀ rest, scanEscape (written ++ rest) = .ok (c, written.length)) →
      Escaped c ('\\' :: written)

theorem escaped_escapeCharacter (c : Char) : Escaped c (escapeCharacter c) := by
  unfold escapeCharacter
  split
  case h_8 hquote hbackslash _ _ hfeed hreturn _ =>
    split
    · rename_i hcontrol
      refine .escape _ ?_ fun rest => ?_
      · simpa using feed_not_mem_upperHex4 c.toNat
      · exact scanEscape_upperHex4 (by omega) rest
    · exact .plain hquote hbackslash (by simpa [isLineEnd] using ⟨hfeed, hreturn⟩)
  all_goals exact .escape _ (by decide) fun rest => rfl

/-! ### Strings -/

theorem scanString_append {text : List Char} (rest : List Char) (offset : Nat) :
    scanString (text.flatMap escapeCharacter ++ '"' :: rest) offset =
      .ok (text, offset + (text.flatMap escapeCharacter).length + 1) := by
  induction text generalizing offset with
  | nil => rw [List.flatMap_nil, List.nil_append, scanString]; rfl
  | cons c text ih =>
      rw [List.flatMap_cons, List.append_assoc]
      generalize escapeCharacter c = written, escaped_escapeCharacter c = hwritten
      cases hwritten with
      | plain hquote hbackslash hline =>
          rw [List.singleton_append, scanString, if_neg (by simpa using hquote),
            if_neg (by simpa using hbackslash), if_neg (by simp [hline]), ih]
          simp [Except.map]; omega
      | escape written hfeed hscan =>
          rw [List.cons_append, scanString]
          simp [hscan, ih, Except.map]; omega

/-- No string looks like the opening of a block. -/
theorem Separated.not_block {rest : List Char} (h : Separated rest) (text body : List Char) :
    text.flatMap escapeCharacter ++ '"' :: rest ≠ '"' :: '"' :: body := by
  intro heq
  cases text with
  | nil =>
      have hquote : rest = '"' :: body := (List.cons.inj heq).2
      exact absurd (h '"' (by rw [hquote]; rfl)) (by decide)
  | cons c text =>
      rw [List.flatMap_cons, List.append_assoc] at heq
      generalize escapeCharacter c = written, escaped_escapeCharacter c = hwritten at heq
      cases hwritten with
      | plain hquote hbackslash hline => exact hquote (List.cons.inj heq).1
      | escape written hfeed hscan => exact absurd (List.cons.inj heq).1 (by decide)

theorem scanLexeme_string {rest : List Char} (h : Separated rest) (text : List Char) :
    scanLexeme '"' (text.flatMap escapeCharacter ++ '"' :: rest) =
      .ok (.string (String.ofList text), (text.flatMap escapeCharacter).length + 1) := by
  unfold scanLexeme
  split
  · rename_i body _ htext
    exact absurd htext (h.not_block text body)
  · rw [scanString_append]
    simp only [Except.map]
    congr 2
    omega
  all_goals contradiction

/-- A string is on one line. -/
theorem feed_not_mem_flatMap (text : List Char) : '\n' ∉ text.flatMap escapeCharacter := by
  intro hmem
  obtain ⟨c, -, hc⟩ := List.mem_flatMap.mp hmem
  generalize escapeCharacter c = written, escaped_escapeCharacter c = hwritten at hc
  cases hwritten with
  | plain hquote hbackslash hline =>
      obtain rfl := List.mem_singleton.mp hc
      exact absurd hline (by decide)
  | escape written hfeed hscan => simp [hfeed] at hc

theorem writes_quote (text : String) : Writes (quote text).toList [.string text] := by
  intro margin rest hrest
  have hscan := scanLexeme_string hrest text.toList
  have hfeed := feed_not_mem_flatMap text.toList
  rw [String.ofList_toList] at hscan
  rw [quote, String.toList_ofList]
  generalize text.toList.flatMap escapeCharacter = body at hscan hfeed ⊢
  have hdrop : (body ++ '"' :: rest).drop (body.length + 1) = rest := by simp
  have hline : '\n' ∉ '"' :: body ++ ['"'] := by simp [hfeed]
  rw [shifted_of_not_mem hline, List.cons_append, List.cons_append, List.append_assoc,
    List.singleton_append, lexemes_cons rfl (by decide) hscan, hdrop]
  rfl

end OperationLibrary.Syntax
