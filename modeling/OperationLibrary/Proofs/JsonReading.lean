import OperationLibrary.Proofs.CanonicalValues
import OperationLibrary.Proofs.KeyedTables
import OperationLibrary.Proofs.NumberReading

/-!
Printed values read back. A value that is written in any style is read as the same value, wherever
it ends, as long as numbers are in the range that can be written and read, and the keys of an object
are all different.
-/

namespace OperationLibrary.Json

open Decimal (Binary64)
open Syntax (IsNumber NumberParts Separated takeWhile_append_eq)

/-! ### Numbers -/

section

variable {sign whole fraction exponent rest : List Char}

theorem readSign_append (h : NumberParts sign whole fraction exponent) (rest : List Char) :
    ((sign ++ (whole ++ rest)).take 1).filter (· == '-') = sign := by
  obtain ⟨d, more, rfl, hd⟩ := h.digits.exists_cons
  have hplain : (d == '-') = false := beq_eq_false_iff_ne.mpr (Syntax.ne_of_kind hd rfl)
  obtain rfl | rfl := h.sign_cases <;> simp [hplain]

theorem wholeRun_append (h : NumberParts sign whole fraction exponent)
    (hrest : Syntax.NoDigit rest) : wholeRun (whole ++ rest) = whole := by
  unfold wholeRun
  split
  · rename_i more htext
    obtain ⟨d, digits, rfl, -⟩ := h.digits.exists_cons
    obtain ⟨rfl, -⟩ := List.cons.inj htext
    exact (h.zero rfl).symm
  · exact takeWhile_append_eq h.digits.2 hrest

theorem fractionRun_append (h : NumberParts sign whole fraction exponent)
    (hrest : Syntax.NoDigit rest) (hpoint : '.' ∉ rest.head?) :
    fractionRun (fraction ++ rest) = fraction := by
  obtain rfl | ⟨digits, rfl, hdigits⟩ := h.fraction_cases
  · unfold fractionRun
    split
    · rename_i more htext
      exact absurd (by rw [← List.nil_append rest, htext]; rfl) hpoint
    · rfl
  · rw [List.cons_append, fractionRun]
    simp only [takeWhile_append_eq hdigits.2 hrest, List.isEmpty_iff, hdigits.1, if_false]

theorem exponentRun_append (h : NumberParts sign whole fraction exponent)
    (hrest : Separated rest) : exponentRun (exponent ++ rest) = exponent := by
  obtain rfl | ⟨e, mark, digits, rfl, he, hmark, hdigits⟩ := h.exponent_cases
  · cases rest with
    | nil => rfl
    | cons c rest =>
        rw [List.nil_append, exponentRun, if_neg (by simp [(hrest.ne_of_mem_head? rfl).2.1])]
  · have hsign : ((mark ++ (digits ++ rest)).take 1).filter (fun c => c == '+' || c == '-') =
        mark := Syntax.exponentSign_append hmark hdigits rest
    rw [List.cons_append, List.append_assoc, exponentRun, if_pos he]
    simp only [hsign, List.drop_left, takeWhile_append_eq hdigits.2 hrest.noDigit,
      List.isEmpty_iff, hdigits.1, if_false]

/-- What the text of a number is read as. -/
theorem readNumber_append (h : NumberParts sign whole fraction exponent) (hrest : Separated rest)
    (hlimit : (fraction.isEmpty && exponent.isEmpty) = true → whole.length ≤ digitLimit) :
    readNumber .lenient (sign ++ (whole ++ (fraction ++ exponent)) ++ rest) =
      .ok (if fraction.isEmpty && exponent.isEmpty then
          .int (if sign.isEmpty then digitsValue whole else -digitsValue whole)
        else .float (.ofText (String.ofList (sign ++ (whole ++ (fraction ++ exponent))))),
        rest) := by
  obtain ⟨hexponent, hpoint, hfraction⟩ := h.noDigit hrest
  have htext : sign ++ (whole ++ (fraction ++ exponent)) ++ rest =
      sign ++ (whole ++ (fraction ++ (exponent ++ rest))) := by simp
  have hcounted : ¬ digitLimit < if (fraction.isEmpty && exponent.isEmpty) = true then
      whole.length else 0 := by
    split
    · rename_i hinteger
      exact Nat.not_lt.mpr (hlimit hinteger)
    · exact Nat.not_lt_zero _
  have hdigits : ¬ whole.isEmpty = true := by simpa using h.digits.1
  rw [htext, readNumber]
  simp only [readSign_append h, List.drop_left]
  simp only [wholeRun_append h hfraction, List.drop_left, fractionRun_append h hexponent hpoint,
    exponentRun_append h hrest, if_neg hdigits, if_neg hcounted]
  split
  · rfl
  · rw [List.append_assoc, List.append_assoc]

end

theorem numberParts_toString (n : Int) :
    NumberParts (if n < 0 then ['-'] else []) (Nat.toDigits 10 n.natAbs) [] [] := by
  refine ⟨?_, ⟨Nat.toDigits_ne_nil, fun d => isDigit_of_mem_toDigits⟩, fun hzero => ?_, .inl rfl,
    .inl rfl⟩
  · split
    · exact .inr rfl
    · exact .inl rfl
  · have hzero : n.natAbs = 0 := Nat.eq_zero_of_not_pos fun hpos =>
      Binary64.head?_toDigits_ne hpos hzero
    rw [hzero, Nat.toDigits_zero]

theorem isNumber_toString (n : Int) : IsNumber (toString n).toList false :=
  ⟨_, _, [], [], numberParts_toString n, by rw [toList_toString, List.append_nil, List.append_nil],
    rfl⟩

theorem readNumber_toString {n : Int} (hlimit : (Nat.toDigits 10 n.natAbs).length ≤ digitLimit)
    {rest : List Char} (hrest : Separated rest) :
    readNumber .lenient ((toString n).toList ++ rest) = .ok (.int n, rest) := by
  have hvalue : digitsValue (Nat.toDigits 10 n.natAbs) = n.natAbs :=
    Binary64.decimalValue_toDigits n.natAbs
  have hread := readNumber_append (numberParts_toString n) hrest fun _ => hlimit
  rw [List.append_nil, List.append_nil, ← toList_toString, hvalue] at hread
  rw [hread]
  congr 2
  by_cases hsign : n < 0
  · rw [if_pos hsign]
    exact congrArg Json.int (by omega : -(n.natAbs : Int) = n)
  · rw [if_neg hsign]
    exact congrArg Json.int (by omega : (n.natAbs : Int) = n)

theorem readNumber_toText {mantissa : Nat} {exponent : Int}
    (hnormal : Binary64.IsNormal mantissa exponent) (negative : Bool) {rest : List Char}
    (hrest : Separated rest) :
    readNumber .lenient ((Binary64.toText (.finite negative mantissa exponent)).toList ++ rest) =
      .ok (.float (.finite negative mantissa exponent), rest) := by
  obtain ⟨sign, whole, fraction, power, hparts, htext, hfloat⟩ :=
    Binary64.isNumber_toText negative mantissa exponent
  have hfloat : (fraction.isEmpty && power.isEmpty) = false :=
    (Bool.not_eq_true' _).mp hfloat.symm
  rw [htext, readNumber_append hparts hrest (by simp [hfloat]), hfloat, ← htext,
    String.ofList_toList, Binary64.ofText_toText hnormal]
  rfl

/-! ### Words -/

theorem print_of_mem_words (style : Style) {word : String} {value : Json}
    (h : (word, value) ∈ readWord.words) : print style value = word := by
  simp only [readWord.words, List.mem_cons, Prod.mk.injEq, List.not_mem_nil, or_false] at h
  rcases h with ⟨rfl, rfl⟩ | ⟨rfl, rfl⟩ | ⟨rfl, rfl⟩ | ⟨rfl, rfl⟩ | ⟨rfl, rfl⟩ | ⟨rfl, rfl⟩ <;>
    rw [print] <;> rfl

theorem readWord_append {word : String} {value : Json} (h : (word, value) ∈ readWord.words)
    (rest : List Char) : readWord .lenient (word.toList ++ rest) = .ok (value, rest) := by
  simp only [readWord.words, List.mem_cons, Prod.mk.injEq, List.not_mem_nil, or_false] at h
  rcases h with ⟨rfl, rfl⟩ | ⟨rfl, rfl⟩ | ⟨rfl, rfl⟩ | ⟨rfl, rfl⟩ | ⟨rfl, rfl⟩ | ⟨rfl, rfl⟩ <;> rfl

/-- No word starts with a digit, with a sign in front of it or not. -/
theorem readWord_of_isNumber {text rest : List Char} {isFloat : Bool}
    (h : IsNumber text isFloat) :
    readWord .lenient (text ++ rest) = readNumber .lenient (text ++ rest) := by
  have hwords : (readWord.words.find? fun word => word.1.toList.isPrefixOf (text ++ rest)) =
      none := by
    obtain ⟨sign, whole, fraction, exponent, hparts, rfl, -⟩ := h
    obtain ⟨d, more, rfl, hd⟩ := hparts.digits.exists_cons
    have hletter (c : Char) (hc : c.isDigit = false) : c ≠ d :=
      (Syntax.ne_of_kind hd hc).symm
    obtain rfl | rfl := hparts.sign_cases
    · simp [readWord.words, hletter]
    · simp [readWord.words, hletter]
  rw [readWord, hwords]

/-! ### Texts of values -/

/-- The characters that values start with. -/
def startsValue (c : Char) : Bool :=
  Syntax.isNumberStart c || c ∈ ['n', 't', 'f', 'N', 'I', '"', '[', '\x7b']

theorem exists_cons_print (style : Style) (value : Json) :
    ∃ c more, (print style value).toList = c :: more ∧ startsValue c = true := by
  have hnumber : ∀ {text : List Char} {isFloat : Bool}, IsNumber text isFloat →
      ∃ c more, text = c :: more ∧ startsValue c = true := by
    intro text isFloat h
    obtain ⟨c, more, htext, hc⟩ := h.exists_cons
    exact ⟨c, more, htext, by rw [startsValue, hc, Bool.true_or]⟩
  cases value with
  | null => rw [print]; exact ⟨'n', _, rfl, rfl⟩
  | bool value =>
      rw [print]
      cases value with
      | false => exact ⟨'f', _, rfl, rfl⟩
      | true => exact ⟨'t', _, rfl, rfl⟩
  | int value => rw [print]; exact hnumber (isNumber_toString value)
  | float value =>
      rw [print]
      cases value with
      | nan => exact ⟨'N', _, rfl, rfl⟩
      | infinite negative =>
          cases negative with
          | false => exact ⟨'I', _, rfl, rfl⟩
          | true => exact ⟨'-', _, rfl, rfl⟩
      | finite negative mantissa exponent =>
          exact hnumber (Binary64.isNumber_toText negative mantissa exponent)
  | string text => rw [print, quoteWith, String.toList_ofList]; exact ⟨'"', _, rfl, rfl⟩
  | array items =>
      rw [print, String.toList_append, String.toList_append]
      exact ⟨'[', _, rfl, rfl⟩
  | object members =>
      rw [print, String.toList_append, String.toList_append]
      exact ⟨'\x7b', _, rfl, rfl⟩

theorem isSpace_of_startsValue {c : Char} (h : startsValue c = true) : isSpace c = false := by
  have hne (d : Char) (hd : startsValue d = false) : (c == d) = false :=
    beq_eq_false_iff_ne.mpr (Syntax.ne_of_kind h hd)
  rw [isSpace, hne ' ' rfl, hne '\t' rfl, hne '\n' rfl, hne '\r' rfl]
  rfl

theorem skipSpace_cons {c : Char} (hc : isSpace c = false) (more : List Char) :
    skipSpace (c :: more) = c :: more := by
  rw [skipSpace, List.dropWhile_cons_of_neg (by simp [hc])]

theorem isSpace_colon : isSpace ':' = false := rfl

theorem skipSpace_append {blanks : List Char} (hblanks : ∀ c ∈ blanks, isSpace c = true) {c : Char}
    (hc : isSpace c = false) (more : List Char) : skipSpace (blanks ++ c :: more) = c :: more := by
  rw [skipSpace, List.dropWhile_append_of_pos hblanks]
  exact skipSpace_cons hc more

theorem skipSpace_print {blanks : List Char} (hblanks : ∀ c ∈ blanks, isSpace c = true)
    (style : Style) (value : Json) (rest : List Char) :
    skipSpace (blanks ++ ((print style value).toList ++ rest)) =
      (print style value).toList ++ rest := by
  obtain ⟨c, more, htext, hc⟩ := exists_cons_print style value
  rw [htext, List.cons_append, skipSpace_append hblanks (isSpace_of_startsValue hc)]

/-! ### Values read back -/

/-- Marks and escapes that the reader knows. -/
structure Style.Readable (style : Style) : Prop where
  escaped : ∀ c, Escaped c (style.escape c)
  itemMark : ∃ blanks, style.itemMark.toList = ',' :: blanks ∧ ∀ c ∈ blanks, isSpace c = true
  keyMark : ∃ blanks, style.keyMark.toList = ':' :: blanks ∧ ∀ c ∈ blanks, isSpace c = true

theorem readable_spacedAscii : Style.spacedAscii.Readable :=
  ⟨escaped_asciiEscape, ⟨[' '], rfl, by simp [isSpace]⟩, ⟨[' '], rfl, by simp [isSpace]⟩⟩

theorem readable_compact : Style.compact.Readable :=
  ⟨escaped_plainEscape, ⟨[], rfl, by simp⟩, ⟨[], rfl, by simp⟩⟩

/-- Values that can be written and read: integers do not have too many digits, other numbers are in
normal form, and no object has two members with the same key. -/
inductive Writable : Json → Prop
  | null : Writable .null
  | bool (value : Bool) : Writable (.bool value)
  | int {value : Int} (digits : (Nat.toDigits 10 value.natAbs).length ≤ digitLimit) :
      Writable (.int value)
  | nan : Writable (.float .nan)
  | infinite (negative : Bool) : Writable (.float (.infinite negative))
  | finite (negative : Bool) {mantissa : Nat} {exponent : Int}
      (normal : Binary64.IsNormal mantissa exponent) :
      Writable (.float (.finite negative mantissa exponent))
  | string (text : String) : Writable (.string text)
  | array {items : List Json} (values : ∀ item ∈ items, Writable item) : Writable (.array items)
  | object {members : List (String × Json)} (keys : (members.map Prod.fst).Nodup)
      (values : ∀ member ∈ members, Writable member.2) : Writable (.object members)

theorem Writable.wellKeyed {value : Json} (h : value.Writable) : value.WellKeyed := by
  induction h with
  | null => exact .null
  | bool value => exact .bool value
  | int => exact .int _
  | nan | infinite | finite => exact .float _
  | string text => exact .string text
  | array _ ih => exact .array ih
  | object keys _ ih => exact .object keys ih

/-- The value is read from what is written for it, wherever this ends. -/
def ReadBack (style : Style) (value : Json) : Prop :=
  ∀ rounds rest, Separated rest → (print style value).toList.length ≤ rounds →
    readValue .lenient rounds ((print style value).toList ++ rest) = .ok (value, rest)

section

variable {style : Style} {value : Json} {rest : List Char}

theorem readValue_of_isBare (hbare : value.isBare = true) (rounds : Nat) :
    readValue .lenient (rounds + 1) ((print style value).toList ++ rest) =
      readWord .lenient ((print style value).toList ++ rest) := by
  obtain ⟨c, more, htext, -⟩ := exists_cons_print style value
  have hc : isStructural c = false :=
    (bareText_print style hbare).bare c (by rw [htext]; exact List.mem_cons_self)
  have hne (d : Char) (hd : isStructural d = true) : c ≠ d := by
    rintro rfl
    simp [hd] at hc
  rw [htext, List.cons_append, readValue]
  · exact List.cons_ne_nil _ _
  · exact fun _ hcons => hne '"' rfl (List.cons.inj hcons).1
  · exact fun _ hcons => hne '[' rfl (List.cons.inj hcons).1
  · exact fun _ hcons => hne '\x7b' rfl (List.cons.inj hcons).1

theorem exists_succ_of_print_le {rounds : Nat} (h : (print style value).toList.length ≤ rounds) :
    ∃ fewer, rounds = fewer + 1 := by
  obtain ⟨c, more, htext, -⟩ := exists_cons_print style value
  rw [htext, List.length_cons] at h
  exact ⟨rounds - 1, by omega⟩

theorem readBack_of_isBare (hbare : value.isBare = true) (h : value.Writable) :
    ReadBack style value := by
  intro rounds rest hrest hrounds
  obtain ⟨rounds, rfl⟩ := exists_succ_of_print_le hrounds
  rw [readValue_of_isBare hbare]
  have hword : ∀ word {value}, (word, value) ∈ readWord.words →
      readWord .lenient ((print style value).toList ++ rest) = .ok (value, rest) := by
    intro word value hmem
    rw [print_of_mem_words style hmem, readWord_append hmem]
  cases h with
  | null => exact hword "null" (by simp [readWord.words])
  | bool value =>
      cases value with
      | false => exact hword "false" (by simp [readWord.words])
      | true => exact hword "true" (by simp [readWord.words])
  | int digits =>
      rw [print, readWord_of_isNumber (isNumber_toString _), readNumber_toString digits hrest]
  | nan => exact hword "NaN" (by simp [readWord.words])
  | infinite negative =>
      cases negative with
      | false => exact hword "Infinity" (by simp [readWord.words])
      | true => exact hword "-Infinity" (by simp [readWord.words])
  | finite negative normal =>
      rw [print, numberText, readWord_of_isNumber (Binary64.isNumber_toText _ _ _),
        readNumber_toText normal negative hrest]
      all_goals simp
  | string | array | object => contradiction

theorem readBack_string (hstyle : style.Readable) (text : String) :
    ReadBack style (.string text) := by
  intro rounds rest hrest hrounds
  obtain ⟨rounds, rfl⟩ := exists_succ_of_print_le hrounds
  rw [print, quoteWith, String.toList_ofList, List.cons_append, List.cons_append, readValue,
    List.append_assoc, List.singleton_append, readString_flatMap hstyle.escaped]
  simp [Except.map]

/-! ### Items and members -/

theorem readItems_last {item : Json} (hitem : ReadBack style item) {rounds : Nat}
    (hrounds : (print style item).toList.length ≤ rounds) (rest : List Char) :
    readItems .lenient (rounds + 1) ((print style item).toList ++ ']' :: rest) =
      .ok ([item], rest) := by
  rw [readItems, hitem rounds _ (Syntax.Opens.cons rfl _) hrounds]
  rfl

theorem readItems_next {item : Json} (hitem : ReadBack style item) {rounds : Nat}
    (hrounds : (print style item).toList.length ≤ rounds) (rest : List Char) :
    readItems .lenient (rounds + 1) ((print style item).toList ++ ',' :: rest) =
      (readItems .lenient rounds (skipSpace rest)).map fun (items, left) =>
        (item :: items, left) := by
  rw [readItems, hitem rounds _ (Syntax.Opens.cons rfl _) hrounds]
  rfl

/-- Further items, each behind its mark. -/
def moreItems (style : Style) (items : List Json) : List Char :=
  (items.map fun item => (print style item).toList).flatMap (style.itemMark.toList ++ ·)

theorem readItems_append (hstyle : style.Readable) {item : Json} {items : List Json}
    (hitem : ReadBack style item) (hitems : ∀ item ∈ items, ReadBack style item) (rounds : Nat)
    (hrounds : ((print style item).toList ++ moreItems style items).length < rounds)
    (rest : List Char) :
    readItems .lenient rounds
      ((print style item).toList ++ (moreItems style items ++ ']' :: rest)) =
        .ok (item :: items, rest) := by
  obtain ⟨blanks, hmark, hblanks⟩ := hstyle.itemMark
  obtain ⟨rounds, rfl⟩ : ∃ fewer, rounds = fewer + 1 := ⟨rounds - 1, by omega⟩
  rw [List.length_append] at hrounds
  induction items generalizing item rounds with
  | nil => exact readItems_last hitem (by omega) rest
  | cons next items ih =>
      rw [List.forall_mem_cons] at hitems
      have hmore : moreItems style (next :: items) =
          ',' :: (blanks ++ ((print style next).toList ++ moreItems style items)) := by
        simp [moreItems, hmark]
      rw [hmore, List.length_cons, List.length_append, List.length_append] at hrounds
      obtain ⟨rounds, rfl⟩ : ∃ fewer, rounds = fewer + 1 := ⟨rounds - 1, by omega⟩
      rw [hmore, List.cons_append, List.append_assoc, List.append_assoc,
        readItems_next hitem (by omega), skipSpace_print hblanks,
        ih hitems.1 hitems.2 rounds (by omega)]
      rfl

/-- What is written for a member. -/
def memberWritten (style : Style) (member : String × Json) : List Char :=
  (quoteWith style.escape member.1).toList ++
    (style.keyMark.toList ++ (print style member.2).toList)

theorem memberWritten_eq (style : Style) (member : String × Json) (rest : List Char) :
    memberWritten style member ++ rest = '"' :: (member.1.toList.flatMap style.escape ++
      '"' :: (style.keyMark.toList ++ ((print style member.2).toList ++ rest))) := by
  simp [memberWritten, quoteWith]

theorem skipSpace_memberWritten {blanks : List Char} (hblanks : ∀ c ∈ blanks, isSpace c = true)
    (style : Style) (member : String × Json) (rest : List Char) :
    skipSpace (blanks ++ (memberWritten style member ++ rest)) =
      memberWritten style member ++ rest := by
  rw [memberWritten_eq, skipSpace_append hblanks rfl]

section

variable {member : String × Json} {rounds : Nat}

/-- A member is read up to what closes the object or divides it from the next one. -/
theorem readMembers_last (hstyle : style.Readable) (hmember : ReadBack style member.2)
    (hrounds : (print style member.2).toList.length ≤ rounds) (rest : List Char) :
    readMembers .lenient (rounds + 1) (memberWritten style member ++ '\x7d' :: rest) =
      .ok ([member], rest) := by
  obtain ⟨blanks, hmark, hblanks⟩ := hstyle.keyMark
  have hvalue := hmember rounds ('\x7d' :: rest) (Syntax.Opens.cons rfl _) hrounds
  have hclose : skipSpace ('\x7d' :: rest) = '\x7d' :: rest := skipSpace_cons rfl rest
  rw [memberWritten_eq, readMembers, readString_flatMap hstyle.escaped, hmark, List.cons_append]
  simp only [skipSpace_cons isSpace_colon, skipSpace_print hblanks, hvalue, hclose,
    String.ofList_toList]

theorem readMembers_next (hstyle : style.Readable) (hmember : ReadBack style member.2)
    (hrounds : (print style member.2).toList.length ≤ rounds) (rest : List Char) :
    readMembers .lenient (rounds + 1) (memberWritten style member ++ ',' :: rest) =
      (readMembers .lenient rounds (skipSpace rest)).map fun (members, left) =>
        (member :: members, left) := by
  obtain ⟨blanks, hmark, hblanks⟩ := hstyle.keyMark
  have hvalue := hmember rounds (',' :: rest) (Syntax.Opens.cons rfl _) hrounds
  have hcomma : skipSpace (',' :: rest) = ',' :: rest := skipSpace_cons rfl rest
  rw [memberWritten_eq, readMembers, readString_flatMap hstyle.escaped, hmark, List.cons_append]
  simp only [skipSpace_cons isSpace_colon, skipSpace_print hblanks, hvalue, hcomma,
    String.ofList_toList]

end

/-- Further members, each behind its mark. -/
def moreMembers (style : Style) (members : List (String × Json)) : List Char :=
  (members.map (memberWritten style)).flatMap (style.itemMark.toList ++ ·)

theorem length_print_le_memberWritten (style : Style) (member : String × Json) :
    (print style member.2).toList.length ≤ (memberWritten style member).length := by
  rw [memberWritten, List.length_append, List.length_append]
  omega

theorem readMembers_append (hstyle : style.Readable) {member : String × Json}
    {members : List (String × Json)} (hmember : ReadBack style member.2)
    (hmembers : ∀ member ∈ members, ReadBack style member.2) (rounds : Nat)
    (hrounds : (memberWritten style member ++ moreMembers style members).length < rounds)
    (rest : List Char) :
    readMembers .lenient rounds
      (memberWritten style member ++ (moreMembers style members ++ '\x7d' :: rest)) =
        .ok (member :: members, rest) := by
  obtain ⟨blanks, hmark, hblanks⟩ := hstyle.itemMark
  obtain ⟨rounds, rfl⟩ : ∃ fewer, rounds = fewer + 1 := ⟨rounds - 1, by omega⟩
  rw [List.length_append] at hrounds
  induction members generalizing member rounds with
  | nil =>
      have hlength := length_print_le_memberWritten style member
      exact readMembers_last hstyle hmember (by omega) rest
  | cons next members ih =>
      rw [List.forall_mem_cons] at hmembers
      have hlength := length_print_le_memberWritten style member
      have hmore : moreMembers style (next :: members) =
          ',' :: (blanks ++ (memberWritten style next ++ moreMembers style members)) := by
        simp [moreMembers, hmark]
      rw [hmore, List.length_cons, List.length_append, List.length_append] at hrounds
      obtain ⟨rounds, rfl⟩ : ∃ fewer, rounds = fewer + 1 := ⟨rounds - 1, by omega⟩
      rw [hmore, List.cons_append, List.append_assoc, List.append_assoc,
        readMembers_next hstyle hmember (by omega), skipSpace_memberWritten hblanks,
        ih hmembers.1 hmembers.2 rounds (by omega)]
      rfl

/-! ### Arrays and objects -/

theorem toList_print_array (style : Style) (item : Json) (items : List Json) :
    (print style (.array (item :: items))).toList =
      '[' :: ((print style item).toList ++ (moreItems style items ++ [']'])) := by
  simp only [print, printItems_eq_map, String.toList_append, String.toList_intercalate,
    List.map_cons, List.map_map, intercalate_append, moreItems, List.append_assoc]
  rfl

theorem toList_print_object (style : Style) (member : String × Json)
    (members : List (String × Json)) :
    (print style (.object (member :: members))).toList =
      '\x7b' :: (memberWritten style member ++ (moreMembers style members ++ ['\x7d'])) := by
  have hmembers : ∀ members : List (String × Json), (printMembers style members).map
      String.toList = members.map (memberWritten style) := by
    intro members
    rw [printMembers_eq_map, List.map_map]
    refine List.map_congr_left fun member _ => ?_
    simp [memberWritten]
  simp only [print, String.toList_append, String.toList_intercalate, hmembers, List.map_cons,
    intercalate_append, moreMembers, List.append_assoc]
  rfl

theorem readValue_array {inner : List Char} {c : Char} {more : List Char}
    (hinner : skipSpace inner = c :: more) (hc : c ≠ ']') (rounds : Nat) :
    readValue .lenient (rounds + 1) ('[' :: inner) =
      (readItems .lenient rounds (c :: more)).map fun (items, left) => (.array items, left) := by
  rw [readValue, hinner]
  split
  · rename_i heq
    exact absurd (List.cons.inj heq).1 hc
  · rfl

theorem readValue_object {inner : List Char} {c : Char} {more : List Char}
    (hinner : skipSpace inner = c :: more) (hc : c ≠ '\x7d') (rounds : Nat) :
    readValue .lenient (rounds + 1) ('\x7b' :: inner) =
      (readMembers .lenient rounds (c :: more)).map fun (members, left) =>
        (.object members, left) := by
  rw [readValue, hinner]
  split
  · rename_i heq
    exact absurd (List.cons.inj heq).1 hc
  · rfl

theorem readBack_array (hstyle : style.Readable) {items : List Json}
    (h : ∀ item ∈ items, ReadBack style item) : ReadBack style (.array items) := by
  intro rounds rest hrest hrounds
  obtain ⟨rounds, rfl⟩ := exists_succ_of_print_le hrounds
  cases items with
  | nil =>
      have htext : (print style (.array [])).toList = ['[', ']'] := by simp [print, printItems]
      rw [htext, List.cons_append, readValue]
      rfl
  | cons item items =>
      rw [List.forall_mem_cons] at h
      rw [toList_print_array] at hrounds ⊢
      simp only [List.length_cons, List.length_append, List.length_nil] at hrounds
      have hitems := readItems_append hstyle h.1 h.2 rounds (by simp; omega) rest
      obtain ⟨c, more, htext, hc⟩ := exists_cons_print style item
      rw [htext, List.cons_append] at hitems
      rw [List.cons_append, List.append_assoc, List.append_assoc, htext, List.cons_append,
        readValue_array (skipSpace_cons (isSpace_of_startsValue hc) _)
          (Syntax.ne_of_kind hc rfl), List.singleton_append, hitems]
      rfl

theorem readBack_object (hstyle : style.Readable) {members : List (String × Json)}
    (h : ∀ member ∈ members, ReadBack style member.2) : ReadBack style (.object members) := by
  intro rounds rest hrest hrounds
  obtain ⟨rounds, rfl⟩ := exists_succ_of_print_le hrounds
  cases members with
  | nil =>
      have htext : (print style (.object [])).toList = ['\x7b', '\x7d'] := by
        simp [print, printMembers]
      rw [htext, List.cons_append, readValue]
      rfl
  | cons member members =>
      rw [List.forall_mem_cons] at h
      rw [toList_print_object] at hrounds ⊢
      simp only [List.length_cons, List.length_append, List.length_nil] at hrounds
      have hmembers := readMembers_append hstyle h.1 h.2 rounds (by simp; omega) rest
      rw [memberWritten_eq] at hmembers
      rw [List.cons_append, List.append_assoc, List.append_assoc, memberWritten_eq,
        readValue_object (skipSpace_cons rfl _) (by decide), List.singleton_append, hmembers]
      rfl

/-- What can be written and read is read back from the middle of any text. -/
theorem Writable.readBack (hstyle : style.Readable) (h : value.Writable) :
    ReadBack style value := by
  induction value using parts_induction with
  | null | bool | int | float => exact readBack_of_isBare rfl h
  | string text => exact readBack_string hstyle text
  | array items ih =>
      cases h with
      | array values =>
          exact readBack_array hstyle fun item hitem => ih item hitem (values item hitem)
  | object members ih =>
      cases h with
      | object _ values =>
          exact readBack_object hstyle fun member hmember =>
            ih member hmember (values member hmember)

end

/-! ### Whole texts -/

theorem joinKeysItems_eq_map (items : List Json) : joinKeysItems items = items.map joinKeys := by
  induction items with
  | nil => rfl
  | cons item items ih => rw [joinKeysItems, ih, List.map_cons]

theorem joinKeysMembers_eq_map (members : List (String × Json)) :
    joinKeysMembers members = members.map fun member => (member.1, member.2.joinKeys) := by
  induction members with
  | nil => rfl
  | cons member members ih =>
      obtain ⟨key, value⟩ := member
      rw [joinKeysMembers, ih, List.map_cons]

/-- Where no key repeats there is nothing to join. -/
theorem WellKeyed.joinKeys_eq_self {value : Json} (h : value.WellKeyed) :
    value.joinKeys = value := by
  induction h with
  | null | bool | int | float | string => rw [joinKeys] <;> simp
  | @array items _ ih =>
      rw [joinKeys, joinKeysItems_eq_map, List.map_congr_left ih, List.map_id']
  | @object members keys _ ih =>
      have hmembers : members.map (fun member => (member.1, member.2.joinKeys)) = members :=
        (List.map_congr_left fun member hmember => by rw [ih member hmember]; rfl).trans
          (List.map_id _)
      rw [joinKeys, joinKeysMembers_eq_map, hmembers, Keyed.ofList_eq_self keys]

/-- **Values are read back.** The text of a value is read as this value. -/
theorem parse_print {style : Style} (hstyle : style.Readable) {value : Json}
    (h : value.Writable) : parse (print style value) = .ok value := by
  obtain ⟨c, more, htext, hc⟩ := exists_cons_print style value
  have hmark : (print style value).toList.head? ≠ some '\ufeff' := by
    rw [htext, List.head?_cons, Ne, Option.some.injEq]
    exact Syntax.ne_of_kind hc rfl
  have hstart : skipSpace (print style value).toList = (print style value).toList := by
    rw [htext, skipSpace_cons (isSpace_of_startsValue hc)]
  have hread := h.readBack hstyle (2 * (print style value).toList.length + 2) []
    (by simp [Separated]) (by omega)
  rw [List.append_nil] at hread
  rw [parse, read]
  simp only [if_neg hmark, hstart, hread]
  simp [skipSpace, Except.map, h.wellKeyed.joinKeys_eq_self]

end OperationLibrary.Json
