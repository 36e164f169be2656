import OperationLibrary.Proofs.JsonReading

/-!
The values that are read. Decimals become numbers in normal form, integers with too many digits are
refused, and members with the same key are joined: the values that some text is read as are the
values that can be written.
-/

namespace OperationLibrary.Json

open Decimal (Binary64)

/-! ### Numbers and words -/

theorem Writable.float {number : Binary64} (h : number.Normal) : Writable (.float number) := by
  cases h with
  | nan => exact .nan
  | infinite negative => exact .infinite negative
  | finite negative normal => exact .finite negative normal

theorem isDigit_of_mem_wholeRun {text : List Char} {c : Char} (h : c ∈ wholeRun text) :
    c.isDigit = true := by
  unfold wholeRun at h
  split at h
  · rw [List.mem_singleton.mp h]
    rfl
  · exact List.mem_takeWhile_imp h

theorem digitsValue_lt {digits : List Char} (h : ∀ c ∈ digits, c.isDigit = true) :
    digitsValue digits < 10 ^ digits.length := by
  induction digits using List.reverseRecOn with
  | nil => exact Nat.one_pos
  | append_singleton digits c ih =>
      rw [List.forall_mem_append, List.forall_mem_singleton] at h
      have hvalue : digitsValue (digits ++ [c]) = digitsValue digits * 10 + (c.toNat - 48) := by
        rw [digitsValue, List.foldl_append]
        rfl
      have hdigit : c.toNat ≤ 57 := (Char.isDigit_iff_toNat.mp h.2).2
      have hdigits := ih h.1
      rw [hvalue, List.length_append, List.length_singleton, pow_succ]
      omega

/-- A run of digits has at most its length as the length of its number. -/
theorem length_toDigits_digitsValue_le {digits : List Char} (h : ∀ c ∈ digits, c.isDigit = true)
    (hne : digits ≠ []) : (Nat.toDigits 10 (digitsValue digits)).length ≤ digits.length :=
  (Nat.length_toDigits_le_iff (by decide) (List.length_pos_of_ne_nil hne)).mpr (digitsValue_lt h)

section

variable {strictness : Strictness} {text rest : List Char} {value : Json}

theorem writable_of_readNumber (h : readNumber strictness text = .ok (value, rest)) :
    value.Writable := by
  unfold readNumber at h
  extract_lets sign body whole fraction exponent left isInteger counted at h
  -- whatever else is counted, the digits of an integer are
  have hcounted (hinteger : isInteger = true) : whole.length ≤ counted := by
    cases strictness with
    | lenient => exact (if_pos hinteger).ge
    | strict => exact Nat.le_add_left _ _
  split at h
  case isTrue => contradiction
  case isFalse hwhole =>
    split at h
    case isTrue => contradiction
    case isFalse hlimit =>
      split at h
      case isTrue hinteger =>
        obtain ⟨rfl, -⟩ := Prod.mk.inj (Except.ok.inj h)
        have hlength : (Nat.toDigits 10 (digitsValue whole)).length ≤ digitLimit :=
          (length_toDigits_digitsValue_le (fun c => isDigit_of_mem_wholeRun)
            (mt List.isEmpty_iff.mpr hwhole)).trans
              ((hcounted hinteger).trans (not_lt.mp hlimit))
        refine .int ?_
        split
        · exact hlength
        · rwa [Int.natAbs_neg]
      case isFalse =>
        obtain ⟨rfl, -⟩ := Prod.mk.inj (Except.ok.inj h)
        exact .float (Binary64.normal_ofDecimal _ _ _)

theorem writable_of_readWord (h : readWord strictness text = .ok (value, rest)) :
    value.Writable := by
  rw [readWord] at h
  split at h
  case h_1 word found hfind =>
    obtain ⟨rfl, -⟩ := Prod.mk.inj (Except.ok.inj h)
    have hmem := List.mem_of_find?_eq_some hfind
    simp only [readWord.words, List.mem_cons, Prod.mk.injEq, List.not_mem_nil, or_false] at hmem
    rcases hmem with ⟨-, rfl⟩ | ⟨-, rfl⟩ | ⟨-, rfl⟩ | ⟨-, rfl⟩ | ⟨-, rfl⟩ | ⟨-, rfl⟩
    · exact .null
    · exact .bool true
    · exact .bool false
    · exact .nan
    · exact .infinite false
    · exact .infinite true
  case h_2 => exact writable_of_readNumber h

end

/-! ### Values -/

theorem Writable.joinKeys {value : Json} (h : value.Writable) : value.joinKeys.Writable := by
  rwa [h.wellKeyed.joinKeys_eq_self]

theorem writable_joinKeys_array {items : List Json} (h : ∀ item ∈ items, item.joinKeys.Writable) :
    (Json.array items).joinKeys.Writable := by
  rw [Json.joinKeys, joinKeysItems_eq_map]
  exact .array (List.forall_mem_map.mpr h)

/-- Joining leaves one member for each key. -/
theorem writable_joinKeys_object {members : List (String × Json)}
    (h : ∀ member ∈ members, member.2.joinKeys.Writable) :
    (Json.object members).joinKeys.Writable := by
  rw [Json.joinKeys, joinKeysMembers_eq_map]
  refine .object (Keyed.nodup_ofList _) fun member hmember => ?_
  obtain ⟨read, hread, rfl⟩ := List.mem_map.mp (Keyed.mem_ofList hmember)
  exact h read hread

/-- What is read in a number of rounds can be written once its keys are joined. -/
structure ReadsWritable (strictness : Strictness) (rounds : Nat) : Prop where
  value : ∀ {text rest value}, readValue strictness rounds text = .ok (value, rest) →
    value.joinKeys.Writable
  items : ∀ {text rest items}, readItems strictness rounds text = .ok (items, rest) →
    ∀ item ∈ items, item.joinKeys.Writable
  members : ∀ {text rest members}, readMembers strictness rounds text = .ok (members, rest) →
    ∀ member ∈ members, member.2.joinKeys.Writable

namespace ReadsWritable

variable {strictness : Strictness} {rounds : Nat} {text rest : List Char}

theorem value_succ (ih : ReadsWritable strictness rounds) {value : Json}
    (h : readValue strictness (rounds + 1) text = .ok (value, rest)) : value.joinKeys.Writable := by
  unfold readValue at h
  split at h
  case h_1 => contradiction
  case h_2 =>
    obtain ⟨read, -, hread⟩ := Syntax.exists_of_map_ok h
    obtain ⟨rfl, -⟩ := Prod.mk.inj hread
    exact (Writable.string _).joinKeys
  case h_3 =>
    split at h
    case h_1 =>
      obtain ⟨rfl, -⟩ := Prod.mk.inj (Except.ok.inj h)
      exact writable_joinKeys_array (List.forall_mem_nil _)
    case h_2 =>
      obtain ⟨⟨items, left⟩, hitems, hread⟩ := Syntax.exists_of_map_ok h
      obtain ⟨rfl, -⟩ := Prod.mk.inj hread
      exact writable_joinKeys_array (ih.items hitems)
  case h_4 =>
    split at h
    case h_1 =>
      obtain ⟨rfl, -⟩ := Prod.mk.inj (Except.ok.inj h)
      exact writable_joinKeys_object (List.forall_mem_nil _)
    case h_2 =>
      obtain ⟨⟨members, left⟩, hmembers, hread⟩ := Syntax.exists_of_map_ok h
      obtain ⟨rfl, -⟩ := Prod.mk.inj hread
      exact writable_joinKeys_object (ih.members hmembers)
  case h_5 => exact (writable_of_readWord h).joinKeys

theorem items_succ (ih : ReadsWritable strictness rounds) {items : List Json}
    (h : readItems strictness (rounds + 1) text = .ok (items, rest)) :
    ∀ item ∈ items, item.joinKeys.Writable := by
  unfold readItems at h
  split at h
  case h_1 => contradiction
  case h_2 item left hitem =>
    have hfirst := ih.value hitem
    split at h
    case h_1 =>
      obtain ⟨rfl, -⟩ := Prod.mk.inj (Except.ok.inj h)
      exact List.forall_mem_singleton.mpr hfirst
    case h_2 =>
      obtain ⟨⟨later, _⟩, hlater, hread⟩ := Syntax.exists_of_map_ok h
      obtain ⟨rfl, -⟩ := Prod.mk.inj hread
      exact List.forall_mem_cons.mpr ⟨hfirst, ih.items hlater⟩
    case h_3 => contradiction

theorem members_succ (ih : ReadsWritable strictness rounds) {members : List (String × Json)}
    (h : readMembers strictness (rounds + 1) text = .ok (members, rest)) :
    ∀ member ∈ members, member.2.joinKeys.Writable := by
  unfold readMembers at h
  split at h
  case h_2 => contradiction
  split at h
  case h_1 => contradiction
  split at h
  case h_2 => contradiction
  split at h
  case h_1 => contradiction
  case h_2 value left hvalue =>
    have hfirst := ih.value hvalue
    split at h
    case h_1 =>
      obtain ⟨rfl, -⟩ := Prod.mk.inj (Except.ok.inj h)
      exact List.forall_mem_singleton.mpr hfirst
    case h_2 =>
      obtain ⟨⟨later, _⟩, hlater, hread⟩ := Syntax.exists_of_map_ok h
      obtain ⟨rfl, -⟩ := Prod.mk.inj hread
      exact List.forall_mem_cons.mpr ⟨hfirst, ih.members hlater⟩
    case h_3 => contradiction

end ReadsWritable

theorem readsWritable (strictness : Strictness) (rounds : Nat) :
    ReadsWritable strictness rounds := by
  induction rounds with
  | zero =>
      refine ⟨fun h => ?_, fun h => ?_, fun h => ?_⟩
      · rw [readValue] at h
        contradiction
      · rw [readItems] at h
        contradiction
      · rw [readMembers] at h
        contradiction
  | succ rounds ih => exact ⟨ih.value_succ, ih.items_succ, ih.members_succ⟩

/-! ### Whole texts -/

theorem writable_of_parse {source : String} {value : Json} (h : parse source = .ok value) :
    value.Writable := by
  obtain ⟨read, hread, rfl⟩ := Syntax.exists_of_map_ok h
  rw [Json.read] at hread
  split at hread
  case isTrue => contradiction
  split at hread
  case h_1 => contradiction
  case h_2 found rest hvalue =>
    have hwritable := (readsWritable .lenient _).value hvalue
    split at hread
    case h_1 =>
      obtain rfl := Except.ok.inj hread
      exact hwritable
    case h_2 => contradiction

/-- **The values that are read.** The values that can be written are the ones that some text is read
as. -/
theorem writable_iff_exists_parse {value : Json} :
    value.Writable ↔ ∃ source, parse source = .ok value :=
  ⟨fun h => ⟨_, parse_print readable_compact h⟩, fun ⟨_, h⟩ => writable_of_parse h⟩

end OperationLibrary.Json
