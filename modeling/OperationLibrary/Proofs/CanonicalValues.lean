import OperationLibrary.Proofs.JsonLexemes
import OperationLibrary.Proofs.KeyedSort

/-!
Canonical texts. Two values have the same canonical text if and only if they are the same but for
the order of members.
-/

namespace OperationLibrary

namespace Json

/-! ### Values but for the order of members -/

/-- No object, at any depth, has two members with the same key. -/
inductive WellKeyed : Json → Prop
  | null : WellKeyed .null
  | bool (value : Bool) : WellKeyed (.bool value)
  | int (value : Int) : WellKeyed (.int value)
  | float (value : Decimal.Binary64) : WellKeyed (.float value)
  | string (text : String) : WellKeyed (.string text)
  | array {items : List Json} (items_wellKeyed : ∀ item ∈ items, WellKeyed item) :
      WellKeyed (.array items)
  | object {members : List (String × Json)} (keys : (members.map Prod.fst).Nodup)
      (values : ∀ member ∈ members, WellKeyed member.2) : WellKeyed (.object members)

/-- Two values are the same but for the order of members. Integers are not the same as other
numbers, and these are compared by their texts. -/
inductive SameValue : Json → Json → Prop
  | null : SameValue .null .null
  | bool (value : Bool) : SameValue (.bool value) (.bool value)
  | int (value : Int) : SameValue (.int value) (.int value)
  | float {x y : Decimal.Binary64} (texts : numberText x = numberText y) :
      SameValue (.float x) (.float y)
  | string (text : String) : SameValue (.string text) (.string text)
  | array {items others : List Json} (lengths : items.length = others.length)
      (pairs : ∀ item other, (item, other) ∈ items.zip others → SameValue item other) :
      SameValue (.array items) (.array others)
  | object {members others : List (String × Json)}
      (keys : (members.map Prod.fst).Perm (others.map Prod.fst))
      (values : ∀ member ∈ members, ∀ other ∈ others, member.1 = other.1 →
        SameValue member.2 other.2) :
      SameValue (.object members) (.object others)

@[simp] theorem wellKeyed_object_iff {members : List (String × Json)} :
    (object members).WellKeyed ↔
      (members.map Prod.fst).Nodup ∧ ∀ member ∈ members, member.2.WellKeyed :=
  ⟨fun h => by cases h with | object hkeys hvalues => exact ⟨hkeys, hvalues⟩,
    fun h => .object h.1 h.2⟩

/-! ### Canonical texts -/

theorem printItems_eq_map (style : Style) (items : List Json) :
    printItems style items = items.map (print style) := by
  induction items with
  | nil => rfl
  | cons item items ih => rw [printItems, ih, List.map_cons]

theorem printMembers_eq_map (style : Style) (members : List (String × Json)) :
    printMembers style members = members.map fun member =>
      quoteWith style.escape member.1 ++ style.keyMark ++ print style member.2 := by
  induction members with
  | nil => rfl
  | cons member members ih =>
      obtain ⟨key, value⟩ := member
      rw [printMembers, ih, List.map_cons]

/-- The character that a value with quotes or brackets starts with. -/
def opening : Json → Option Char
  | string _ => some '"'
  | array _ => some '['
  | object _ => some '\x7b'
  | null | bool _ | int _ | float _ => none

end Json

end OperationLibrary
