import OperationLibrary.Decimal.Binary64

/-!
JSON values. Integers have no bound and are kept apart from fractions; the members of an object
keep their order.
-/

namespace OperationLibrary

inductive Json where
  | null
  | bool (value : Bool)
  | int (value : Int)
  | float (value : Decimal.Binary64)
  | string (text : String)
  | array (items : List Json)
  | object (members : List (String × Json))
  deriving Inhabited

namespace Json

/-- The value of the member with this key, the last one where it repeats. -/
def lookup (key : String) (members : List (String × Json)) : Option Json :=
  members.reverse.lookup key

/-- The value of a member of an object. -/
def get? (key : String) : Json → Option Json
  | object members => lookup key members
  | _ => none

def string? : Json → Option String
  | string text => some text
  | _ => none

mutual

/-- How many arrays and objects are open around the deepest value. Empty ones are around nothing. -/
def depth : Json → Nat
  | null | bool _ | int _ | float _ | string _ => 0
  | array [] | object [] => 0
  | array (item :: rest) => max (depth item) (depthOfItems rest) + 1
  | object ((_, value) :: rest) => max (depth value) (depthOfMembers rest) + 1

def depthOfItems : List Json → Nat
  | [] => 0
  | item :: rest => max (depth item) (depthOfItems rest)

def depthOfMembers : List (String × Json) → Nat
  | [] => 0
  | (_, value) :: rest => max (depth value) (depthOfMembers rest)

end

/-- Empty and zero values, `null` and `false` count as no. -/
def isTruthy : Json → Bool
  | null => false
  | bool value => value
  | int value => value != 0
  | float value => !value.isZero
  | string text => !text.isEmpty
  | array items => !items.isEmpty
  | object members => !members.isEmpty

end Json

end OperationLibrary
