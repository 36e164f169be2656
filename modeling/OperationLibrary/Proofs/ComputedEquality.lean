import Mathlib.Control.Monad.Basic
import OperationLibrary.Json.Value
import OperationLibrary.Syntax.Ast

/-!
Equality of documents and of values in JSON. Both are trees, and whether two of them are equal is
computed branch by branch, so what a text is read as can be found by reading it.
-/

namespace OperationLibrary

/-! ### Values in JSON -/

namespace Json

mutual

def same : Json → Json → Bool
  | .null, .null => true
  | .bool a, .bool b => a == b
  | .int a, .int b => a == b
  | .float a, .float b => a == b
  | .string a, .string b => a == b
  | .array as, .array bs => sameItems as bs
  | .object as, .object bs => sameMembers as bs
  | _, _ => false

def sameItems : List Json → List Json → Bool
  | [], [] => true
  | a :: as, b :: bs => a.same b && sameItems as bs
  | _, _ => false

def sameMembers : List (String × Json) → List (String × Json) → Bool
  | [], [] => true
  | (k, a) :: as, (l, b) :: bs => k == l && a.same b && sameMembers as bs
  | _, _ => false

end

mutual

theorem same_iff (a b : Json) : a.same b = true ↔ a = b := by
  cases a <;> cases b <;> simp [same, sameItems_iff, sameMembers_iff]

theorem sameItems_iff (as bs : List Json) : sameItems as bs = true ↔ as = bs := by
  cases as <;> cases bs <;> simp [sameItems, sameItems_iff, same_iff]

theorem sameMembers_iff (as bs : List (String × Json)) : sameMembers as bs = true ↔ as = bs := by
  cases as <;> cases bs <;> simp [sameMembers, sameMembers_iff, same_iff, Prod.ext_iff]

end

instance : DecidableEq Json := fun a b => decidable_of_iff _ (a.same_iff b)

end Json

namespace Syntax

/-! ### Values -/

mutual

def Value.same : Value → Value → Bool
  | .variable a, .variable b => a == b
  | .int a, .int b => a == b
  | .float a, .float b => a == b
  | .string a p, .string b q => a == b && p == q
  | .boolean a, .boolean b => a == b
  | .null, .null => true
  | .enum a, .enum b => a == b
  | .list as, .list bs => sameItems as bs
  | .object as, .object bs => sameFields as bs
  | _, _ => false

def sameItems : List Value → List Value → Bool
  | [], [] => true
  | a :: as, b :: bs => a.same b && sameItems as bs
  | _, _ => false

def sameFields : List (String × Value) → List (String × Value) → Bool
  | [], [] => true
  | (k, a) :: as, (l, b) :: bs => k == l && a.same b && sameFields as bs
  | _, _ => false

end

mutual

theorem Value.same_iff (a b : Value) : a.same b = true ↔ a = b := by
  cases a <;> cases b <;> simp [Value.same, sameItems_iff, sameFields_iff]

theorem sameItems_iff (as bs : List Value) : sameItems as bs = true ↔ as = bs := by
  cases as <;> cases bs <;> simp [sameItems, sameItems_iff, Value.same_iff]

theorem sameFields_iff (as bs : List (String × Value)) : sameFields as bs = true ↔ as = bs := by
  cases as <;> cases bs <;> simp [sameFields, sameFields_iff, Value.same_iff, Prod.ext_iff]

end

instance : DecidableEq Value := fun a b => decidable_of_iff _ (a.same_iff b)

deriving instance DecidableEq for Argument
deriving instance DecidableEq for Directive
deriving instance DecidableEq for FieldHead
deriving instance DecidableEq for VariableDefinition

/-! ### Selections -/

mutual

def Selection.same : Selection → Selection → Bool
  | .field a none, .field b none => a == b
  | .field a (some as), .field b (some bs) => a == b && sameSelections as bs
  | .spread a as, .spread b bs => a == b && as == bs
  | .inline a as xs, .inline b bs ys => a == b && as == bs && sameSelections xs ys
  | _, _ => false

def sameSelections : List Selection → List Selection → Bool
  | [], [] => true
  | a :: as, b :: bs => a.same b && sameSelections as bs
  | _, _ => false

end

mutual

theorem Selection.same_iff (a b : Selection) : a.same b = true ↔ a = b := by
  rcases a with ⟨a, _ | as⟩ | _ | _ <;> rcases b with ⟨b, _ | bs⟩ | _ | _ <;>
    simp [Selection.same, sameSelections_iff, and_assoc]

theorem sameSelections_iff (as bs : List Selection) : sameSelections as bs = true ↔ as = bs := by
  cases as <;> cases bs <;> simp [sameSelections, sameSelections_iff, Selection.same_iff]

end

instance : DecidableEq Selection := fun a b => decidable_of_iff _ (a.same_iff b)

/-! ### Definitions -/

deriving instance DecidableEq for Operation
deriving instance DecidableEq for Fragment
deriving instance DecidableEq for Executable
deriving instance DecidableEq for PlacedDirective
deriving instance DecidableEq for InputValueDefinition
deriving instance DecidableEq for FieldDefinition
deriving instance DecidableEq for EnumValueDefinition
deriving instance DecidableEq for RootType
deriving instance DecidableEq for TypeBody
deriving instance DecidableEq for TypeDefinition
deriving instance DecidableEq for DirectiveDefinition
deriving instance DecidableEq for DirectiveExtension
deriving instance DecidableEq for SchemaDefinition
deriving instance DecidableEq for TypeSystem
deriving instance DecidableEq for Definition

end Syntax

end OperationLibrary
