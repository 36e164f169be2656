import OperationLibrary.Schema.Basic
import OperationLibrary.Shape.Scalars
import OperationLibrary.Shape.Wrappers

/-!
The full shape of a type, with every field that the type declares. A type that comes up inside its
own fields is not unfolded again, so the shape is finite however the types refer to one another.
-/

namespace OperationLibrary

open Syntax

/-- Name, description and type of every field that unfolds. -/
def NamedType.unfoldedFields? (type : NamedType) :
    Option (List (String × Option Explanation × TypeRef)) :=
  match type.content with
  | .object _ fields | .interface _ fields =>
    some (fields.map fun field => (field.name, field.description, field.type))
  | .input fields => some (fields.map fun field => (field.name, field.description, field.type))
  | .scalar | .enum .. | .union _ => none

/-- The shape of the type that a name stands for, inside the types that are being unfolded. -/
def shapeOfName (schema : Schema) (scalars : ScalarTable) (unfolding : List String)
    (name : String) : Projection Shape :=
  match _found : schema.get? name with
  | none => pure .any
  | some type =>
    match type.content, type.unfoldedFields? with
    | .scalar, _ => pure (scalars.shape name)
    | .enum values flaw, _ => do
      Projection.check (flaw.map .flawed)
      return .enum values type.description
    | _, none => pure .any
    | _, some fields =>
      if _seen : name ∈ unfolding then do
        Logged.warn .types ("Type " ++ name ++
          " refers to itself, projecting the nested occurrence as any")
        return .any
      else do
        let entries ← fields.mapM fun (field, description, fieldType) => do
          let shape ← throughWrappers .types
            (fun inner => shapeOfName schema scalars (name :: unfolding) inner) 0 fieldType
          return (⟨field, shape, !fieldType.isNonNull, description⟩ : Entry Shape)
        return .object entries type.description
termination_by schema.unseen unfolding
decreasing_by
  exact Schema.unseen_cons_lt _found _seen

/-- Scalars have the shape that the table gives them. -/
theorem shapeOfName_scalar {schema : Schema} {name : String} {type : NamedType}
    (hget : schema.get? name = some type) (hscalar : type.content = .scalar)
    (scalars : ScalarTable) (unfolding : List String) :
    shapeOfName schema scalars unfolding name = pure (scalars.shape name) := by
  rw [shapeOfName]
  split <;> simp_all

/-- The full shape of a type. -/
def shapeOfType (schema : Schema) (scalars : ScalarTable) (type : TypeRef) : Projection Shape :=
  throughWrappers .types (shapeOfName schema scalars []) 0 type

/-- The full shape of a type as a text refers to it, and the number of lists around it. Where its
core is unknown the reference stands for no type at all. -/
def shapeOfReference (schema : Schema) (scalars : ScalarTable) (type : TypeRef) :
    Projection (Shape × Int) := do
  if schema.resolves type then
    let lists ← listDepth type
    return (← shapeOfType schema scalars type, lists)
  else
    Logged.warn .types "Unrecognized type None"
    return (.any, 0)

/-- The full shape of the type with a name; the standard scalars are known even to a schema that
has no use for them. -/
def shapeOfTypeNamed (schema : Schema) (scalars : ScalarTable) (name : String) :
    Projection Shape :=
  match schema.get? name with
  | some _ => shapeOfName schema scalars [] name
  | none =>
    if standardScalars.contains name then pure (scalars.shape name)
    else do
      Logged.warn .types ("Unknown type " ++ name ++ " in schema")
      return .any

end OperationLibrary
