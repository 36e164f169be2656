import OperationLibrary.Proofs.Execution
import OperationLibrary.Proofs.Reachability

/-!
Rules of the query language that execution relies on. A schema is valid if types keep what their
interfaces promise; selections are valid on a type if the fields they select exist, if their
fragments can apply, and if the fields that answer under one key fit together. In a valid operation
every value that execution comes to is a value of the types its selection sets are written on.
-/

namespace OperationLibrary

open Syntax

/-! ### Schemas -/

/-- A type may stand where another one is promised. -/
inductive Schema.Subtype (schema : Schema) : TypeRef → TypeRef → Prop
  | same (name : String) : Subtype schema (.named name) (.named name)
  | implements {name interface : String} {type : NamedType}
      (known : schema.get? name = some type) (declares : interface ∈ type.declaredInterfaces) :
      Subtype schema (.named name) (.named interface)
  | member {name union : String} {type : NamedType} {members : List String}
      (known : schema.get? union = some type) (content : type.content = .union members)
      (mem : name ∈ members) : Subtype schema (.named name) (.named union)
  | list {item other : TypeRef} (h : Subtype schema item other) :
      Subtype schema (.list item) (.list other)
  | nonNull {inner other : TypeRef} (h : Subtype schema inner other) :
      Subtype schema (.nonNull inner) (.nonNull other)
  | stricter {inner other : TypeRef} (h : Subtype schema inner other) :
      Subtype schema (.nonNull inner) other

/-- What a type owes to an interface it declares: the interfaces of the interface, and its fields
with types that may stand for the promised ones. -/
structure Schema.Keeps (schema : Schema) (type interface : NamedType) : Prop where
  isInterface : ∃ interfaces fields, interface.content = .interface interfaces fields
  interfaces : ∀ further ∈ interface.declaredInterfaces, further ∈ type.declaredInterfaces
  fields : ∀ name promised, interface.field? name = some promised →
    ∃ own, type.field? name = some own ∧ schema.Subtype own.type promised.type

structure Schema.Valid (schema : Schema) : Prop where
  roots : ∀ kind root, schema.root? kind = some root → root.isObject = true
  fieldNames : ∀ type name field, schema.Knows type → type.field? name = some field →
    isInternal name = false
  fieldTypes : ∀ type name field, schema.Knows type → type.field? name = some field →
    ∃ core, schema.get? field.type.base = some core ∧ core.isOutput = true
  interfaces : ∀ type, schema.Knows type → ∀ name ∈ type.declaredInterfaces,
    ∃ interface, schema.get? name = some interface ∧ schema.Keeps type interface
  members : ∀ type names, schema.Knows type → type.content = .union names →
    ∀ name ∈ names, ∃ member, schema.get? name = some member ∧ member.isObject = true
  values : ∀ type, schema.Knows type → type.valuesFlaw? = none

/-- No field has more wrappers than a projection goes through. -/
def Schema.WrappersWithin (schema : Schema) (limit : Nat) : Prop :=
  ∀ type name field, schema.Knows type → type.field? name = some field →
    field.type.wrappers ≤ limit

/-! ### Selections -/

/-- A field exists on its type, and selects something on its value if and only if that is of a
composite type. -/
inductive SelectedField.Valid (schema : Schema) (field : SelectedField) : Prop
  | ordinary {declared : OutputField} {core : NamedType} (name : field.isInternal = false)
      (found : field.parent.field? field.head.name = some declared)
      (resolved : schema.get? declared.type.base = some core)
      (inner : field.inner.isSome = core.isComposite)
  | typeName (name : field.head.name = "__typename") (inner : field.inner = none)
  | introspection (name : field.head.name = "__schema" ∨ field.head.name = "__type")
      (root : schema.root? .query = some field.parent) (inner : field.inner.isSome = true)

theorem SelectedField.Valid.of_ordinary {schema : Schema} {field : SelectedField}
    (h : field.Valid schema) (hordinary : field.isInternal = false) :
    ∃ declared core, field.parent.field? field.head.name = some declared ∧
      schema.get? declared.type.base = some core ∧ field.inner.isSome = core.isComposite := by
  rw [SelectedField.isInternal] at hordinary
  cases h with
  | ordinary _ found resolved inner => exact ⟨_, _, found, resolved, inner⟩
  | typeName name =>
      rw [name, isInternal_typeName] at hordinary
      contradiction
  | introspection name =>
      rcases name with name | name
      · rw [name, isInternal_schema] at hordinary
        contradiction
      · rw [name, isInternal_type] at hordinary
        contradiction

/-- Whether an ordinary field of a known type selects something is a matter of this type. -/
theorem SelectedField.Valid.inner_isSome {schema : Schema} {field : SelectedField}
    (h : field.Valid schema) {declared : OutputField} {type : NamedType}
    (hordinary : field.isInternal = false)
    (hfound : field.parent.field? field.head.name = some declared)
    (hget : schema.get? declared.type.base = some type) :
    field.inner.isSome = type.isComposite := by
  obtain ⟨other, core, hfound', hcore, hinner⟩ := h.of_ordinary hordinary
  rw [hfound, Option.some.injEq] at hfound'
  rw [← hfound', hget, Option.some.injEq] at hcore
  rw [hinner, hcore]

/-- Whether two types have the same lists and the same marks for what is never null. -/
def Syntax.TypeRef.sameWrappers : TypeRef → TypeRef → Bool
  | .named _, .named _ => true
  | .list item, .list other => item.sameWrappers other
  | .nonNull inner, .nonNull other => inner.sameWrappers other
  | _, _ => false

/-- Two fields answer with values of one form: under the same wrappers both have fields of their
own, or both have values of one type. -/
def SameForm (left right : SelectedField) : Prop :=
  ∃ leftType rightType, left.type? = some leftType ∧ right.type? = some rightType ∧
    leftType.sameWrappers rightType = true ∧ left.inner.isSome = right.inner.isSome ∧
    (left.inner = none → leftType.base = rightType.base)

/-- There are objects of the type outside a guard that its condition lets through. -/
def Guard.MayApply (schema : Schema) (guard : Guard) : Prop :=
  ∀ condition, guard.condition = some condition → ∃ object, schema.Knows object ∧
    object.isObject = true ∧ guard.parent.includes object = true ∧
    condition.includes object = true

/-- Two fields may be selected on one value: their types are the same, or one of them at least is
not the type of objects. -/
def MayMeet (left right : SelectedField) : Prop :=
  left.parent.name = right.parent.name ∨ left.parent.isObject = false ∨
    right.parent.isObject = false

/-- Two selection sets are merged if they are the same root, or if fields select them that have
one key in merged sets and may meet. -/
inductive Merged (context : SelectionContext) (root : SelectionSet) :
    SelectionSet → SelectionSet → Prop
  | root : Merged context root root root
  | field {left right leftInner rightInner : SelectionSet} {leftGuards rightGuards : List Guard}
      {leftField rightField : SelectedField} (merged : Merged context root left right)
      (selectsLeft : Selects context left leftGuards leftField)
      (selectsRight : Selects context right rightGuards rightField)
      (sameKey : leftField.key = rightField.key) (mayMeet : MayMeet leftField rightField)
      (innerLeft : leftField.innerSet? context.schema = some leftInner)
      (innerRight : rightField.innerSet? context.schema = some rightInner) :
      Merged context root leftInner rightInner

structure ValidSelections (context : SelectionContext) (root : SelectionSet) : Prop where
  fields : ∀ location field, Occurs context root location field → field.Valid context.schema
  conditions : ∀ path set guards field, Nested context root path set →
    Selects context set guards field → ∀ guard ∈ guards, guard.MayApply context.schema
  forms : ∀ location left right, Occurs context root location left →
    Occurs context root location right → SameForm left right
  names : ∀ left right leftGuards rightGuards leftField rightField,
    Merged context root left right → Selects context left leftGuards leftField →
      Selects context right rightGuards rightField → leftField.key = rightField.key →
        MayMeet leftField rightField → leftField.head.name = rightField.head.name

/-- An operation is valid in its document: it starts from a type of the schema, what it selects is
valid there, and no fragment spreads itself. -/
structure ValidOperation (context : SelectionContext) (operation : Operation) (start : NamedType) :
    Prop where
  root : context.schema.root? operation.kind = some start
  selections : ValidSelections context ⟨start, operation.selections⟩
  acyclic : context.fragments.Acyclic

end OperationLibrary
