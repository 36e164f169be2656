import Mathlib.Data.Set.Insert
import OperationLibrary.Shape.Selected

/-!
Execution of an operation, as far as the keys of the response go. The value of a composite type has
some object type, which is chosen while the operation runs. From the selections made on a value the
server collects the fields whose conditions this type satisfies; all fields of one key answer
together, and what they select is selected on the value of the field.
-/

namespace OperationLibrary

open Syntax

/-! ### Types and their values -/

namespace NamedType

/-- The interfaces that an object or interface type declares. -/
def declaredInterfaces (type : NamedType) : List String :=
  match type.content with
  | .object interfaces _ | .interface interfaces _ => interfaces
  | _ => []

/-- Whether values of the object type `object` are values of `type`. -/
def includes (type object : NamedType) : Bool :=
  match type.content with
  | .object .. => type.name == object.name
  | .interface .. => object.declaredInterfaces.contains type.name
  | .union members => members.contains object.name
  | _ => false

end NamedType

/-- A type is the one that its name stands for. -/
def Schema.Knows (schema : Schema) (type : NamedType) : Prop :=
  schema.get? type.name = some type

/-- The types of the fields that every schema has for describing itself. -/
def internalFieldType? : String → Option TypeRef
  | "__typename" => some (.nonNull (.named "String"))
  | "__schema" => some (.nonNull (.named "__Schema"))
  | "__type" => some (.named "__Type")
  | _ => none

theorem isInternal_typeName : isInternal "__typename" = true := by simp [isInternal]

theorem isInternal_schema : isInternal "__schema" = true := by simp [isInternal]

theorem isInternal_type : isInternal "__type" = true := by simp [isInternal]

/-- The declared type of the field with a name. -/
def NamedType.fieldType? (type : NamedType) (name : String) : Option TypeRef :=
  if isInternal name then internalFieldType? name else (type.field? name).map (·.type)

/-! ### Fields and the conditions they stand under -/

/-- Selections and the type that they are written on. -/
structure SelectionSet where
  parent : NamedType
  selections : List Selection

/-- A field as it is selected, with the type that it is selected on. -/
structure SelectedField where
  parent : NamedType
  head : FieldHead
  inner : Option (List Selection)

namespace SelectedField

def key (field : SelectedField) : String :=
  field.head.responseKey

def isInternal (field : SelectedField) : Bool :=
  OperationLibrary.isInternal field.head.name

def type? (field : SelectedField) : Option TypeRef :=
  field.parent.fieldType? field.head.name

/-- What is selected on the value of a field, for the fields that the schema defines. -/
def innerSet? (schema : Schema) (field : SelectedField) : Option SelectionSet := do
  let declared ← field.parent.field? field.head.name
  let type ← schema.get? declared.type.base
  let selections ← field.inner
  return ⟨type, selections⟩

end SelectedField

/-- A fragment around a selection: the type outside, the type that the fragment is for, if it says
so, and its directives. -/
structure Guard where
  parent : NamedType
  condition : Option NamedType
  directives : List Directive

/-- A fragment among the selections of a set opens further selections, behind a guard. -/
inductive Opens (context : SelectionContext) : SelectionSet → Guard → SelectionSet → Prop
  | group {parent : NamedType} {selections inner : List Selection} {directives : List Directive}
      (mem : .inline none directives inner ∈ selections) :
      Opens context ⟨parent, selections⟩ ⟨parent, none, directives⟩ ⟨parent, inner⟩
  | inline {parent condition : NamedType} {selections inner : List Selection} {name : String}
      {directives : List Directive} (mem : .inline (some name) directives inner ∈ selections)
      (resolved : context.schema.get? name = some condition) :
      Opens context ⟨parent, selections⟩ ⟨parent, some condition, directives⟩ ⟨condition, inner⟩
  | spread {parent condition : NamedType} {selections : List Selection} {name : String}
      {directives : List Directive} {fragment : Fragment}
      (mem : .spread name directives ∈ selections)
      (found : context.fragments.get? name = some fragment)
      (resolved : context.schema.get? fragment.condition = some condition) :
      Opens context ⟨parent, selections⟩ ⟨parent, some condition, directives⟩
        ⟨condition, fragment.selections⟩

/-- A field is selected, behind guards from the outermost one to the innermost. -/
inductive Selects (context : SelectionContext) :
    SelectionSet → List Guard → SelectedField → Prop
  | field {parent : NamedType} {selections : List Selection} {head : FieldHead}
      {inner : Option (List Selection)} (mem : .field head inner ∈ selections) :
      Selects context ⟨parent, selections⟩ [] ⟨parent, head, inner⟩
  | behind {outer inner : SelectionSet} {guard : Guard} {guards : List Guard}
      {field : SelectedField} (opens : Opens context outer guard inner)
      (selects : Selects context inner guards field) :
      Selects context outer (guard :: guards) field

/-- The selection sets that lie along a path of keys, whatever conditions they stand under. -/
inductive Nested (context : SelectionContext) : SelectionSet → List String → SelectionSet → Prop
  | here (set : SelectionSet) : Nested context set [] set
  | field {set next last : SelectionSet} {guards : List Guard} {field : SelectedField}
      {path : List String} (selects : Selects context set guards field)
      (inner : field.innerSet? context.schema = some next)
      (nested : Nested context next path last) :
      Nested context set (field.key :: path) last

/-- A field is selected at a location: its key behind the keys of the fields around it. -/
def Occurs (context : SelectionContext) (root : SelectionSet) (location : List String)
    (field : SelectedField) : Prop :=
  ∃ path set guards, location = path ++ [field.key] ∧ Nested context root path set ∧
    Selects context set guards field

/-! ### Running -/

/-- The value of the condition of `@skip` or `@include`. -/
def conditionOf (given : String → Bool) (directive : Directive) : Bool :=
  match (directive.arguments.find? (·.name == "if")).map Argument.value with
  | some (.boolean value) => value
  | some (.variable name) => given name
  | _ => false

/-- Whether directives let a selection count. -/
def isIncluded (given : String → Bool) (directives : List Directive) : Bool :=
  directives.all fun directive =>
    if directive.name == "skip" then !conditionOf given directive
    else if directive.name == "include" then conditionOf given directive
    else true

/-- Whether a guard lets the fields behind it count for a value of the type `object`. -/
def Guard.admits (given : String → Bool) (object : NamedType) (guard : Guard) : Bool :=
  isIncluded given guard.directives && guard.condition.all (·.includes object)

/-- A field is collected from selection sets on a value of the type `object`. A fragment that is
visited again would collect the same fields again, so visits are not counted. -/
def Collects (context : SelectionContext) (given : String → Bool) (object : NamedType)
    (sets : Set SelectionSet) (field : SelectedField) : Prop :=
  ∃ set ∈ sets, ∃ guards, Selects context set guards field ∧
    (∀ guard ∈ guards, guard.admits given object = true) ∧
    isIncluded given field.head.directives = true

/-- What the collected fields of a key select on their value. -/
def collectedSets (context : SelectionContext) (given : String → Bool) (object : NamedType)
    (sets : Set SelectionSet) (key : String) : Set SelectionSet :=
  {set | ∃ field, Collects context given object sets field ∧ field.key = key ∧
    field.innerSet? context.schema = some set}

/-- Execution comes to a value of the type `object` along a path of keys, and the selection sets
apply to it. Which of the possible object types a value has is open, and where the path goes
through lists it is the path of any item. -/
inductive Executes (context : SelectionContext) (given : String → Bool) (root : SelectionSet) :
    List String → NamedType → Set SelectionSet → Prop
  | root : Executes context given root [] root.parent {root}
  | field {path : List String} {object type value : NamedType} {sets : Set SelectionSet}
      {field : SelectedField} {declared : OutputField}
      (reached : Executes context given root path object sets)
      (collected : Collects context given object sets field)
      (found : object.field? field.head.name = some declared)
      (resolved : context.schema.get? declared.type.base = some type)
      (known : context.schema.Knows value) (isObject : value.isObject = true)
      (possible : type.includes value = true) :
      Executes context given root (path ++ [field.key]) value
        (collectedSets context given object sets field.key)

/-! ### Small facts -/

section

variable {context : SelectionContext} {given : String → Bool}

theorem SelectedField.innerSet?_eq_some {schema : Schema} {field : SelectedField}
    {set : SelectionSet} :
    field.innerSet? schema = some set ↔ ∃ declared,
      field.parent.field? field.head.name = some declared ∧
        schema.get? declared.type.base = some set.parent ∧ field.inner = some set.selections := by
  obtain ⟨parent, selections⟩ := set
  simp [SelectedField.innerSet?, Option.bind_eq_some_iff]

theorem SelectedField.type?_of_typeName {field : SelectedField}
    (h : field.head.name = "__typename") : field.type? = some (.nonNull (.named "String")) := by
  rw [SelectedField.type?, NamedType.fieldType?, h, if_pos isInternal_typeName]
  rfl

theorem SelectedField.type?_of_ordinary {field : SelectedField} {declared : OutputField}
    (hordinary : field.isInternal = false)
    (hfound : field.parent.field? field.head.name = some declared) :
    field.type? = some declared.type := by
  rw [SelectedField.isInternal] at hordinary
  rw [SelectedField.type?, NamedType.fieldType?, hordinary, hfound]
  rfl

/-- A path of keys can be continued at its end. -/
theorem Nested.concat {set middle last : SelectionSet} {path : List String} {guards : List Guard}
    {field : SelectedField} (h : Nested context set path middle)
    (hselects : Selects context middle guards field)
    (hinner : field.innerSet? context.schema = some last) :
    Nested context set (path ++ [field.key]) last := by
  induction h with
  | here set => exact .field hselects hinner (.here last)
  | field selects inner _ ih => exact .field selects inner (ih hselects)

theorem Nested.occurs {root set : SelectionSet} {path : List String} {guards : List Guard}
    {field : SelectedField} (h : Nested context root path set)
    (hselects : Selects context set guards field) :
    Occurs context root (path ++ [field.key]) field :=
  ⟨path, set, guards, rfl, h, hselects⟩

/-- The selection sets that a run applies to a value lie along the path of the value. -/
theorem Executes.nested {root : SelectionSet} {path : List String} {object : NamedType}
    {sets : Set SelectionSet} (h : Executes context given root path object sets) :
    ∀ set ∈ sets, Nested context root path set := by
  induction h with
  | root =>
      intro set hset
      rw [Set.mem_singleton_iff.mp hset]
      exact .here root
  | field _ _ _ _ _ _ _ ih =>
      rintro set ⟨field, ⟨outer, houter, guards, hselects, -⟩, hkey, hinner⟩
      rw [← hkey]
      exact (ih outer houter).concat hselects hinner

theorem Executes.occurs {root : SelectionSet} {path : List String} {object : NamedType}
    {sets : Set SelectionSet} {field : SelectedField}
    (h : Executes context given root path object sets)
    (hcollects : Collects context given object sets field) :
    Occurs context root (path ++ [field.key]) field := by
  obtain ⟨set, hset, guards, hselects, -⟩ := hcollects
  exact (h.nested set hset).occurs hselects

end

end OperationLibrary
