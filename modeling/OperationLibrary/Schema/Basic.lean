import OperationLibrary.Explanation
import OperationLibrary.Schema.Flaw
import OperationLibrary.Syntax.Ast
import OperationLibrary.Unseen

/-!
Schemas: the types that a server knows by name, the types its operations start from, and its
directives. Types refer to one another by name, so a schema may be as recursive as it likes; what a
name stands for is looked up in the schema. The values of an enum may be flawed in a schema that is
fine otherwise: nobody looks at them before they are asked for.
-/

namespace OperationLibrary

open Syntax

/-- An argument, or a field of an input type. -/
structure InputField where
  name : String
  description : Option Explanation
  type : TypeRef
  deriving Inhabited

structure OutputField where
  name : String
  description : Option Explanation
  arguments : List InputField
  type : TypeRef
  deriving Inhabited

inductive TypeContent where
  | scalar
  | object (interfaces : List String) (fields : List OutputField)
  | interface (interfaces : List String) (fields : List OutputField)
  | union (members : List String)
  | enum (values : List String) (flaw : Option SchemaFlaw)
  | input (fields : List InputField)
  deriving Inhabited

structure NamedType where
  name : String
  description : Option Explanation
  content : TypeContent
  deriving Inhabited

/-- A directive that a schema knows. -/
structure KnownDirective where
  name : String
  arguments : List InputField
  deriving Inhabited

structure Schema where
  types : List NamedType
  query : Option String
  mutation : Option String
  subscription : Option String
  directives : List KnownDirective
  deriving Inhabited

/-! ### Kinds of types -/

namespace NamedType

/-- The fields of an object or interface type. -/
def outputFields? (type : NamedType) : Option (List OutputField) :=
  match type.content with
  | .object _ fields | .interface _ fields => some fields
  | _ => none

/-- The fields of an input type. -/
def inputFields? (type : NamedType) : Option (List InputField) :=
  match type.content with
  | .input fields => some fields
  | _ => none

def isObject (type : NamedType) : Bool :=
  match type.content with
  | .object .. => true
  | _ => false

/-- What is wrong with the values of an enum. -/
def valuesFlaw? (type : NamedType) : Option SchemaFlaw :=
  match type.content with
  | .enum _ flaw => flaw
  | _ => none

/-- Values of an abstract type are of one of several object types. -/
def isAbstract (type : NamedType) : Bool :=
  match type.content with
  | .interface .. | .union _ => true
  | _ => false

/-- Composite types are those that selections are made on. -/
def isComposite (type : NamedType) : Bool :=
  type.isObject || type.isAbstract

/-- Types that arguments may have. -/
def isInput (type : NamedType) : Bool :=
  match type.content with
  | .scalar | .enum .. | .input _ => true
  | _ => false

/-- Types that fields may have. -/
def isOutput (type : NamedType) : Bool :=
  type.inputFields?.isNone

/-- The field of an object or interface type with this name. -/
def field? (type : NamedType) (name : String) : Option OutputField :=
  (type.outputFields?.getD []).find? (·.name == name)

end NamedType

/-! ### Types that every server has -/

/-- The scalar types that need no definition. -/
def standardScalars : List String :=
  ["Int", "Float", "String", "Boolean", "ID"]

def NamedType.scalar (name : String) : NamedType :=
  ⟨name, none, .scalar⟩

/-- The types that every schema has for describing itself, by their kinds. -/
def introspectionTypes : List NamedType :=
  (["__Schema", "__Directive", "__Type", "__Field", "__InputValue", "__EnumValue"].map
    fun name => ⟨name, none, .object [] []⟩) ++
  ["__DirectiveLocation", "__TypeKind"].map fun name => ⟨name, none, .enum [] none⟩

/-- The types whose names are taken; a type that is described under such a name is this one, and
what the description says does not count. -/
def reservedType? (name : String) : Option NamedType :=
  (standardScalars.map NamedType.scalar ++ introspectionTypes).find? (·.name == name)

/-! ### Looking up -/

namespace Schema

/-- The type that a name stands for. -/
def get? (schema : Schema) (name : String) : Option NamedType :=
  schema.types.find? (·.name == name)

/-- Whether the name at the core of a type stands for a type. -/
def resolves (schema : Schema) (type : TypeRef) : Bool :=
  (schema.get? type.base).isSome

def rootName? (schema : Schema) : OperationKind → Option String
  | .query => schema.query
  | .mutation => schema.mutation
  | .subscription => schema.subscription

/-- The type that operations of a kind start from. -/
def root? (schema : Schema) (kind : OperationKind) : Option NamedType :=
  (schema.rootName? kind).bind schema.get?

def directive? (schema : Schema) (name : String) : Option KnownDirective :=
  schema.directives.find? (·.name == name)

/-- How many types of the schema have names that are not among `names`. -/
def unseen (schema : Schema) (names : List String) : Nat :=
  OperationLibrary.unseen NamedType.name schema.types names

theorem name_of_get? {schema : Schema} {name : String} {type : NamedType}
    (h : schema.get? name = some type) : type.name = name := by
  simpa using List.find?_some h

/-- A type that is new among `names` leaves fewer types unseen. -/
theorem unseen_cons_lt {schema : Schema} {names : List String} {name : String}
    {type : NamedType} (found : schema.get? name = some type) (fresh : name ∉ names) :
    schema.unseen (name :: names) < schema.unseen names :=
  OperationLibrary.unseen_cons_lt found fresh

end Schema

end OperationLibrary
