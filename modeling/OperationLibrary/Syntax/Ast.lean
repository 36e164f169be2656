/-!
Documents of the query language: operations and fragments with their selections, and the
definitions of a type system. Names, numbers and strings are kept as the text they denote; a
string also remembers whether it was written as a block.
-/

namespace OperationLibrary.Syntax

/-! ### Values, directives and type references -/

inductive Value where
  | variable (name : String)
  | int (digits : String)
  | float (digits : String)
  | string (text : String) (block : Bool)
  | boolean (value : Bool)
  | null
  | enum (name : String)
  | list (items : List Value)
  | object (fields : List (String × Value))
  deriving Inhabited

structure Argument where
  name : String
  value : Value
  deriving Inhabited

structure Directive where
  name : String
  arguments : List Argument
  deriving Inhabited

inductive TypeRef where
  | named (name : String)
  | list (item : TypeRef)
  | nonNull (inner : TypeRef)
  deriving Inhabited, DecidableEq

/-- A description in front of a definition. -/
structure Description where
  text : String
  block : Bool
  deriving Inhabited, DecidableEq

/-! ### Executable definitions -/

/-- What a field selects, its sub-selections apart. -/
structure FieldHead where
  aliasName : Option String
  name : String
  arguments : List Argument
  directives : List Directive
  deriving Inhabited

/-- The key under which a field answers. -/
def FieldHead.responseKey (head : FieldHead) : String :=
  head.aliasName.getD head.name

inductive Selection where
  | field (head : FieldHead) (selections : Option (List Selection))
  | spread (fragment : String) (directives : List Directive)
  | inline (condition : Option String) (directives : List Directive)
      (selections : List Selection)
  deriving Inhabited

inductive OperationKind where
  | query
  | mutation
  | subscription
  deriving Inhabited, DecidableEq

def OperationKind.keyword : OperationKind → String
  | .query => "query"
  | .mutation => "mutation"
  | .subscription => "subscription"

def OperationKind.ofKeyword? : String → Option OperationKind
  | "query" => some .query
  | "mutation" => some .mutation
  | "subscription" => some .subscription
  | _ => none

structure VariableDefinition where
  description : Option Description
  name : String
  type : TypeRef
  default : Option Value
  directives : List Directive
  deriving Inhabited

structure Operation where
  description : Option Description
  kind : OperationKind
  name : Option String
  variableDefinitions : List VariableDefinition
  directives : List Directive
  selections : List Selection
  deriving Inhabited

structure Fragment where
  description : Option Description
  name : String
  condition : String
  directives : List Directive
  selections : List Selection
  deriving Inhabited

/-- A definition that can be executed or spread. -/
inductive Executable where
  | operation (operation : Operation)
  | fragment (fragment : Fragment)
  deriving Inhabited

namespace Executable

def selections : Executable → List Selection
  | .operation o => o.selections
  | .fragment f => f.selections

def directives : Executable → List Directive
  | .operation o => o.directives
  | .fragment f => f.directives

def name? : Executable → Option String
  | .operation o => o.name
  | .fragment f => some f.name

/-- The definition if it is a fragment. -/
def fragment? : Executable → Option Fragment
  | .operation _ => none
  | .fragment f => some f

def operation? : Executable → Option Operation
  | .operation o => some o
  | .fragment _ => none

def variableDefinitions : Executable → List VariableDefinition
  | .operation o => o.variableDefinitions
  | .fragment _ => []

end Executable

/-! ### Type system definitions -/

/-- A directive that knows its place in the source text: how many characters are in front of it,
and in front of the value of each of its arguments. -/
structure PlacedDirective extends Directive where
  offset : Nat
  valueOffsets : List Nat
  deriving Inhabited

/-- The directives without their places. -/
def withoutPlaces (directives : List PlacedDirective) : List Directive :=
  directives.map PlacedDirective.toDirective

structure InputValueDefinition where
  description : Option Description
  name : String
  type : TypeRef
  default : Option Value
  directives : List PlacedDirective
  deriving Inhabited

structure FieldDefinition where
  description : Option Description
  name : String
  arguments : List InputValueDefinition
  type : TypeRef
  directives : List PlacedDirective
  deriving Inhabited

structure EnumValueDefinition where
  description : Option Description
  name : String
  directives : List PlacedDirective
  deriving Inhabited

structure RootType where
  kind : OperationKind
  type : String
  deriving Inhabited

/-- What a type definition, or an extension of one, says beyond name and directives. -/
inductive TypeBody where
  | scalar
  | object (interfaces : List String) (fields : List FieldDefinition)
  | interface (interfaces : List String) (fields : List FieldDefinition)
  | union (members : List String)
  | enum (values : List EnumValueDefinition)
  | input (fields : List InputValueDefinition)
  deriving Inhabited

structure TypeDefinition where
  description : Option Description
  name : String
  directives : List PlacedDirective
  body : TypeBody
  deriving Inhabited

structure DirectiveDefinition where
  description : Option Description
  name : String
  arguments : List InputValueDefinition
  directives : List PlacedDirective
  repeatable : Bool
  locations : List String
  deriving Inhabited

/-- Further directives on the definition of a directive. -/
structure DirectiveExtension where
  name : String
  directives : List PlacedDirective
  deriving Inhabited

structure SchemaDefinition where
  description : Option Description
  directives : List PlacedDirective
  roots : List RootType
  deriving Inhabited

inductive TypeSystem where
  | schema (definition : SchemaDefinition)
  | type (definition : TypeDefinition)
  | directive (definition : DirectiveDefinition)
  | extendSchema (definition : SchemaDefinition)
  | extendType (definition : TypeDefinition)
  | extendDirective (definition : DirectiveExtension)
  deriving Inhabited

inductive Definition where
  | executable (definition : Executable)
  | typeSystem (definition : TypeSystem)
  deriving Inhabited

abbrev Document := List Definition

namespace Document

/-- The operations and fragments of a document in source order. -/
def executables (document : Document) : List Executable :=
  document.filterMap fun
    | .executable d => some d
    | .typeSystem _ => none

def fragments (document : Document) : List Fragment :=
  document.executables.filterMap Executable.fragment?

def operations (document : Document) : List Operation :=
  document.executables.filterMap Executable.operation?

end Document

/-! ### Reading type references -/

namespace TypeRef

/-- The name at the core of a type. -/
def base : TypeRef → String
  | .named name => name
  | .list item => item.base
  | .nonNull inner => inner.base

def isNonNull : TypeRef → Bool
  | .nonNull _ => true
  | _ => false

def print : TypeRef → String
  | .named name => name
  | .list item => "[" ++ item.print ++ "]"
  | .nonNull inner => inner.print ++ "!"

end TypeRef

end OperationLibrary.Syntax
