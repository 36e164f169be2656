import OperationLibrary.Schema.Deprecation
import OperationLibrary.Schema.Validity
import OperationLibrary.Syntax.TypeSystemParser

/-!
The schema that the definitions of a document describe. Extensions add to what they extend, in the
order of the document. Standard scalars are known where something uses them, strings and booleans
always.
-/

namespace OperationLibrary

open Syntax

namespace Schema

/-! ### Types -/

/-- What a description says. -/
def explanation (description : Option Description) : Option Explanation :=
  description.map fun d => .text d.text

def inputField (definition : InputValueDefinition) : InputField :=
  ⟨definition.name, explanation definition.description, definition.type⟩

def outputField (definition : FieldDefinition) : OutputField :=
  ⟨definition.name, explanation definition.description, definition.arguments.map inputField,
    definition.type⟩

/-- What a definition in `source` and its extensions make of a type together. -/
def contentOf (source : String) (document : Document) (definition : TypeDefinition) :
    TypeContent :=
  let parts := document.bodiesOf definition
  let interfaces := parts.flatMap TypeBody.interfaces
  let fields := (parts.flatMap TypeBody.fields).map outputField
  match definition.body with
  | .scalar => .scalar
  | .object .. => .object interfaces fields
  | .interface .. => .interface interfaces fields
  | .union _ => .union (parts.flatMap TypeBody.members)
  | .enum _ =>
    .enum ((parts.flatMap TypeBody.values).map EnumValueDefinition.name)
      (document.valuesFlaw? source definition)
  | .input _ => .input ((parts.flatMap TypeBody.inputFields).map inputField)

/-- The type of a definition; a reserved name stands for what it always stands for. -/
def typeOf (source : String) (document : Document) (definition : TypeDefinition) : NamedType :=
  (reservedType? definition.name).getD
    ⟨definition.name, explanation definition.description, contentOf source document definition⟩

/-! ### Standard parts -/

/-- The directives that need no definition, with their arguments. -/
def standardDirectives : List KnownDirective :=
  [⟨"include", [argument "if" "Included when true." "Boolean"]⟩,
    ⟨"skip", [argument "if" "Skipped when true." "Boolean"]⟩,
    ⟨"deprecated", [argument "reason" ("Explains why this element was deprecated, usually " ++
      "also including a suggestion for how to access supported similar data. Formatted using " ++
      "the Markdown syntax, as specified by [CommonMark](https://commonmark.org/).") "String"]⟩,
    ⟨"specifiedBy", [argument "url" "The URL that specifies the behavior of this scalar."
      "String"]⟩,
    ⟨"oneOf", []⟩]
where
  argument (name description type : String) : InputField :=
    ⟨name, some (.text description), .nonNull (.named type)⟩

/-- The types that a type refers to: as interfaces and members, and as the types of its fields and
their arguments. -/
def referredTypes (type : NamedType) : List String :=
  match type.content with
  | .object interfaces fields | .interface interfaces fields =>
    interfaces ++ fields.flatMap fun field => field.type.base :: baseTypes field.arguments
  | .union members => members
  | .input fields => baseTypes fields
  | .scalar | .enum .. => []
where
  baseTypes (fields : List InputField) : List String :=
    fields.map fun field => field.type.base

/-- The types with the standard scalars that are always known or that `used` names. -/
def withStandardScalars (types : List NamedType) (used : List String) : List NamedType :=
  let known := types.map NamedType.name
  let used := "String" :: "Boolean" :: used
  types ++ (standardScalars.filter fun name =>
    used.contains name && !known.contains name).map .scalar

/-! ### The schema -/

/-- The type that the document names as the root of an operation kind. -/
def namedRoot (document : Document) (kind : OperationKind) : Option String :=
  (document.rootTypes.find? (·.kind = kind)).map RootType.type

/-- The root of an operation kind. Without a schema definition a type with the usual name comes
first. -/
def rootOf (document : Document) (kind : OperationKind) (usual : String) : Option String :=
  if document.schemaDefinitions.isEmpty && document.typeDefinitions.any (·.name == usual) then
    some usual
  else namedRoot document kind

/-- The schema that the definitions of a document make; `source` is the text of the document. -/
def ofDefinitions (source : String) (document : Document) : Schema :=
  let types := document.typeDefinitions.map (typeOf source document)
  let own := document.directiveDefinitions.map fun d =>
    (⟨d.name, d.arguments.map inputField⟩ : KnownDirective)
  let directives := own ++
    standardDirectives.filter fun d => !(own.map KnownDirective.name).contains d.name
  let query := rootOf document .query "Query"
  let mutation := rootOf document .mutation "Mutation"
  let subscription := rootOf document .subscription "Subscription"
  let used := [query, mutation, subscription].filterMap id ++ types.flatMap referredTypes ++
    directives.flatMap fun d => d.arguments.map fun argument => argument.type.base
  { types := withStandardScalars types used, query, mutation, subscription, directives }

end Schema

/-- Why a text gives no schema. -/
inductive SchemaFault where
  | flawed (flaw : SchemaFlaw)
  | invalid
  deriving DecidableEq

/-- The schema that a text defines. -/
def Schema.parse (source : String) : Except SchemaFault Schema :=
  match Document.parse source with
  | .error error => .error (.flawed (.unreadable source error))
  | .ok document =>
    if document.isValidTypeSystem then
      match document.flaw? source with
      | some flaw => .error (.flawed flaw)
      | none => .ok (Schema.ofDefinitions source document)
    else .error .invalid

end OperationLibrary
