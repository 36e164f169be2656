import OperationLibrary.Schema.Basic

/-!
The rules that a document has to keep for its definitions to make a schema: names are unique and
known, extensions extend what is there, and directives stand where they may with the arguments they
need. Executable definitions in the same document keep the rules about names and directives too.
Whether a type fits its place (an input type at an argument, say) is not a rule here.
-/

namespace OperationLibrary.Syntax

/-! ### Parts of a document -/

namespace Document

variable (document : Document)

def typeSystem : List TypeSystem :=
  document.filterMap fun
    | .typeSystem d => some d
    | .executable _ => none

def typeDefinitions : List TypeDefinition :=
  document.typeSystem.filterMap fun
    | .type d => some d
    | _ => none

def typeExtensions : List TypeDefinition :=
  document.typeSystem.filterMap fun
    | .extendType d => some d
    | _ => none

def schemaDefinitions : List SchemaDefinition :=
  document.typeSystem.filterMap fun
    | .schema d => some d
    | _ => none

def schemaExtensions : List SchemaDefinition :=
  document.typeSystem.filterMap fun
    | .extendSchema d => some d
    | _ => none

def directiveDefinitions : List DirectiveDefinition :=
  document.typeSystem.filterMap fun
    | .directive d => some d
    | _ => none

def directiveExtensions : List DirectiveExtension :=
  document.typeSystem.filterMap fun
    | .extendDirective d => some d
    | _ => none

/-- Definitions of types and extensions of them. -/
def typeParts : List TypeDefinition :=
  document.typeDefinitions ++ document.typeExtensions

/-- The root types that the schema definition and its extensions name. -/
def rootTypes : List RootType :=
  (document.schemaDefinitions ++ document.schemaExtensions).flatMap SchemaDefinition.roots

end Document

namespace TypeBody

def interfaces : TypeBody → List String
  | .object interfaces _ | .interface interfaces _ => interfaces
  | _ => []

def fields : TypeBody → List FieldDefinition
  | .object _ fields | .interface _ fields => fields
  | _ => []

def members : TypeBody → List String
  | .union members => members
  | _ => []

def values : TypeBody → List EnumValueDefinition
  | .enum values => values
  | _ => []

def inputFields : TypeBody → List InputValueDefinition
  | .input fields => fields
  | _ => []

/-- The location of directives on the definition of such a type, one for each kind of type. -/
def location : TypeBody → String
  | .scalar => "SCALAR"
  | .object .. => "OBJECT"
  | .interface .. => "INTERFACE"
  | .union _ => "UNION"
  | .enum _ => "ENUM"
  | .input _ => "INPUT_OBJECT"

end TypeBody

mutual

/-- A selection and all selections inside it. -/
def Selection.withInner : Selection → List Selection
  | .field head none => [.field head none]
  | .field head (some selections) => .field head (some selections) :: allSelections selections
  | .spread fragment directives => [.spread fragment directives]
  | .inline condition directives selections =>
    .inline condition directives selections :: allSelections selections

/-- All selections at any depth. -/
def allSelections : List Selection → List Selection
  | [] => []
  | selection :: rest => selection.withInner ++ allSelections rest

end

/-! ### Unique names -/

/-- The names that all parts with the same name contribute together are unique. -/
def uniqueByPart (namesOf : TypeBody → List String) (parts : List TypeDefinition) : Bool :=
  parts.all fun part =>
    decide ((parts.filter (·.name == part.name)).flatMap fun p => namesOf p.body).Nodup

mutual

/-- No object inside a value gives a field twice. -/
def Value.hasUniqueFields : Value → Bool
  | .list items => itemsHaveUniqueFields items
  | .object fields => decide (fields.map Prod.fst).Nodup && fieldsHaveUniqueFields fields
  | _ => true

def itemsHaveUniqueFields : List Value → Bool
  | [] => true
  | item :: rest => item.hasUniqueFields && itemsHaveUniqueFields rest

def fieldsHaveUniqueFields : List (String × Value) → Bool
  | [] => true
  | (_, value) :: rest => value.hasUniqueFields && fieldsHaveUniqueFields rest

end

namespace Document

variable (document : Document)

/-- Types, fields, enum values, arguments and directives are defined once, and so are the schema
and each of its roots. -/
def definesOnce : Bool :=
  document.schemaDefinitions.length ≤ 1 &&
  decide (document.rootTypes.map RootType.kind).Nodup &&
  decide (document.typeDefinitions.map TypeDefinition.name).Nodup &&
  decide (document.directiveDefinitions.map DirectiveDefinition.name).Nodup &&
  uniqueByPart (fun body => body.fields.map FieldDefinition.name ++
    body.inputFields.map InputValueDefinition.name) document.typeParts &&
  uniqueByPart (fun body => body.values.map EnumValueDefinition.name) document.typeParts &&
  (document.typeParts.flatMap fun part => part.body.fields).all (fun field =>
    decide (field.arguments.map InputValueDefinition.name).Nodup) &&
  document.directiveDefinitions.all fun directive =>
    decide (directive.arguments.map InputValueDefinition.name).Nodup

/-! ### Known types -/

/-- The types that executable definitions name. -/
def typesInExecutables : List String :=
  document.executables.flatMap fun definition =>
    definition.variableDefinitions.map (fun v => v.type.base) ++
      (definition.fragment?.map Fragment.condition).toList ++
      (allSelections definition.selections).filterMap fun
        | .inline condition _ _ => condition
        | _ => none

/-- The arguments and input fields that are defined. -/
def inputValues : List InputValueDefinition :=
  (document.typeParts.flatMap fun part =>
    part.body.fields.flatMap FieldDefinition.arguments ++ part.body.inputFields) ++
  document.directiveDefinitions.flatMap DirectiveDefinition.arguments

/-- The types that definitions of the type system name. -/
def typesInTypeSystem : List String :=
  document.rootTypes.map RootType.type ++
    (document.typeParts.flatMap fun part =>
      part.body.interfaces ++ part.body.fields.map (fun field => field.type.base) ++
        part.body.members) ++
    document.inputValues.map fun value => value.type.base

/-- Every type that is named is defined; the type system may also name those that need no
definition. -/
def knowsItsTypes : Bool :=
  let defined := document.typeDefinitions.map TypeDefinition.name
  document.typesInExecutables.all (defined.contains ·) &&
    document.typesInTypeSystem.all fun name =>
      defined.contains name || (reservedType? name).isSome

/-- Extensions extend a type of the document, and one of their own kind. -/
def extendsItsTypes : Bool :=
  document.typeExtensions.all fun extension =>
    match document.typeDefinitions.find? (·.name == extension.name) with
    | some definition => definition.body.location == extension.body.location
    | none => false

end Document

/-! ### Directives -/

/-- What is known of a directive. -/
structure DirectiveRule where
  name : String
  locations : List String
  repeatable : Bool
  arguments : List String
  required : List String

/-- The directives that need no definition. -/
def standardDirectives : List DirectiveRule :=
  [⟨"include", ["FIELD", "FRAGMENT_SPREAD", "INLINE_FRAGMENT"], false, ["if"], ["if"]⟩,
    ⟨"skip", ["FIELD", "FRAGMENT_SPREAD", "INLINE_FRAGMENT"], false, ["if"], ["if"]⟩,
    ⟨"deprecated", ["FIELD_DEFINITION", "ARGUMENT_DEFINITION", "INPUT_FIELD_DEFINITION",
      "ENUM_VALUE", "DIRECTIVE_DEFINITION"], false, ["reason"], []⟩,
    ⟨"specifiedBy", ["SCALAR"], false, ["url"], ["url"]⟩,
    ⟨"oneOf", ["INPUT_OBJECT"], false, [], []⟩]

def InputValueDefinition.isRequired (value : InputValueDefinition) : Bool :=
  value.type.isNonNull && value.default.isNone

def DirectiveDefinition.rule (definition : DirectiveDefinition) : DirectiveRule where
  name := definition.name
  locations := definition.locations
  repeatable := definition.repeatable
  arguments := definition.arguments.map InputValueDefinition.name
  required := (definition.arguments.filter InputValueDefinition.isRequired).map
    InputValueDefinition.name

/-- What a place with directives belongs to; the parts of a type share their directives, and so do
those of the schema and those of a directive. -/
inductive DirectiveOwner where
  | schema
  | type (name : String)
  | directive (name : String)
  | place
  deriving DecidableEq

/-- A place of a document where directives may stand. -/
structure DirectivePlace where
  location : String
  owner : DirectiveOwner
  directives : List Directive

def Selection.directivePlace : Selection → DirectivePlace
  | .field head _ => ⟨"FIELD", .place, head.directives⟩
  | .spread _ directives => ⟨"FRAGMENT_SPREAD", .place, directives⟩
  | .inline _ directives _ => ⟨"INLINE_FRAGMENT", .place, directives⟩

def OperationKind.location : OperationKind → String
  | .query => "QUERY"
  | .mutation => "MUTATION"
  | .subscription => "SUBSCRIPTION"

namespace Executable

def location : Executable → String
  | .operation o => o.kind.location
  | .fragment _ => "FRAGMENT_DEFINITION"

def directivePlaces (definition : Executable) : List DirectivePlace :=
  ⟨definition.location, .place, definition.directives⟩ ::
    definition.variableDefinitions.map (fun v => ⟨"VARIABLE_DEFINITION", .place, v.directives⟩) ++
    (allSelections definition.selections).map Selection.directivePlace

end Executable

def argumentPlaces (arguments : List InputValueDefinition) : List DirectivePlace :=
  arguments.map fun a => ⟨"ARGUMENT_DEFINITION", .place, withoutPlaces a.directives⟩

def TypeDefinition.directivePlaces (part : TypeDefinition) : List DirectivePlace :=
  ⟨part.body.location, .type part.name, withoutPlaces part.directives⟩ ::
    part.body.fields.flatMap (fun field =>
      ⟨"FIELD_DEFINITION", .place, withoutPlaces field.directives⟩ ::
        argumentPlaces field.arguments) ++
    part.body.values.map (fun value => ⟨"ENUM_VALUE", .place, withoutPlaces value.directives⟩) ++
    part.body.inputFields.map fun field =>
      ⟨"INPUT_FIELD_DEFINITION", .place, withoutPlaces field.directives⟩

/-- The place of the directives on a directive, at its definition or in an extension. -/
def directiveDefinitionPlace (name : String) (directives : List PlacedDirective) :
    DirectivePlace :=
  ⟨"DIRECTIVE_DEFINITION", .directive name, withoutPlaces directives⟩

namespace Document

variable (document : Document)

def directivePlaces : List DirectivePlace :=
  document.executables.flatMap Executable.directivePlaces ++
    (document.schemaDefinitions ++ document.schemaExtensions).map
      (fun d => ⟨"SCHEMA", .schema, withoutPlaces d.directives⟩) ++
    document.typeParts.flatMap TypeDefinition.directivePlaces ++
    document.directiveDefinitions.flatMap (fun d =>
      directiveDefinitionPlace d.name d.directives :: argumentPlaces d.arguments) ++
    document.directiveExtensions.map fun d => directiveDefinitionPlace d.name d.directives

/-- The rule of a directive; a definition in the document takes the place of the standard one. -/
def directiveRule? (name : String) : Option DirectiveRule :=
  (document.directiveDefinitions.map DirectiveDefinition.rule ++ standardDirectives).find?
    (·.name == name)

/-- Whether a directive may stand at a location with the arguments it has. -/
def allowsDirective (location : String) (directive : Directive) : Bool :=
  match document.directiveRule? directive.name with
  | none => false
  | some rule =>
    let given := directive.arguments.map Argument.name
    rule.locations.contains location && given.all (rule.arguments.contains ·) &&
      rule.required.all (given.contains ·)

/-- The directives at a place, and at the other places of the same owner. -/
def directivesWith (place : DirectivePlace) : List Directive :=
  if place.owner = .place then place.directives
  else (document.directivePlaces.filter (·.owner = place.owner)).flatMap
    DirectivePlace.directives

/-- Directives are known and stand where they may, and only repeatable ones are repeated. -/
def keepsDirectiveRules : Bool :=
  document.directivePlaces.all fun place =>
    place.directives.all (document.allowsDirective place.location) &&
    decide (((document.directivesWith place).map Directive.name).filter fun name =>
      !(document.directiveRule? name).any DirectiveRule.repeatable).Nodup

/-! ### Arguments and values -/

/-- The lists of arguments that fields and directives are given. -/
def argumentLists : List (List Argument) :=
  (document.executables.flatMap fun definition =>
    (allSelections definition.selections).filterMap fun
      | .field head _ => some head.arguments
      | _ => none) ++
  document.directivePlaces.flatMap fun place => place.directives.map Directive.arguments

/-- The values of arguments and the defaults. -/
def values : List Value :=
  document.argumentLists.flatMap (·.map Argument.value) ++
    document.inputValues.filterMap InputValueDefinition.default ++
    document.executables.flatMap fun definition =>
      definition.variableDefinitions.filterMap VariableDefinition.default

/-- No argument and no field of an input object is given twice. -/
def givesOnce : Bool :=
  document.argumentLists.all (fun arguments => decide (arguments.map Argument.name).Nodup) &&
    document.values.all Value.hasUniqueFields

/-- Whether the document keeps the rules for the definition of a schema. -/
def isValidTypeSystem : Bool :=
  document.definesOnce && document.knowsItsTypes && document.extendsItsTypes &&
    document.keepsDirectiveRules && document.givesOnce

end Document

end OperationLibrary.Syntax
