import OperationLibrary.Document.Record
import OperationLibrary.Shape.FullType

/-!
The shape of the variables of an operation. A variable takes over the description of what it is
bound to: the arguments and the fields of input objects where it stands in the operation. Where
these say different things, it gets no description.
-/

namespace OperationLibrary

open Syntax

/-! ### Usages -/

/-- A variable at an argument or an input field, with the description found there. -/
structure VariableBinding where
  name : String
  description : Option Explanation

/-- What an operation asks of the schema where it writes a value. -/
inductive Usage where
  /-- A variable stands at an argument or an input field. -/
  | variable (binding : VariableBinding)
  /-- A value of an enum is looked up among values that are flawed. -/
  | flawed (flaw : SchemaFlaw)

def Usage.binding? : Usage → Option VariableBinding
  | .variable binding => some binding
  | .flawed _ => none

/-- The type if the schema has an input type of its name. -/
def inputTypeOnly (schema : Schema) (type : TypeRef) : Option TypeRef :=
  if (schema.get? type.base).any NamedType.isInput then some type else none

/-- The type of the items of a list that stands at a place of this type; where no list belongs,
every item is read as if it stood there alone. -/
def itemType : TypeRef → TypeRef
  | .list item => item
  | .nonNull (.list item) => item
  | type => type

/-- The fields of the input type at the core of a type. -/
def inputFieldsOf? (schema : Schema) (type : Option TypeRef) : Option (List InputField) :=
  (type.bind fun t => schema.get? t.base).bind NamedType.inputFields?

/-- The flaw in the values of the enum at the core of a type. -/
def valuesFlawOf? (schema : Schema) (type : Option TypeRef) : Option SchemaFlaw :=
  (type.bind fun t => schema.get? t.base).bind NamedType.valuesFlaw?

mutual

/-- The usages inside a value at a place of this type; an object binds variables only where the
place has an input object type. -/
def usagesInValue (schema : Schema) (type : Option TypeRef) : Value → List Usage
  | .enum _ => (valuesFlawOf? schema type).toList.map .flawed
  | .list items =>
    usagesInItems schema ((type.map itemType).bind (inputTypeOnly schema)) items
  | .object fields => usagesInFields schema (inputFieldsOf? schema type) fields
  | _ => []

def usagesInItems (schema : Schema) (type : Option TypeRef) : List Value → List Usage
  | [] => []
  | item :: rest => usagesInValue schema type item ++ usagesInItems schema type rest

def usagesInFields (schema : Schema) (known : Option (List InputField)) :
    List (String × Value) → List Usage
  | [] => []
  | (name, value) :: rest =>
    let field := known.bind fun fields => fields.find? (·.name == name)
    let here := match known, value with
      | some _, .variable v => [Usage.variable ⟨v, field.bind InputField.description⟩]
      | _, _ => []
    here ++
      usagesInValue schema (field.bind fun f => inputTypeOnly schema f.type) value ++
      usagesInFields schema known rest

end

/-- The usages in arguments, of which `known` are declared. -/
def usagesInArguments (schema : Schema) (known : List InputField) (arguments : List Argument) :
    List Usage :=
  arguments.flatMap fun argument =>
    let declared := known.find? (·.name == argument.name)
    let here := match argument.value with
      | .variable v => [Usage.variable ⟨v, declared.bind InputField.description⟩]
      | _ => []
    here ++
      usagesInValue schema (declared.bind fun d => inputTypeOnly schema d.type) argument.value

/-- The arguments that a field declares, none for a field that is not known. -/
def declaredArguments (field : Option OutputField) : List InputField :=
  (field.map OutputField.arguments).getD []

/-- The usages in directives. The arguments of a directive that the schema does not know are
looked up in the field around it. -/
def usagesInDirectives (schema : Schema) (around : Option OutputField)
    (directives : List Directive) : List Usage :=
  directives.flatMap fun directive =>
    let known := match schema.directive? directive.name with
      | some d => d.arguments
      | none => declaredArguments around
    usagesInArguments schema known directive.arguments

/-- The usages where a variable is declared: in its default value and its directives. -/
def usagesInDefinition (schema : Schema) (definition : VariableDefinition) : List Usage :=
  (definition.default.toList.flatMap
      (usagesInValue schema (inputTypeOnly schema definition.type))) ++
    usagesInDirectives schema none definition.directives

/-- The type at the core of a field, if selections can be made on it. -/
def selectedType (schema : Schema) (field : Option OutputField) : Option NamedType :=
  (field.bind fun f => schema.get? f.type.base).filter NamedType.isComposite

mutual

/-- The usages in a selection on `parent`, inside the field `around`. -/
def usagesInSelection (schema : Schema) (around : Option OutputField)
    (parent : Option NamedType) : Selection → List Usage
  | .field head none =>
    let field := parent.bind fun type => type.field? head.name
    usagesInArguments schema (declaredArguments field) head.arguments ++
      usagesInDirectives schema field head.directives
  | .field head (some selections) =>
    let field := parent.bind fun type => type.field? head.name
    usagesInArguments schema (declaredArguments field) head.arguments ++
      usagesInDirectives schema field head.directives ++
      usagesInSelections schema field (selectedType schema field) selections
  | .spread _ directives => usagesInDirectives schema around directives
  | .inline condition directives selections =>
    let inner := match condition with
      | none => parent
      | some name => (schema.get? name).filter NamedType.isComposite
    usagesInDirectives schema around directives ++
      usagesInSelections schema around inner selections

def usagesInSelections (schema : Schema) (around : Option OutputField)
    (parent : Option NamedType) : List Selection → List Usage
  | [] => []
  | selection :: rest =>
    usagesInSelection schema around parent selection ++
      usagesInSelections schema around parent rest

end

/-- The usages in an operation, in the order of the text; what fragments use is theirs. -/
def usagesInOperation (schema : Schema) (operation : Operation) : List Usage :=
  let root := (schema.root? operation.kind).filter NamedType.isObject
  operation.variableDefinitions.flatMap (usagesInDefinition schema) ++
    usagesInDirectives schema none operation.directives ++
    usagesInSelections schema none root operation.selections

/-- The bindings of variables in an operation. -/
def variableBindings (schema : Schema) (operation : Operation) : List VariableBinding :=
  (usagesInOperation schema operation).filterMap Usage.binding?

/-! ### Descriptions -/

/-- The different things that bindings say about a variable. -/
def descriptionsOf (bindings : List VariableBinding) (name : String) : List Explanation :=
  ((bindings.filter (·.name == name)).filterMap VariableBinding.description).filter
    Explanation.saysSomething |>.eraseDupsBy Explanation.same

/-- The description of a variable, where there is exactly one. -/
def bindingDescription (bindings : List VariableBinding) (name : String) : Option Explanation :=
  match descriptionsOf bindings name with
  | [description] => some description
  | _ => none

/-- What is said about a declared variable has to be comparable, for only what all bindings agree
on counts. -/
def VariableBinding.fault? (binding : VariableBinding) : Option ShapeFault :=
  if binding.description.all fun d => !d.saysSomething || d.isComparable then none
  else some .notComparable

/-- Goes through the usages in an operation, with a warning for every variable that is not
declared. -/
def surveyUsages (operation : Operation) (usages : List Usage) : Projection Unit :=
  let declared := operation.variableDefinitions.map VariableDefinition.name
  let label := (Executable.operation operation).displayName
  usages.forM fun
    | .variable binding =>
      if declared.contains binding.name then Projection.check binding.fault?
      else Logged.warn .selections
        ("Undefined variable $" ++ binding.name ++ " found in operation " ++ label)
    | .flawed flaw => Projection.check (some (.flawed flaw))

/-! ### Shapes -/

/-- The entry of a declared variable, if its type is known. -/
def variableEntry (schema : Schema) (scalars : ScalarTable) (operation : Operation)
    (bindings : List VariableBinding) (definition : VariableDefinition) :
    Projection (Option (Entry Shape)) :=
  if schema.resolves definition.type then do
    let shape ← shapeOfType schema scalars definition.type
    return some ⟨definition.name, shape, !definition.type.isNonNull,
      bindingDescription bindings definition.name⟩
  else do
    Logged.warn .selections ("Unknown type for variable $" ++ definition.name ++ " in " ++
      (Executable.operation operation).displayName)
    return none

/-- The shape of the variables that an operation accepts. -/
def variablesShape (schema : Schema) (scalars : ScalarTable) (operation : Operation) :
    Projection Shape := do
  surveyUsages operation (usagesInOperation schema operation)
  let bindings := variableBindings schema operation
  let entries ← operation.variableDefinitions.mapM (variableEntry schema scalars operation bindings)
  return .object ((entries.filterMap id).foldl Entry.set []) none

end OperationLibrary
