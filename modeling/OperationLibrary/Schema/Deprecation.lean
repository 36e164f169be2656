import OperationLibrary.Schema.Flaw
import OperationLibrary.Schema.Validity
import OperationLibrary.Syntax.Printer

/-!
The texts that standard directives give to parts of a schema: why a part is deprecated, and what
specifies a scalar. A schema is flawed where such a text is not one. Scalars and directives are
looked at before the fields of any type are. The values of enums are not looked at for the schema,
only for those who ask for them.
-/

namespace OperationLibrary.Syntax

/-! ### The argument of a directive -/

/-- A directive with one argument, which is a text. -/
structure TextDirective where
  name : String
  argument : String
  isRequired : Bool

def deprecation : TextDirective := ⟨"deprecated", "reason", false⟩

def specification : TextDirective := ⟨"specifiedBy", "url", true⟩

namespace TextDirective

variable (rule : TextDirective)

/-- What is wrong with a value that is given for the argument, if anything. -/
def valueFault? (offset : Nat) : Value → Option ArgumentFault
  | .string .. => none
  | .null => some ⟨rule.argument, .null, some offset⟩
  | .list items => some ⟨rule.argument, .notText (Value.list items).print, none⟩
  | .object fields => some ⟨rule.argument, .notText (Value.object fields).print, none⟩
  | value => some ⟨rule.argument, .notText value.print, some offset⟩

/-- What is wrong with the argument where directives give it, if anything. Of directives with one
name the first counts. -/
def fault? (directives : List PlacedDirective) : Option ArgumentFault :=
  (directives.find? (·.name == rule.name)).bind fun directive =>
    match (directive.arguments.zip directive.valueOffsets).find? (·.1.name == rule.argument) with
    | some (argument, offset) => rule.valueFault? offset argument.value
    | none =>
      if rule.isRequired then some ⟨rule.argument, .missing, some directive.offset⟩ else none

end TextDirective

/-! ### Parts of a document -/

def inputValueFault? (definitions : List InputValueDefinition) : Option ArgumentFault :=
  definitions.findSome? fun d => deprecation.fault? d.directives

def fieldFault? (definitions : List FieldDefinition) : Option ArgumentFault :=
  definitions.findSome? fun d =>
    (inputValueFault? d.arguments).or (deprecation.fault? d.directives)

namespace Document

variable (document : Document)

/-- The definitions of types that do not have a reserved name. -/
def ownTypes : List TypeDefinition :=
  document.typeDefinitions.filter fun d => (reservedType? d.name).isNone

/-- The definition of a type and its extensions. -/
def partsOf (definition : TypeDefinition) : List TypeDefinition :=
  definition :: document.typeExtensions.filter (·.name == definition.name)

/-- What the definition of a type and its extensions say, one after the other. -/
def bodiesOf (definition : TypeDefinition) : List TypeBody :=
  (document.partsOf definition).map TypeDefinition.body

/-- What is wrong with a scalar, at its definition or in an extension. -/
def scalarFault? (definition : TypeDefinition) : Option ArgumentFault :=
  match definition.body with
  | .scalar => (document.partsOf definition).findSome? fun part =>
      specification.fault? part.directives
  | _ => none

/-- What is wrong with a directive, at its definition or in an extension. -/
def directiveFault? (definition : DirectiveDefinition) : Option ArgumentFault :=
  let extensions := document.directiveExtensions.filter (·.name == definition.name)
  (inputValueFault? definition.arguments).or
    ((definition.directives :: extensions.map DirectiveExtension.directives).findSome?
      deprecation.fault?)

/-- What is wrong with the values of an enum. -/
def enumValueFault? (definition : TypeDefinition) : Option ArgumentFault :=
  ((document.bodiesOf definition).flatMap TypeBody.values).findSome? fun value =>
    deprecation.fault? value.directives

/-- What is wrong with the fields of a type. -/
def typeFieldsFault? (definition : TypeDefinition) : Option ArgumentFault :=
  let bodies := document.bodiesOf definition
  (fieldFault? (bodies.flatMap TypeBody.fields)).or
    (inputValueFault? (bodies.flatMap TypeBody.inputFields))

/-- The first flaw of the definitions in `source`. -/
def flaw? (source : String) : Option SchemaFlaw :=
  let scalar := document.ownTypes.findSome? document.scalarFault?
  let directive := document.directiveDefinitions.findSome? document.directiveFault?
  ((scalar.or directive).map (.argument source)).or
    (document.ownTypes.findSome? fun type =>
      (document.typeFieldsFault? type).map fun fault => .fields type.name (.argument source fault))

/-- The flaw in the values of an enum in `source`. -/
def valuesFlaw? (source : String) (definition : TypeDefinition) : Option SchemaFlaw :=
  (document.enumValueFault? definition).map fun fault =>
    .values definition.name (.argument source fault)

end Document

end OperationLibrary.Syntax
