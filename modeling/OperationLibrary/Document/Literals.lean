import OperationLibrary.Notice
import OperationLibrary.Syntax.TypeSystemParser

/-!
The literal values written into a document: strings and numbers that an argument or a field of an
input object is set to, with the name they are set to, in the order of the text.
-/

namespace OperationLibrary

open Syntax

/-- The text of a string or a number that is not empty. -/
def literalText? : Value → Option String
  | .string text _ | .int text | .float text => if text.isEmpty then none else some text
  | _ => none

/-- A name with the literal it is set to, if it is set to one. -/
def literalOf (name : String) (value : Value) : List (String × String) :=
  (literalText? value).toList.map fun text => (name, text)

mutual

/-- The literals of the input objects inside a value. -/
def valueLiterals : Value → List (String × String)
  | .list items => itemLiterals items
  | .object fields => fieldLiterals fields
  | _ => []

def itemLiterals : List Value → List (String × String)
  | [] => []
  | item :: rest => valueLiterals item ++ itemLiterals rest

def fieldLiterals : List (String × Value) → List (String × String)
  | [] => []
  | (name, value) :: rest => literalOf name value ++ valueLiterals value ++ fieldLiterals rest

end

def argumentLiterals (arguments : List Argument) : List (String × String) :=
  arguments.flatMap fun argument =>
    literalOf argument.name argument.value ++ valueLiterals argument.value

def directiveLiterals (directives : List Directive) : List (String × String) :=
  directives.flatMap fun directive => argumentLiterals directive.arguments

def placedLiterals (directives : List PlacedDirective) : List (String × String) :=
  directiveLiterals (withoutPlaces directives)

def defaultLiterals (default : Option Value) : List (String × String) :=
  (default.map valueLiterals).getD []

mutual

def selectionLiterals : Selection → List (String × String)
  | .field head none => argumentLiterals head.arguments ++ directiveLiterals head.directives
  | .field head (some selections) =>
    argumentLiterals head.arguments ++ directiveLiterals head.directives ++
      selectionsLiterals selections
  | .spread _ directives => directiveLiterals directives
  | .inline _ directives selections =>
    directiveLiterals directives ++ selectionsLiterals selections

def selectionsLiterals : List Selection → List (String × String)
  | [] => []
  | selection :: rest => selectionLiterals selection ++ selectionsLiterals rest

end

def executableLiterals : Executable → List (String × String)
  | .operation o =>
    (o.variableDefinitions.flatMap fun v =>
      defaultLiterals v.default ++ directiveLiterals v.directives) ++
      directiveLiterals o.directives ++ selectionsLiterals o.selections
  | .fragment f => directiveLiterals f.directives ++ selectionsLiterals f.selections

def inputValueLiterals (inputs : List InputValueDefinition) : List (String × String) :=
  inputs.flatMap fun input => defaultLiterals input.default ++ placedLiterals input.directives

def fieldDefinitionLiterals (fields : List FieldDefinition) : List (String × String) :=
  fields.flatMap fun field =>
    inputValueLiterals field.arguments ++ placedLiterals field.directives

def typeBodyLiterals : TypeBody → List (String × String)
  | .scalar | .union _ => []
  | .object _ fields | .interface _ fields => fieldDefinitionLiterals fields
  | .enum values => values.flatMap fun value => placedLiterals value.directives
  | .input fields => inputValueLiterals fields

def typeSystemLiterals : TypeSystem → List (String × String)
  | .schema d | .extendSchema d => placedLiterals d.directives
  | .type d | .extendType d => placedLiterals d.directives ++ typeBodyLiterals d.body
  | .directive d => inputValueLiterals d.arguments ++ placedLiterals d.directives
  | .extendDirective d => placedLiterals d.directives

def definitionLiterals : Definition → List (String × String)
  | .executable d => executableLiterals d
  | .typeSystem d => typeSystemLiterals d

/-- The literals of a text, none where it cannot be read. -/
def gatherLiterals (source : String) : Logged (List (String × String)) :=
  match Document.parse source with
  | .ok document => pure (document.flatMap definitionLiterals)
  | .error error => do
    Logged.warn .documents ("Error parsing query: " ++ error.message)
    return []

end OperationLibrary
