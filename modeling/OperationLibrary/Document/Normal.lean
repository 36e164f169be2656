import OperationLibrary.Document.Persistable
import OperationLibrary.Syntax.TypeSystemParser

/-!
The canonical form of a document. Definitions stand in the order of their names, fragments before
operations, and every string of several lines is written as a block.
-/

namespace OperationLibrary

open Syntax

/-! ### Strings of several lines -/

def isMultiline (text : String) : Bool :=
  text.toList.contains '\n'

mutual

/-- The value with its strings of several lines as blocks. -/
def Syntax.Value.blockStrings : Value → Value
  | .string text block => .string text (block || isMultiline text)
  | .list items => .list (blockStringsItems items)
  | .object fields => .object (blockStringsFields fields)
  | other => other

def blockStringsItems : List Value → List Value
  | [] => []
  | item :: rest => item.blockStrings :: blockStringsItems rest

def blockStringsFields : List (String × Value) → List (String × Value)
  | [] => []
  | (name, value) :: rest => (name, value.blockStrings) :: blockStringsFields rest

end

def Syntax.Description.blockString (description : Description) : Description :=
  { description with block := description.block || isMultiline description.text }

def Syntax.Argument.blockStrings (argument : Argument) : Argument :=
  { argument with value := argument.value.blockStrings }

def Syntax.Directive.blockStrings (directive : Directive) : Directive :=
  { directive with arguments := directive.arguments.map Argument.blockStrings }

def Syntax.FieldHead.blockStrings (head : FieldHead) : FieldHead :=
  { head with
    arguments := head.arguments.map Argument.blockStrings
    directives := head.directives.map Directive.blockStrings }

mutual

def Syntax.Selection.blockStrings : Selection → Selection
  | .field head none => .field head.blockStrings none
  | .field head (some selections) =>
    .field head.blockStrings (some (blockStringsSelections selections))
  | .spread fragment directives => .spread fragment (directives.map Directive.blockStrings)
  | .inline condition directives selections =>
    .inline condition (directives.map Directive.blockStrings) (blockStringsSelections selections)

def blockStringsSelections : List Selection → List Selection
  | [] => []
  | selection :: rest => selection.blockStrings :: blockStringsSelections rest

end

def Syntax.VariableDefinition.blockStrings (definition : VariableDefinition) :
    VariableDefinition :=
  { definition with
    description := definition.description.map Description.blockString
    default := definition.default.map Value.blockStrings
    directives := definition.directives.map Directive.blockStrings }

def Syntax.Operation.blockStrings (operation : Operation) : Operation :=
  { operation with
    description := operation.description.map Description.blockString
    variableDefinitions := operation.variableDefinitions.map VariableDefinition.blockStrings
    directives := operation.directives.map Directive.blockStrings
    selections := blockStringsSelections operation.selections }

def Syntax.Fragment.blockStrings (fragment : Fragment) : Fragment :=
  { fragment with
    description := fragment.description.map Description.blockString
    directives := fragment.directives.map Directive.blockStrings
    selections := blockStringsSelections fragment.selections }

def Syntax.Executable.blockStrings : Executable → Executable
  | .operation o => .operation o.blockStrings
  | .fragment f => .fragment f.blockStrings

/-! ### Order and text -/

/-- The name that a definition is ordered by. -/
def sortName (definition : Executable) : String :=
  definition.name?.getD "__unknownDefinition"

def isFragment : Executable → Bool
  | .fragment _ => true
  | .operation _ => false

/-- The definitions in canonical order, with their strings in canonical form. -/
def normalDefinitions (definitions : List Executable) : List Executable :=
  let ordered := sortByName sortName definitions
  (ordered.filter isFragment ++ ordered.filter fun d => !isFragment d).map Executable.blockStrings

def normalText (definitions : List Executable) : String :=
  "\n\n".intercalate ((normalDefinitions definitions).map Executable.print) ++ "\n"

/-- The canonical text of a document; definitions of a type system are left out. -/
def normalize (source : String) : Except SyntaxError String := do
  return normalText (← Document.parse source).executables

end OperationLibrary
