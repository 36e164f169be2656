import OperationLibrary.Document.Closure
import OperationLibrary.Json.Value
import OperationLibrary.Keyed
import OperationLibrary.Syntax.Printer
import OperationLibrary.Text.LetterCase

/-!
What is known of one executable definition: its names, the values its variables get, the fragments
it depends on and its text.
-/

namespace OperationLibrary

open Syntax

inductive DefinitionKind where
  | operation (kind : OperationKind)
  | fragment
  deriving DecidableEq

def DefinitionKind.word : DefinitionKind → String
  | .operation kind => kind.keyword
  | .fragment => "fragment"

namespace Syntax.Executable

def kind : Executable → DefinitionKind
  | .operation o => .operation o.kind
  | .fragment _ => .fragment

/-- The name, or the kind where there is none. -/
def nameOrKind (definition : Executable) : String :=
  definition.name?.getD definition.kind.word

/-- The name for people to read. -/
def displayName (definition : Executable) : String :=
  definition.name?.getD ("<Unnamed:" ++ definition.kind.word ++ ">")

end Syntax.Executable

/-- The name in the style of a constant: words begin at upper case letters and are joined by low
lines. -/
def constantName (name : String) : String :=
  match name.toList with
  | [] => ""
  | c :: rest =>
    let marked := rest.flatMap fun d => if Text.isUpperCase d then ['_', d] else [d]
    Text.toUpperCase (Text.toUpperCase (String.ofList [c]) ++ String.ofList marked)

/-- The given values of the variables that a definition declares, in the order of declaration. -/
def usedVariables (values : List (String × Json)) (definition : Executable) :
    List (String × Json) :=
  definition.variableDefinitions.foldl (fun used v =>
    match values.lookup v.name with
    | some value => Keyed.set v.name value used
    | none => used) []

structure OperationRecord where
  name : String
  displayName : String
  kind : DefinitionKind
  variableName : String
  variableValues : List (String × Json)
  definition : Executable
  dependencies : List Fragment
  query : String

namespace OperationRecord

def isFragment (record : OperationRecord) : Bool :=
  record.kind == .fragment

def isNamed (record : OperationRecord) : Bool :=
  record.definition.name?.isSome

/-- The record of a definition in a document whose fragments are `table`. -/
def ofDefinition (table : FragmentTable) (values : List (String × Json))
    (definition : Executable) : OperationRecord where
  name := definition.nameOrKind
  displayName := definition.displayName
  kind := definition.kind
  variableName := constantName definition.nameOrKind
  variableValues := usedVariables values definition
  definition := definition
  dependencies := fragmentDependencies table definition
  query := definition.print

end OperationRecord

end OperationLibrary
