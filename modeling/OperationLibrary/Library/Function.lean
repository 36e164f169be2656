import OperationLibrary.Document.Annotated
import OperationLibrary.Library.SourceText
import OperationLibrary.Shape.Printer
import OperationLibrary.Shape.Selected
import OperationLibrary.Shape.Variables

/-!
Functions and types of a library. Every annotated operation with a name becomes a function with
the signatures of its answer and its variables; every annotated fragment becomes a type.
-/

namespace OperationLibrary

open Syntax

structure LibraryFunction where
  source : AnnotatedOperation
  /-- The name under which the operation is called. -/
  name : String
  /-- The text of the operation as the body of a template literal. -/
  body : String
  answerSignature : String
  variablesSignature : String
  variableNames : List String

structure LibraryType where
  source : AnnotatedFragment
  body : String
  signature : String

namespace LibraryFunction

def id (function : LibraryFunction) : String :=
  function.source.tag.id

def kind (function : LibraryFunction) : OperationKind :=
  function.source.operation.kind

def operationName (function : LibraryFunction) : String :=
  function.source.name

def isSubscription (function : LibraryFunction) : Bool :=
  function.kind == .subscription

/-- Whether the function takes any variables. -/
def hasVariables (function : LibraryFunction) : Bool :=
  function.variablesSignature != "\x7b\x7d"

end LibraryFunction

/-- The signature of the variables of an operation. -/
def variablesSignature : Shape → Except ShapeFault String
  | .object [] _ => .ok "\x7b\x7d"
  | shape => shape.signature

/-- The function of an annotated operation, none and an error for one without a name. -/
def libraryFunction? (context : SelectionContext) (source : AnnotatedOperation) :
    Settled (Option LibraryFunction) := do
  let operation := source.operation
  match functionName operation.kind.keyword operation.name with
  | .error missing => do
    Logged.note .error .generation
      ("Skipping function " ++ source.tag.id ++ ": " ++ missing.message)
    return none
  | .ok name => do
    let inputs ← (variablesShape context.schema context.scalars operation).settle
    let answer ← (responseShape context (.operation operation)).settle
    let answerSignature ← answer.signature
    return some
      { source := source
        name := name
        body := SourceText.templateLiteralText source.persistableText
        answerSignature := answerSignature
        variablesSignature := ← variablesSignature inputs
        variableNames := operation.variableDefinitions.map VariableDefinition.name }

/-- The type of an annotated fragment. -/
def libraryType (context : SelectionContext) (source : AnnotatedFragment) :
    Settled LibraryType := do
  let data ← (dataShape context (.fragment source.fragment)).settle
  let signature ← data.signature
  return ⟨source, SourceText.templateLiteralText source.textWithoutTooling, signature⟩

/-- Entries in the order of their ids. -/
def sortById {α : Type} (idOf : α → String) (entries : List α) : List α :=
  entries.mergeSort fun left right => idOf left ≤ idOf right

/-- The functions and types of annotated definitions, each in the order of their ids. -/
def libraryMembers (context : SelectionContext) (found : Annotations) :
    Settled (List LibraryFunction × List LibraryType) := do
  let types ← (sortById (·.tag.id) (found.fragments.map Prod.snd)).mapM (libraryType context)
  let functions ← (sortById (·.tag.id) (found.functions.map Prod.snd)).mapM
    (libraryFunction? context)
  return (functions.reduceOption, types)

/-- The annotated fragments as a table; the last of a name counts. -/
def Annotations.fragmentTable (found : Annotations) : FragmentTable :=
  (found.fragments.map fun entry => entry.2.fragment).reverse

end OperationLibrary
