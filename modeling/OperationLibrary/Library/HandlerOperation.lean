import OperationLibrary.Document.Annotated
import OperationLibrary.Document.Record
import OperationLibrary.Json.Value
import OperationLibrary.Library.SourceText
import OperationLibrary.Text.Blank

/-!
What handlers are written from: the operations they call with their variables, how the variables
come out of a request, and how a client calls the handler. Operations without a name of their own
are given one first.
-/

namespace OperationLibrary

open Syntax

/-! ### Options -/

structure HandlerOptions where
  /-- Variables come in the body of a request and not in its address. -/
  postsVariables : Bool
  /-- Clients pass the headers that authenticate their users on. -/
  usesClientAuth : Bool
  deriving DecidableEq

namespace HandlerOptions

def standard : HandlerOptions := ⟨false, false⟩

/-- The options in the members of an object; the spelling with low lines comes first. -/
def ofMembers (members : List (String × Json)) : HandlerOptions :=
  let read := fun long camel =>
    ((members.lookup long).or (members.lookup camel)).any Json.isTruthy
  ⟨read "post_http_method" "postHttpMethod", read "use_client_auth" "useClientAuth"⟩

/-- The parameters of a client's function. -/
def clientParameters (options : HandlerOptions) : String :=
  if options.usesClientAuth then "netlifyGraphAuth, params" else "params"

end HandlerOptions

/-! ### Names for operations without one -/

/-- The words for kinds of operations, which do not count as names. -/
def isKindWord (name : String) : Bool :=
  (OperationKind.ofKeyword? name).isSome

/-- The text without the word for the kind of an operation at its start. -/
def dropKindWord (text : String) : String :=
  let body := Text.trimBlank text
  match ["query ", "mutation ", "subscription "].find? fun word =>
      (word.toList.isPrefixOf (body.toList.map Char.toLower)) with
  | some word => String.ofList (body.toList.drop word.length)
  | none => body

/-- The record with a name made from its kind and its place, counted from one, if its own name is
only the word for a kind. -/
def OperationRecord.named (record : OperationRecord) (place : Nat) : OperationRecord :=
  if isKindWord (Text.trimBlank record.name) then
    let kind := record.kind.word
    let name := "unnamed" ++ Text.capitalizeFirst kind ++ toString place
    { record with
      name := name
      displayName := name
      query := "# Consider giving this " ++ kind ++ " a unique, descriptive\n" ++
        "# name in your application as a best practice\n" ++
        kind ++ " " ++ name ++ " " ++ dropKindWord record.query }
  else record

/-- The records with names for those without. -/
def nameRecords (records : List OperationRecord) : List OperationRecord :=
  records.zipIdx.map fun (record, n) => record.named (n + 1)

/-! ### Operations in handlers -/

structure HandlerVariable where
  name : String
  /-- The name that the variable has in the code. -/
  variableName : String
  isRequired : Bool
  type : String
  deriving DecidableEq

namespace HandlerVariable

def ofDefinition (definition : VariableDefinition) : HandlerVariable where
  name := definition.name
  variableName := SourceText.variableName definition.name
  isRequired := definition.type.isNonNull
  type := definition.type.print

/-- The value in an object of texts. -/
def fromMember (v : HandlerVariable) (object : String) : String :=
  SourceText.parsedParameter v.type (object ++ "?." ++ v.name)

/-- The value out of what a call gives for the name. -/
def fromCall (v : HandlerVariable) (function : String) : String :=
  SourceText.parsedParameter v.type (function ++ "('" ++ v.name ++ "')")

end HandlerVariable

structure HandlerOperation where
  record : OperationRecord
  functionName : String
  parameters : List HandlerVariable
  method : String

namespace HandlerOperation

variable (operation : HandlerOperation)

def name : String :=
  operation.record.name

/-- The variables that have to be given. -/
def required : List HandlerVariable :=
  operation.parameters.filter HandlerVariable.isRequired

/-- The condition that a required variable is missing, empty if there is none. -/
def missingCondition : String :=
  " || ".intercalate (operation.required.map fun v =>
    v.variableName ++ " === undefined || " ++ v.variableName ++ " === null")

/-- The names of the required variables for people to read. -/
def requiredNames : String :=
  ", ".intercalate (operation.required.map fun v => "\x60" ++ v.name ++ "\x60")

/-- The variables as members of the object that the function is called with. -/
def callMembers : String :=
  ", ".intercalate (operation.parameters.map fun v => v.name ++ ": " ++ v.variableName)

/-- The variables as parameters of an address inside a template literal. -/
def addressParameters : String :=
  "&".intercalate (operation.parameters.map fun v =>
    v.name ++ "=$\x7b" ++ v.name ++ "\x7d")

/-- The variables as members of a request body. -/
def bodyMembers : String :=
  ", ".intercalate (operation.parameters.map fun v => "\"" ++ v.name ++ "\": " ++ v.name)

/-- The names of all variables. -/
def variableNames : String :=
  ", ".intercalate (operation.parameters.map HandlerVariable.name)

def isPost : Bool :=
  operation.method == "POST"

/-- The parameters in the address of a client's call. -/
def addressEnd : String :=
  if operation.isPost || operation.addressParameters.isEmpty then ""
  else "?" ++ operation.addressParameters

end HandlerOperation

/-- The operation of a record. -/
def handlerOperation (options : HandlerOptions) (record : OperationRecord) : HandlerOperation where
  record := record
  functionName := calledName record.kind.word record.name
  parameters := record.definition.variableDefinitions.map HandlerVariable.ofDefinition
  method := if options.postsVariables then "POST" else "GET"

end OperationLibrary
