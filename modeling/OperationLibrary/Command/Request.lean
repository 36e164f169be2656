import OperationLibrary.Command.Help
import OperationLibrary.Document.Annotated
import OperationLibrary.Library.HandlerOperation

/-!
What a command line asks for.
-/

namespace OperationLibrary.Command

/-! ### Requests -/

structure GenerateRequest where
  schema : String
  operations : String
  settings : Option String
  output : String
  schemaId : Option String
  isVerbose : Bool
  deriving DecidableEq

structure HandlerRequest where
  schema : String
  operations : String
  settings : Option String
  operationId : String
  framework : Option String
  options : HandlerOptions
  output : Option String
  isVerbose : Bool

structure OrderRequest where
  operations : String
  isVerbose : Bool
  deriving DecidableEq

structure NormalizeRequest where
  operations : String
  isWritten : Bool
  deriving DecidableEq

inductive Request where
  | version
  | help (subcommand : Option Subcommand)
  | generate (request : GenerateRequest)
  | handler (request : HandlerRequest)
  | order (request : OrderRequest)
  | normalize (request : NormalizeRequest)

namespace Subcommand

/-- The request with these values of its options. -/
def request (values : OptionValues) : Subcommand → Request
  | .generate => .generate
    { schema := (values.lookup "--schema").getD ""
      operations := (values.lookup "--operations").getD ""
      settings := values.lookup "--config"
      output := (values.lookup "--output").getD ""
      schemaId := values.lookup "--schema-id"
      isVerbose := (values.lookup "--verbose").isSome }
  | .handler => .handler
    { schema := (values.lookup "--schema").getD ""
      operations := (values.lookup "--operations").getD ""
      settings := values.lookup "--config"
      operationId := (values.lookup "--operation-id").getD ""
      framework := values.lookup "--framework"
      options := ⟨(values.lookup "--post").isSome, (values.lookup "--client-auth").isSome⟩
      output := values.lookup "--output"
      isVerbose := (values.lookup "--verbose").isSome }
  | .order => .order
    { operations := (values.lookup "--operations").getD ""
      isVerbose := (values.lookup "--verbose").isSome }
  | .normalize => .normalize
    { operations := (values.lookup "--operations").getD ""
      isWritten := (values.lookup "--write").isSome }

end Subcommand

/-! ### Reading requests -/

/-- A fault in a command line, and the subcommand it lies in. -/
structure UsageFault where
  subcommand : Option Subcommand
  fault : ArgumentFault

/-- Where help for a command is to be had. -/
def helpHint (subcommand : Option Subcommand) : String :=
  "Try 'main " ++ (subcommand.elim "" fun s => s.word ++ " ") ++ "--help' for help."

/-- All lines that a fault is reported with. -/
def UsageFault.report (fault : UsageFault) : String :=
  (if fault.fault.remindsOfUsage then
    usage fault.subcommand ++ "\n" ++ helpHint fault.subcommand ++ "\n\n"
  else "") ++ "Error: " ++ fault.fault.message ++ "\n"

/-- The request that the arguments behind a subcommand make. -/
def Subcommand.readRequest (subcommand : Subcommand) (workspace : Workspace)
    (arguments : List String) : Except ArgumentFault Request := do
  let reading ← readArguments subcommand.rules true arguments
  if reading.given.any fun given => given.1 = helpRule then return .help (some subcommand)
  let values ← checkReading workspace subcommand.rules reading
  return subcommand.request values

/-- The request that a command line makes. -/
def Request.ofArguments (workspace : Workspace) (arguments : List String) :
    Except UsageFault Request :=
  match readArguments mainRules false arguments with
  | .error fault => .error ⟨none, fault⟩
  | .ok reading =>
    match reading.given, reading.loose with
    | (rule, _) :: _, _ => .ok (if rule = Subcommand.helpRule then .help none else .version)
    | [], [] => .error ⟨none, .missingCommand⟩
    | [], word :: rest =>
      match Subcommand.ofWord? word with
      | none =>
        if isOption word then
          .error ⟨none, .unknownOption word (Text.similarWords ["--version", "--help"] word)⟩
        else
          .error ⟨none, .unknownCommand word
            (Text.similarWords (Subcommand.all.map Subcommand.word) word)⟩
      | some subcommand => (subcommand.readRequest workspace rest).mapError (⟨some subcommand, ·⟩)

end OperationLibrary.Command
