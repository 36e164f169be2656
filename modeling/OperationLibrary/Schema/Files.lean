import OperationLibrary.Disk.FileTree
import OperationLibrary.Json.Parser
import OperationLibrary.Notice
import OperationLibrary.Schema.Definitions
import OperationLibrary.Schema.Introspection

/-!
Schemas in files. A schema is one file of definitions, all files of definitions below a directory
together, or one file with the answer to an introspection query.
-/

namespace OperationLibrary

/-- Why there is no schema to be had from a path. -/
inductive LoadFault where
  | nothingFound (path : String)
  | notText
  | notJson
  | tooManyDigits
  | introspection (fault : IntrospectionFault)
  | definitions (fault : SchemaFault)
  deriving DecidableEq

def LoadFault.nothingFoundMessage (path : String) : String :=
  "No GraphQL schema found at " ++ path

def isDefinitionsFile (name : String) : Bool :=
  name.endsWith ".graphql" || name.endsWith ".graphqls"

/-- The files that make up the schema at a path, in the order of their paths. -/
def schemaFiles (workspace : Workspace) (path : String) : List String :=
  match workspace.kind? path with
  | some .file => [path]
  | some .directory =>
    let files := workspace.tree.below (workspace.place path)
    let names := files.map fun file => "/".intercalate file.1
    ((names.filter isDefinitionsFile).map (Path.join path)).mergeSort fun a b => a ≤ b
  | none => []

/-- The texts of files of definitions. -/
def readDefinitionFiles (workspace : Workspace) :
    List String → Logged (Except LoadFault (List String))
  | [] => pure (.ok [])
  | path :: rest => do
    Logged.debug .schema ("Reading schema file " ++ path)
    match workspace.readText? path with
    | none => return .error .notText
    | some text => return (← readDefinitionFiles workspace rest).map (text :: ·)

def schemaOfDefinitions (texts : List String) : Except LoadFault Schema :=
  (Schema.parse ("\n\n".intercalate texts)).mapError .definitions

def schemaOfIntrospection (text : String) : Except LoadFault Schema :=
  match Json.parse text with
  | .error ⟨.tooManyDigits, _⟩ => .error .tooManyDigits
  | .error _ => .error .notJson
  | .ok answer => (Schema.ofIntrospection answer).mapError .introspection

/-- The schema at a path. -/
def loadSchema (workspace : Workspace) (path : String) : Logged (Except LoadFault Schema) :=
  match schemaFiles workspace path with
  | [] => pure (.error (.nothingFound path))
  | [file] =>
    if file.endsWith ".json" then
      match workspace.readText? file with
      | none => pure (.error .notText)
      | some text => pure (schemaOfIntrospection text)
    else do return (← readDefinitionFiles workspace [file]).bind schemaOfDefinitions
  | files => do return (← readDefinitionFiles workspace files).bind schemaOfDefinitions

end OperationLibrary
