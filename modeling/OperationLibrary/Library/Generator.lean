import OperationLibrary.Disk.Path
import OperationLibrary.Document.Graph
import OperationLibrary.Library.Declarations
import OperationLibrary.Library.Handler.ApiRoute
import OperationLibrary.Library.Handler.FormRoute
import OperationLibrary.Library.Handler.Function
import OperationLibrary.Schema.Basic

/-!
Making libraries and handlers from a document of operations. A library is the runtime and its
declarations; a handler is a file that calls one annotated operation.
-/

namespace OperationLibrary

open Syntax

/-- Everything that libraries and handlers depend on besides the document. -/
structure Generator where
  schema : Schema
  settings : Settings
  scalars : ScalarTable
  hooks : Hooks
  overrides : Overrides
  ids : IdSupply

namespace Generator

variable (generator : Generator)

/-- A built-in file, or the one that stands in for it. -/
def file (template : String) (name : List String) (language : HandlerLanguage)
    (lines : List String) : OutputFile :=
  finishFile generator.hooks generator.overrides template name language (linesText lines)

/-- Selections on the schema, with these fragments. -/
def context (fragments : FragmentTable) : SelectionContext :=
  ⟨generator.schema, fragments, generator.scalars⟩

end Generator

/-! ### Libraries -/

structure Library where
  runtime : OutputFile
  declarations : OutputFile
  functions : List LibraryFunction
  types : List LibraryType

def Library.files (library : Library) : List OutputFile :=
  [library.runtime, library.declarations]

/-- Why there is no library of a document. -/
inductive LibraryFault where
  /-- A shape is missing that a signature is made of. -/
  | shape (fault : ShapeFault)
  /-- The runtime has no file name to go by. -/
  | noRuntimeName
  deriving DecidableEq

/-- The text in front of the last dot, or all of it. -/
def fileStem (segment : String) : String :=
  let reversed := segment.toList.reverse
  match reversed.dropWhile (· != '.') with
  | [] => segment
  | _ :: stem => String.ofList stem.reverse

/-- The name of the declarations that go with a runtime. -/
def declarationsName (runtime : List String) : Except LibraryFault (List String) :=
  match runtime.getLast? with
  | none => .error .noRuntimeName
  | some last => .ok (runtime.dropLast ++ [fileStem last ++ ".d.ts"])

namespace Generator

variable (generator : Generator)

/-- The functions and types of a document, after the hooks. -/
def members (document : Document) : Settled (List LibraryFunction × List LibraryType) := do
  let found ← extractAnnotations .generation generator.ids document
  let (functions, types) ← libraryMembers (generator.context document.lastFragments) found
  let kept ← generator.hooks.select (·.kind.keyword) LibraryFunction.operationName functions
  return (kept, types)

/-- The library of these functions and types. -/
def libraryOf (functions : List LibraryFunction) (types : List LibraryType) :
    Logged (Except LibraryFault Library) := do
  let settings := generator.settings
  match declarationsName settings.runtimeFilename with
  | .error fault => return .error fault
  | .ok name => do
    let runtime := generator.file "runtime.js.j2" settings.runtimeFilename .javaScript
      (LibraryRuntime.lines settings functions)
    let declarations := generator.file "index.d.ts.j2" name .typeScript
      (LibraryDeclarations.lines functions types)
    Logged.debug .generation ("Generated " ++ toString functions.length ++ " functions and " ++
      toString types.length ++ " fragments")
    return .ok ⟨runtime, declarations, functions, types⟩

/-- The library of a document. -/
def library (document : Document) : Logged (Except LibraryFault Library) := do
  match ← (generator.members document).run with
  | .error fault => return .error (.shape fault)
  | .ok (functions, types) => generator.libraryOf functions types

end Generator

/-! ### Handlers -/

structure Handler where
  files : List OutputFile
  source : Executable
  suggestedFilename : String

/-- No annotated definition has the id that was asked for. -/
structure UnknownId where
  id : String
  known : List String
  deriving DecidableEq

def UnknownId.message (error : UnknownId) : String :=
  "Operation " ++ error.id ++ " not found, found: " ++ ", ".intercalate error.known

/-- The definition with an id and its text; operations come before fragments. -/
def Annotations.find? (found : Annotations) (id : String) : Option (Executable × String) :=
  ((Keyed.get? id found.functions).map fun f => (.operation f.operation, f.text)).or
    ((Keyed.get? id found.fragments).map fun f => (.fragment f.fragment, f.text))

namespace Generator

variable (generator : Generator)

/-- The language of handlers; those without a framework have one of their own. -/
def handlerLanguage : HandlerLanguage :=
  if generator.settings.framework = .custom then .javaScript else generator.settings.language

/-- The name of the file of a route with a form. -/
def routeName (folder : List String) (operation : HandlerOperation) : List String :=
  let extension := if generator.settings.language = .typeScript then "tsx" else "js"
  ["app", "routes"] ++ folder ++ [operation.record.displayName ++ "." ++ extension]

/-- The handler for the events of a subscription. -/
def webhookFile (operation : HandlerOperation) : OutputFile :=
  let settings := generator.settings
  let name := operation.name
  match settings.framework with
  | .nextJs => generator.file "handlers/nextjs_webhook.ts.j2" [] generator.handlerLanguage
      (ApiRoute.webhookLines settings name)
  | .remix => generator.file "handlers/remix_webhook.tsx.j2"
      (generator.routeName ["webhooks"] operation) generator.handlerLanguage
      (FormRoute.webhookLines settings name)
  | .custom | .other _ => generator.file "handlers/netlify_webhook.js.j2" []
      generator.handlerLanguage (FunctionHandler.webhookLines settings name)

/-- The handler for requests that call the operations. -/
def requestFile (options : HandlerOptions) (filename : String) (first : HandlerOperation)
    (operations : List HandlerOperation) : OutputFile :=
  let settings := generator.settings
  match settings.framework with
  | .nextJs => generator.file "handlers/nextjs.ts.j2" [] generator.handlerLanguage
      (ApiRoute.lines settings options operations)
  | .remix => generator.file "handlers/remix.tsx.j2" (generator.routeName [] first)
      generator.handlerLanguage (FormRoute.lines settings first)
  | .custom | .other _ => generator.file "handlers/netlify_function.js.j2" []
      generator.handlerLanguage (FunctionHandler.lines settings options filename operations)

/-- The handler of a definition, given its records. -/
def handlerOf (options : HandlerOptions) (source : Executable) (records : List OperationRecord) :
    Handler :=
  let operations := (records.filter fun r => !r.isFragment).map (handlerOperation options)
  match operations with
  | [] => ⟨[⟨"// No operation found", .javaScript, []⟩], source, ""⟩
  | first :: _ =>
    let filename := first.name ++ "." ++ generator.settings.extension
    let file :=
      if first.record.kind = .operation .subscription then generator.webhookFile first
      else generator.requestFile options filename first operations
    ⟨[file], source, filename⟩

/-- The handler for the annotated definition with an id. -/
def handler (document : Document) (id : String) (options : HandlerOptions) :
    Logged (Except UnknownId Handler) := do
  let found ← extractAnnotations .generation generator.ids document
  match found.find? id with
  | none => return .error ⟨id, found.functions.map Prod.fst⟩
  | some (source, text) => do
    let definitions ← readDefinitions .generation text
    let graph ← resolveGraph .generation false [] definitions
    let records := (graph.toOption.map OperationGraph.ordered).getD []
    return .ok (generator.handlerOf options source (nameRecords records))

end Generator

/-! ### Writing -/

/-- The paths and contents of the files to be written below a directory; snippets are left out. -/
def filesToWrite (directory : String) (files : List OutputFile) :
    Logged (List (String × String)) := do
  let written ← files.mapM fun file => do
    if file.isNamed then return some (Path.join directory file.path, file.contents)
    else do
      Logged.warn .generation ("Skipping unnamed " ++ file.language.word ++ " file")
      return none
  return written.reduceOption

end OperationLibrary
