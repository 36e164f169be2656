import OperationLibrary.Command.Request
import OperationLibrary.Disk.Archive
import OperationLibrary.Document.Graph
import OperationLibrary.Document.Normal
import OperationLibrary.Library.Generator
import OperationLibrary.Lockfile
import OperationLibrary.Schema.Files
import OperationLibrary.Sink

/-!
What the subcommands do. Each one first makes a plan: it reads, says what it has to say, and ends
with the files that are to be written. Nothing is written before the plan is complete, but for a
temporary directory that an archive is unpacked to and that is removed once it was read.
-/

namespace OperationLibrary.Command

open Syntax

/-! ### The system around a command -/

/-- What a command takes from the system that it runs on. -/
structure Host where
  ids : IdSupply
  /-- The path of a new directory, apart from all files that there are. -/
  temporary : String
  /-- Unpacks an archive to that directory. Which methods of compression are known is up to the
  system. -/
  unpack : ArchiveKind → ByteArray → Unpacked

/-- A system that unpacks archives as their formats say, where they are compressed by the common
method or not at all. -/
def Host.standard (ids : IdSupply) (temporary : String) : Host :=
  ⟨ids, temporary, ArchiveKind.unpack temporary⟩

/-! ### Saying things -/

/-- What was said on the two channels of a terminal. -/
structure Transcript where
  output : String
  errors : String
  deriving DecidableEq

/-- How far a command has come: what it said, and what stands in the temporary directory while
there is one. -/
structure Progress where
  said : Transcript
  temporary : Option FileTree

namespace Progress

def start : Progress :=
  ⟨⟨"", ""⟩, none⟩

def say (progress : Progress) (text : String) : Progress :=
  { progress with said.output := progress.said.output ++ text }

def complain (progress : Progress) (text : String) : Progress :=
  { progress with said.errors := progress.said.errors ++ text }

end Progress

/-- Why a command breaks down in the middle of its work. -/
inductive Breakdown where
  | notText
  | notAnArchive
  | unknownArchive
  | schemaNotJson
  | tooManyDigits
  | introspection (fault : IntrospectionFault)
  | invalidDefinitions
  | library (fault : LibraryFault)
  | writing (fault : WriteFault)

/-- How a command fails: it reports what is wrong, or it breaks down. -/
inductive Failure where
  | reported (message : String)
  | breakdown (cause : Breakdown)

/-- A part of a command, which may say things and may fail. What was said before a failure stays
said. -/
abbrev Spoken (α : Type) := ExceptT Failure (StateM Progress) α

def say (text : String) : Spoken Unit :=
  modify (·.say text)

def sayLine (line : String) : Spoken Unit :=
  say (line ++ "\n")

def complainLine (line : String) : Spoken Unit :=
  modify (·.complain (line ++ "\n"))

def report {α : Type} (message : String) : Spoken α :=
  throw (.reported message)

def breakDown {α : Type} (cause : Breakdown) : Spoken α :=
  throw (.breakdown cause)

def orReport {ε α : Type} (message : ε → String) : Except ε α → Spoken α
  | .ok a => pure a
  | .error fault => report (message fault)

/-! ### Notices -/

def severityWord : Severity → String
  | .debug => "DEBUG"
  | .warning => "WARNING"
  | .error => "ERROR"

/-- The name of the channel for notices on a topic. -/
def channel (topic : Topic) : String :=
  Sinks.libraryName ++ ".core." ++ match topic with
    | .documents => "documents"
    | .order => "operation_graph"
    | .annotations => "directives"
    | .types => "type_projector"
    | .selections => "field_projector"
    | .generation => "generator"
    | .hooks => "hooks"
    | .schema => "schema"
    | .lockfile => "lockfile"
    | .client => "executor"

def noticeLine (notice : Notice) : String :=
  severityWord notice.severity ++ " " ++ channel notice.topic ++ ": " ++ notice.text

/-- Passes the notices of a computation on; those of the lowest severity on request only. -/
def heard {α : Type} (isVerbose : Bool) (x : Logged α) : Spoken α := do
  let passed := x.notices.filter fun notice => isVerbose || notice.severity ≠ .debug
  passed.forM fun notice => complainLine (noticeLine notice)
  return x.value

/-! ### Reading -/

/-- The text of a file that is there. -/
def readText (workspace : Workspace) (path : String) : Spoken String :=
  match workspace.readText? path with
  | some text => pure text
  | none => breakDown .notText

/-- The settings in a file, or the standard ones where there is none. -/
def readSettings (workspace : Workspace) (path framework schemaId : Option String) :
    Spoken Settings := do
  match path.filter workspace.isFile with
  | none => return Settings.standard.override framework schemaId
  | some path =>
    let text ← readText workspace path
    match Settings.parse text with
    | .ok settings => return settings.override framework schemaId
    | .error .tooManyDigits => breakDown .tooManyDigits
    | .error fault => report (fault.message (Path.plain path) text)

/-- Whether a file is an archive by its name. -/
def isArchiveName (name : String) : Bool :=
  let name := name.map Char.toLower
  [".zip", ".tar.gz", ".tgz"].any fun ending => name.endsWith ending

/-- What a fault in an archive means for a command. -/
def archiveFailure : ArchiveFault → Failure
  | .broken => .breakdown .notAnArchive
  | .refused message => .reported message
  | .writing fault => .reported fault.message

def setTemporary (tree : Option FileTree) : Spoken Unit :=
  modify fun progress => { progress with temporary := tree }

/-- Does a part of a command and removes the temporary directory, whether the part answers or
fails. -/
def removingTemporary {α : Type} (part : Spoken α) : Spoken α := fun progress =>
  let (result, progress) := part.run progress
  (result, { progress with temporary := none })

/-- Unpacks an archive to a temporary directory. It is removed again if the name of the archive
tells no kind, but it stays as it is if the archive is at fault. -/
def extractArchive (host : Host) (name : String) (contents : ByteArray) : Spoken FileTree := do
  setTemporary (some ⟨[], []⟩)
  match ArchiveKind.ofName? name with
  | none => do
    setTemporary none
    breakDown .unknownArchive
  | some kind =>
    let unpacked := host.unpack kind contents
    setTemporary (some unpacked.tree)
    match unpacked.fault with
    | some fault => throw (archiveFailure fault)
    | none => return unpacked.tree

/-- What a fault in a schema means for a command. -/
def schemaFailure : LoadFault → Failure
  | .nothingFound path => .reported (LoadFault.nothingFoundMessage path)
  | .notText => .breakdown .notText
  | .notJson => .breakdown .schemaNotJson
  | .tooManyDigits => .breakdown .tooManyDigits
  | .introspection (.flawed flaw) | .definitions (.flawed flaw) => .reported flaw.report
  | .introspection fault => .breakdown (.introspection fault)
  | .definitions .invalid => .breakdown .invalidDefinitions

def loadSchemaAt (workspace : Workspace) (isVerbose : Bool) (path : String) : Spoken Schema := do
  match ← heard isVerbose (loadSchema workspace path) with
  | .ok schema => return schema
  | .error fault => throw (schemaFailure fault)

/-- The contents of the archive at a path, if there is one. -/
def archiveAt? (workspace : Workspace) (path : String) : Option (String × ByteArray) := do
  let name := (workspace.place path).getLastD ""
  let contents ← workspace.read? path
  if isArchiveName name then some (name, contents) else none

/-- The schema in a file, a directory or an archive. What an archive was unpacked to is removed
whether or not there is a schema in it. -/
def readSchema (workspace : Workspace) (host : Host) (isVerbose : Bool) (path : String) :
    Spoken Schema := do
  match archiveAt? workspace path with
  | none => loadSchemaAt workspace isVerbose (workspace.fullPath path)
  | some (name, contents) => do
    complainLine ("Extracting archive " ++ name ++ "...")
    let tree ← extractArchive host name contents
    removingTemporary do
      if isVerbose then complainLine ("  Extracted to: " ++ host.temporary)
      let unpacked := tree.under (Path.place [] host.temporary)
      loadSchemaAt ⟨unpacked, []⟩ isVerbose host.temporary

def readDocument (text : String) : Spoken Document :=
  orReport (SyntaxError.report text) (Document.parse text)

/-! ### Plans -/

/-- What is left to do: the files to write, and what is said once all of them are there. -/
structure Plan where
  writes : List (String × String)
  closing : List String
  reportsFaults : Bool

/-- Nothing is left to do. -/
def Plan.done : Plan :=
  ⟨[], [], true⟩

def generator (schema : Schema) (settings : Settings) (ids : IdSupply) : Generator where
  schema := schema
  settings := settings
  scalars := ScalarTable.standard
  hooks := ⟨[], []⟩
  overrides := []
  ids := ids

/-- What a fault in a library means for a command. -/
def libraryFailure : LibraryFault → Failure
  | .shape (.flawed flaw) => .reported flaw.report
  | fault => .breakdown (.library fault)

/-- Generates the library of a document and pins what it was made from. -/
def GenerateRequest.plan (workspace : Workspace) (host : Host) (request : GenerateRequest) :
    Spoken Plan := do
  let settings ← readSettings workspace request.settings none request.schemaId
  let schema ← readSchema workspace host request.isVerbose request.schema
  let operations ← readText workspace request.operations
  sayLine "Generating library..."
  let document ← readDocument operations
  match ← heard request.isVerbose ((generator schema settings host.ids).library document) with
  | .error fault => throw (libraryFailure fault)
  | .ok library => do
    if request.isVerbose then do
      sayLine ("  Functions: " ++ toString library.functions.length)
      sayLine ("  Fragments: " ++ toString library.types.length)
    let files ← heard request.isVerbose (filesToWrite request.output library.files)
    let lockfile := Path.plain (Path.join request.output Lockfile.fileName)
    return {
      writes := files ++ [(lockfile, (Lockfile.create settings.schemaId operations).contents)]
      closing := (files.map fun file => "  Wrote " ++ file.1) ++
        ["Done! Lockfile written to " ++ lockfile]
      reportsFaults := true }

/-- Generates the handler for one operation. Without a directory to write it to it is shown. -/
def HandlerRequest.plan (workspace : Workspace) (host : Host) (request : HandlerRequest) :
    Spoken Plan := do
  let settings ← readSettings workspace request.settings request.framework none
  let schema ← readSchema workspace host request.isVerbose request.schema
  let operations ← readText workspace request.operations
  let document ← readDocument operations
  let made ← heard request.isVerbose
    ((generator schema settings host.ids).handler document request.operationId request.options)
  let handler ← orReport UnknownId.message made
  match request.output with
  | none => do
    handler.files.forM fun file => sayLine file.contents
    return Plan.done
  | some directory =>
    let files := handler.files.map fun file =>
      let name := if file.path.isEmpty then handler.suggestedFilename else file.path
      (Path.plain (Path.join directory name), file.contents)
    return ⟨files, files.map fun file => "Wrote " ++ file.1, false⟩

/-- The line for a definition: its kind and name, and the fragments that it needs. -/
def orderLine (isVerbose : Bool) (record : OperationRecord) : String :=
  record.kind.word ++ " " ++ record.displayName ++
    if isVerbose && !record.dependencies.isEmpty then
      " <- " ++ ", ".intercalate (record.dependencies.map Fragment.name)
    else ""

/-- Shows the definitions of a document, fragments before what spreads them. -/
def OrderRequest.plan (workspace : Workspace) (request : OrderRequest) : Spoken Plan := do
  let text ← readText workspace request.operations
  let definitions ← heard request.isVerbose (readDefinitions .order text)
  let graph ← heard request.isVerbose (resolveGraph .order false [] definitions)
  let graph ← orReport DuplicateName.message graph
  graph.ordered.forM fun record => sayLine (orderLine request.isVerbose record)
  return Plan.done

/-- Shows a document in its normal form, or writes it back in it. -/
def NormalizeRequest.plan (workspace : Workspace) (request : NormalizeRequest) : Spoken Plan := do
  let text ← readText workspace request.operations
  let normal ← orReport (SyntaxError.report text) (normalize text)
  if request.isWritten then
    let path := Path.plain request.operations
    return ⟨[(path, normal)], ["Normalized " ++ path], false⟩
  else do
    say normal
    return Plan.done

/-- The version of the program. -/
def versionLine : String := "main, version 0.1.0"

def Request.plan (workspace : Workspace) (host : Host) : Request → Spoken Plan
  | .version => do
    sayLine versionLine
    return Plan.done
  | .help subcommand => do
    say (helpPage subcommand)
    return Plan.done
  | .generate request => request.plan workspace host
  | .handler request => request.plan workspace host
  | .order request => request.plan workspace
  | .normalize request => request.plan workspace

end OperationLibrary.Command
