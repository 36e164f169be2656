import Mathlib.Data.List.ReduceOption
import OperationLibrary.Proofs.CommandParts
import OperationLibrary.Proofs.LockfileText
import OperationLibrary.Proofs.NumberText

/-!
What generating a library leaves. A run that fails leaves all files as they were, unless a file
could not be written; a run that succeeds touches three files only, and the lockfile among them is
current for what the library was made from. In the temporary directory of the system nothing is left
but by the unpacking of an archive that broke off.
-/

namespace OperationLibrary

/-! ### Files of a library -/

theorem Logged.value_mapM {α β : Type} (f : α → Logged β) (xs : List α) :
    (xs.mapM f).value = xs.map fun x => (f x).value := by
  induction xs with
  | nil => rfl
  | cons x xs ih =>
      rw [List.mapM_cons, value_bind, value_bind, value_pure, ih, List.map_cons]

namespace Command

/-! ### Plans -/

namespace GenerateRequest

def lockfilePath (request : GenerateRequest) : String :=
  Path.plain (Path.join request.output Lockfile.fileName)

/-- The paths of all files that a request is answered by, given the names of the runtime and of its
declarations. -/
def paths (request : GenerateRequest) (runtime declarations : List String) : List String :=
  [Path.join request.output (OutputFile.pathOf runtime),
    Path.join request.output (OutputFile.pathOf declarations), request.lockfilePath]

end GenerateRequest

/-! ### Runs -/

namespace SmallSite

/-- A site with a schema, operations, and settings that name the runtime. -/
def workspace : Workspace where
  tree :=
    { files :=
        [(["site", "s.graphql"], "type Query \x7b a: Int \x7d".toUTF8),
          (["site", "o.graphql"], "query A \x7b a \x7d".toUTF8),
          (["site", "c.json"],
            "\x7b\"netlifyGraphImplementationFilename\": [\"i.js\"]\x7d".toUTF8)]
      directories := [["site"]] }
  directory := ["site"]

def rest : List String :=
  ["-s", "s.graphql", "-o", "o.graphql", "-c", "c.json", "--schema-id", "s1"]

def request : GenerateRequest :=
  ⟨"s.graphql", "o.graphql", some "c.json", ".", some "s1", false⟩

def ids : IdSupply := fun n => toString n

/-- The system that a command line runs on. -/
def host : Host := .standard ids archiveDirectory

/-- What is no archive, but has the name of one, leaves a temporary directory behind. -/
example :
    ((Request.generate { request with schema := "s.zip" }).run
      { workspace with tree := workspace.tree.write ["site", "s.zip"] .empty }
      host).remains.isSome = true := by
  decide +kernel

end SmallSite

end Command

end OperationLibrary
