import OperationLibrary.Digest.Sha1
import OperationLibrary.Json.Check
import OperationLibrary.Json.Parser
import OperationLibrary.Json.Printer
import OperationLibrary.Notice
import OperationLibrary.Text.Lines

/-!
The lockfile beside a generated library. It pins the id of the schema and the digest of the
operations that the library was made from, so that a later run can tell whether it is up to date.
-/

namespace OperationLibrary

structure Lockfile where
  schemaId : String
  operationsHash : String
  deriving DecidableEq

namespace Lockfile

def fileName : String := "netlifyGraph.lock"

/-- The one version of the format. -/
def formatVersion : String := "v0"

def create (schemaId operations : String) : Lockfile :=
  ⟨schemaId, Digest.Sha1.hexDigest operations⟩

/-- Whether the library was made from this schema and from operations with the same digest. -/
def isCurrent (lockfile : Lockfile) (schemaId operations : String) : Bool :=
  lockfile.schemaId == schemaId && lockfile.operationsHash == Digest.Sha1.hexDigest operations

/-! ### Writing -/

def quoted (text : String) : String :=
  Json.quoteWith Json.plainEscape text

/-- The contents of the file: indented by two, with a line feed at the end. -/
def contents (lockfile : Lockfile) : String :=
  "\x7b\n  \"version\": " ++ quoted formatVersion ++ ",\n  \"locked\": \x7b\n    \"schemaId\": " ++
    quoted lockfile.schemaId ++ ",\n    \"operationsHash\": " ++ quoted lockfile.operationsHash ++
    "\n  \x7d\n\x7d\n"

/-! ### Reading -/

/-- What is pinned, in the member that holds it. -/
def ofLocked (members : List (String × Json)) : Checked Lockfile :=
  ((Json.checkRequired members "schemaId" "schema_id" Json.checkText).both
    (Json.checkRequired members "operationsHash" "operations_hash" Json.checkText)).map
    fun (schemaId, operationsHash) => ⟨schemaId, operationsHash⟩

/-- The lockfile that a JSON value holds. Without a version it has the one there is. -/
def ofJson : Json → Checked Lockfile :=
  Json.checkModel fun members =>
    ((Json.checkKey members "version" "version" ()
        (Json.checkChoice [(formatVersion, ())])).both
      (Json.checkRequired members "locked" "locked" (Json.checkModel ofLocked))).map Prod.snd

/-- The lockfile in the contents of a file, which are read strictly. -/
def parse? (contents : String) : Option Lockfile :=
  (Json.parseStrictly? (Text.ofFile contents)).bind fun value => (ofJson value).toOption

/-- The lockfile at a path, where there is a file with contents. An unreadable one counts as
missing. -/
def read (path : String) : Option String → Logged (Option Lockfile)
  | none => pure none
  | some contents =>
    match parse? contents with
    | some lockfile => pure (some lockfile)
    | none => do
      Logged.warn .lockfile ("Ignoring invalid lockfile " ++ path)
      return none

end Lockfile

end OperationLibrary
