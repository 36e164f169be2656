import OperationLibrary.Digest.Sha256
import OperationLibrary.Document.Memo
import OperationLibrary.Document.Order
import OperationLibrary.Syntax.TypeSystemParser

/-!
The definitions of a document as records, in source order and in dependency order. A text that
cannot be read counts as a document without definitions; names that repeat are reported, or refused
where names have to be unique.
-/

namespace OperationLibrary

open Syntax

/-- A definition name that is used more than once where that is refused. -/
structure DuplicateName where
  name : String
  deriving DecidableEq

def DuplicateName.message (error : DuplicateName) : String :=
  "Definition name '" ++ error.name ++ "' is used more than once"

structure OperationGraph where
  definitions : List Executable
  source : List OperationRecord
  ordered : List OperationRecord

namespace OperationGraph

def names (graph : OperationGraph) : List String :=
  graph.ordered.map (·.name)

end OperationGraph

/-- The executable definitions of a text, none where it cannot be read. -/
def readDefinitions (topic : Topic) (text : String) : Logged (List Executable) :=
  match Document.parse text with
  | .ok document => pure document.executables
  | .error error => do
    Logged.warn topic ("Unable to parse operations document: " ++ error.message)
    return []

abbrev DocumentMemo (κ : Type) := Memo κ (List Executable)

/-- Documents are told apart by a digest of their text. -/
def DocumentMemo.ofCapacity (capacity : Nat) : DocumentMemo String :=
  Memo.empty Digest.Sha256.hexDigest capacity

/-- The definitions of a text, from the memo where they are known; new ones are put in. -/
def DocumentMemo.definitions {κ : Type} [DecidableEq κ] (topic : Topic) (memo : DocumentMemo κ)
    (text : String) : Logged (List Executable × DocumentMemo κ) :=
  match memo.get? text with
  | some known => pure (known, memo)
  | none => do
    let read ← readDefinitions topic text
    return (read, memo.put text read)

/-- The names of definitions that have names, in source order. -/
def givenNames (definitions : List Executable) : List String :=
  definitions.filterMap Executable.name?

/-- The names that stand behind an equal one, each as often as it repeats. -/
def repeatedNames : List String → List String → List String
  | _, [] => []
  | seen, name :: rest =>
    if seen.contains name then name :: repeatedNames seen rest
    else repeatedNames (name :: seen) rest

/-- The graph of the definitions; `strict` refuses names that repeat. -/
def resolveGraph (topic : Topic) (strict : Bool) (values : List (String × Json))
    (definitions : List Executable) : Logged (Except DuplicateName OperationGraph) := do
  let table := definitions.filterMap Executable.fragment?
  let records := definitions.map (OperationRecord.ofDefinition table values)
  let again := repeatedNames [] (givenNames definitions)
  match strict, again with
  | true, name :: _ => return .error ⟨name⟩
  | _, _ =>
    let duplicates := again.map fun name =>
      (⟨.warning, topic, "Duplicate definition name " ++ name ++
        ", dependencies resolve to the first one"⟩ : Notice)
    let ordered : Logged (List OperationRecord) := orderRecords records
    let notices := ordered.notices.map fun notice => { notice with topic := topic }
    ⟨.ok ⟨definitions, records, ordered.value⟩, duplicates ++ notices⟩

/-- The graph of a text, with the memo as it is afterwards. -/
def buildGraph {κ : Type} [DecidableEq κ] (topic : Topic) (strict : Bool) (memo : DocumentMemo κ)
    (values : List (String × Json)) (text : String) :
    Logged (Except DuplicateName OperationGraph × DocumentMemo κ) := do
  let (definitions, memo) ← memo.definitions topic text
  let graph ← resolveGraph topic strict values definitions
  return (graph, memo)

end OperationLibrary
