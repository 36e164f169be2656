import OperationLibrary.Disk.FileTree

/-!
Unpacking archives below a directory. The files come out one after the other; what came out before
a fault stays.
-/

namespace OperationLibrary

/-- Why an archive cannot be unpacked any further: it is broken or not to be trusted, the system
refuses to read on, or something is in the way of a file. -/
inductive ArchiveFault where
  | broken
  | refused (message : String)
  | writing (fault : WriteFault)
  deriving DecidableEq

/-- What an archive unpacks to, and the fault that it ended with. Places start from the directory
that the archive is unpacked below. -/
structure Unpacked where
  tree : FileTree
  fault : Option ArchiveFault

/-- A part of unpacking an archive. -/
abbrev Unpacking (α : Type) := ExceptT ArchiveFault (StateM FileTree) α

namespace Unpacking

/-- All of it, into an empty directory. -/
def result (unpacking : Unpacking Unit) : Unpacked :=
  match unpacking.run ⟨[], []⟩ with
  | (.ok (), tree) => ⟨tree, none⟩
  | (.error fault, tree) => ⟨tree, some fault⟩

def orBroken {α : Type} : Option α → Unpacking α
  | some a => return a
  | none => throw .broken

/-! ### Putting things in place -/

/-- The path of a place, for messages. -/
def pathOf (root : String) (place : List String) : String :=
  "/".intercalate (root :: place)

/-- Faults if there is a file among the directories that lead to a place. -/
def checkWay (root : String) (place : List String) : Unpacking Unit := do
  let tree ← get
  match (List.range place.length).find? fun n => tree.isFile (place.take n) with
  | none => return
  | some n => throw (.writing (.fileOnTheWay (pathOf root (place.take (n + 1)))))

def makeDirectory (root : String) (place : List String) : Unpacking Unit := do
  checkWay root place
  if (← get).isFile place then
    throw (.writing (.fileInPlaceOfDirectory (pathOf root place)))
  modify fun tree => tree.makeDirectory place

def putFile (root : String) (place : List String) (contents : ByteArray) : Unpacking Unit := do
  checkWay root place
  if (← get).isDirectory place then
    throw (.writing (.directoryInPlaceOfFile (pathOf root place)))
  modify fun tree => tree.write place contents

end Unpacking

end OperationLibrary
