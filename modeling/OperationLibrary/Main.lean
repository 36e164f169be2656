import OperationLibrary.Command.Outcome

/-!
The program. It looks at the files that the arguments name, lets the library answer, and carries
out what the answer says.
-/

namespace OperationLibrary.Program

/-- What an argument may name: itself, or the value that is attached to an option. -/
def candidates (argument : String) : List String :=
  [argument, String.ofList (argument.toList.drop 2), (Command.splitValue argument).2.getD ""]

/-- Adds the files below a directory. Only those that may hold definitions are read. -/
partial def addDirectory (tree : FileTree) (path : String) : IO FileTree := do
  let mut tree := tree.makeDirectory (Path.place [] path)
  for entry in ← (← IO.FS.realPath path).readDir do
    let below := Path.join path entry.fileName
    match (← entry.path.metadata).type with
    | .dir => tree ← addDirectory tree below
    | .file =>
      let contents ← if isDefinitionsFile below then IO.FS.readBinFile below else pure .empty
      tree := tree.write (Path.place [] below) contents
    | _ => pure ()
  return tree

/-- Adds what there is at a path, if anything. -/
def addPath (directory : List String) (tree : FileTree) (path : String) : IO FileTree := do
  let fullPath := Path.ofPlace (Path.place directory path)
  try
    if ← (← IO.FS.realPath fullPath).isDir then addDirectory tree fullPath
    else
      let contents ← IO.FS.readBinFile fullPath
      return tree.write (Path.place [] fullPath) contents
  catch _ => return tree

/-- The workspace as far as the arguments name it. -/
def look (arguments : List String) : IO Workspace := do
  let directory := Path.place [] (← IO.currentDir).toString
  let paths := (arguments.flatMap candidates).filter fun path => !path.isEmpty
  let tree ← paths.foldlM (addPath directory) (FileTree.mk [] [directory])
  return ⟨tree, directory⟩

/-- Writes the files that changed. -/
def store (before after : FileTree) : IO Unit :=
  for (place, contents) in after.files do
    if before.file? place != some contents then
      let path := Path.ofPlace place
      IO.FS.createDirAll (Path.parent path)
      IO.FS.writeBinFile path contents

/-- Ids that no document has yet. -/
def freshIds : IO IdSupply := do
  let seed := (← IO.getRandomBytes 16).toList.flatMap fun byte => Text.hexDigits 2 byte.toNat
  return fun n => String.ofList seed ++ "-" ++ toString n

end OperationLibrary.Program

open OperationLibrary in
def main (arguments : List String) : IO UInt32 := do
  let workspace ← Program.look arguments
  let ids ← Program.freshIds
  let host := Command.Host.standard ids ("/tmp/" ++ ids 0)
  let outcome := Command.runOn host workspace arguments
  try
    Program.store workspace.tree outcome.workspace.tree
    let temporary := Path.place [] host.temporary
    Program.store ⟨[], []⟩ ((outcome.remains.getD ⟨[], []⟩).under temporary)
    IO.print outcome.transcript.output
    IO.eprint outcome.transcript.errors
    return outcome.exitCode.toUInt32
  catch fault =>
    IO.eprintln ("Error: " ++ toString fault)
    return 1
