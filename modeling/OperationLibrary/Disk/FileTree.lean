import OperationLibrary.Disk.Path
import OperationLibrary.Text.Lines
import OperationLibrary.Text.Quoted

/-!
Files in directories, and what it takes to read and write them from a working directory. A
directory exists once it was made or holds something.
-/

namespace OperationLibrary

/-! ### Trees -/

/-- Places are given by the segments that lead to them from the root. -/
structure FileTree where
  files : List (List String × ByteArray)
  directories : List (List String)

namespace FileTree

def file? (tree : FileTree) (place : List String) : Option ByteArray :=
  tree.files.lookup place

def isFile (tree : FileTree) (place : List String) : Bool :=
  (tree.file? place).isSome

def isDirectory (tree : FileTree) (place : List String) : Bool :=
  place.isEmpty || tree.directories.any (place.isPrefixOf ·) ||
    tree.files.any fun file => place.isPrefixOf file.1 && place.length < file.1.length

/-- The files below a directory, with the segments that lead to them from there. -/
def below (tree : FileTree) (place : List String) : List (List String × ByteArray) :=
  (tree.files.filter fun file => place.isPrefixOf file.1 && place.length < file.1.length).map
    fun file => (file.1.drop place.length, file.2)

/-- Puts a file in place of the one that was there, or adds it. -/
def write (tree : FileTree) (place : List String) (contents : ByteArray) : FileTree :=
  { tree with
    files :=
      if tree.isFile place then
        tree.files.map fun file => if file.1 == place then (place, contents) else file
      else tree.files ++ [(place, contents)] }

def makeDirectory (tree : FileTree) (place : List String) : FileTree :=
  { tree with directories := tree.directories ++ [place] }

/-- The tree below a directory, with nothing beside it. -/
def under (tree : FileTree) (place : List String) : FileTree where
  files := tree.files.map fun file => (place ++ file.1, file.2)
  directories := place :: tree.directories.map (place ++ ·)

end FileTree

/-! ### Workspaces -/

/-- A tree and the directory in it that paths start from. -/
structure Workspace where
  tree : FileTree
  directory : List String

inductive FileKind where
  | file
  | directory
  deriving DecidableEq

/-- Why a file could not be written. -/
inductive WriteFault where
  | fileInPlaceOfDirectory (path : String)
  | fileOnTheWay (path : String)
  | directoryInPlaceOfFile (path : String)
  deriving DecidableEq

def WriteFault.message : WriteFault → String
  | .fileInPlaceOfDirectory path => "[Errno 17] File exists: " ++ Text.quoted path
  | .fileOnTheWay path => "[Errno 20] Not a directory: " ++ Text.quoted path
  | .directoryInPlaceOfFile path => "[Errno 21] Is a directory: " ++ Text.quoted path

/-- The fault of a file at a path where a directory has to be. With paths left behind it, it is in
the way of the next one. -/
def WriteFault.atFile (path : String) : List String → WriteFault
  | [] => .fileInPlaceOfDirectory path
  | next :: _ => .fileOnTheWay next

namespace Workspace

def place (workspace : Workspace) (path : String) : List String :=
  Path.place workspace.directory path

/-- The place of a path all of whose directories exist. -/
def reach? (workspace : Workspace) (path : String) : Option (List String) :=
  if path.isEmpty then none
  else (Path.segments path).foldlM (fun here segment =>
    if workspace.tree.isDirectory here then some (Path.step here segment) else none)
    (Path.start workspace.directory path)

def kind? (workspace : Workspace) (path : String) : Option FileKind := do
  let place ← workspace.reach? path
  if workspace.tree.isFile place then return .file
  else if workspace.tree.isDirectory place then return .directory
  else none

def isFile (workspace : Workspace) (path : String) : Bool :=
  workspace.kind? path == some .file

def read? (workspace : Workspace) (path : String) : Option ByteArray :=
  (workspace.reach? path).bind workspace.tree.file?

/-- The text of a file, where it is one. -/
def readText? (workspace : Workspace) (path : String) : Option String :=
  ((workspace.read? path).bind String.fromUTF8?).map Text.ofFile

/-- The path of the same place from the root. -/
def fullPath (workspace : Workspace) (path : String) : String :=
  Path.ofPlace (workspace.place path)

/-- Makes the directories that are missing among those on the way, the outermost first. There is no
way on from a file, not even back to the directory that it is in. -/
def makeDirectories (workspace : Workspace) : List String → Except WriteFault Workspace
  | [] => .ok workspace
  | path :: rest =>
    let place := workspace.place path
    if workspace.tree.isDirectory place then makeDirectories workspace rest
    else if workspace.tree.isFile place then .error (.atFile path rest)
    else makeDirectories { workspace with tree := workspace.tree.makeDirectory place } rest

/-- Writes a text, making the directories on the way. -/
def write (workspace : Workspace) (path contents : String) : Except WriteFault Workspace := do
  let workspace ← workspace.makeDirectories (Path.ancestors (Path.parent path))
  let place := workspace.place path
  if workspace.tree.isDirectory place then .error (.directoryInPlaceOfFile path)
  else return { workspace with tree := workspace.tree.write place contents.toUTF8 }

/-- Writes files one after the other, up to the first one that cannot be written. -/
def writeAll (workspace : Workspace) : List (String × String) → Workspace × Option WriteFault
  | [] => (workspace, none)
  | (path, contents) :: rest =>
    match workspace.write path contents with
    | .ok workspace => workspace.writeAll rest
    | .error fault => (workspace, some fault)

end Workspace

end OperationLibrary
