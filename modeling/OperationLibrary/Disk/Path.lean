import OperationLibrary.Text.Blank

/-!
Paths as they are written: segments between slashes. One segment stands for the directory itself
and one for the directory above; empty segments stand for nothing.
-/

namespace OperationLibrary.Path

/-- The parts between slashes; there is one more of them than there are slashes. -/
def split : List Char → List (List Char)
  | [] => [[]]
  | c :: rest =>
    if c = '/' then [] :: split rest
    else
      match split rest with
      | [] => [[c]]
      | first :: others => (c :: first) :: others

def segments (path : String) : List String :=
  (split path.toList).map String.ofList

/-- A path from the root. -/
def isAbsolute (path : String) : Bool :=
  path.toList.head? == some '/'

/-- Segments that lead nowhere. -/
def isIdle (segment : String) : Bool :=
  segment == "" || segment == "."

/-- Where a segment leads from a directory. -/
def step (directory : List String) (segment : String) : List String :=
  if isIdle segment then directory
  else if segment = ".." then directory.dropLast
  else directory ++ [segment]

/-- Where a path starts. -/
def start (directory : List String) (path : String) : List String :=
  if isAbsolute path then [] else directory

/-- The place that a path leads to from a directory, whatever there is on the way. -/
def place (directory : List String) (path : String) : List String :=
  (segments path).foldl step (start directory path)

/-- The path from the root to a place. -/
def ofPlace (place : List String) : String :=
  "/" ++ "/".intercalate place

/-- A path below a directory, unless it starts at the root itself. -/
def join (directory path : String) : String :=
  if isAbsolute path || directory.isEmpty then path
  else if directory.endsWith "/" then directory ++ path
  else directory ++ "/" ++ path

/-- The path without idle segments. -/
def plain (path : String) : String :=
  let kept := "/".intercalate ((segments path).filter fun s => !isIdle s)
  if isAbsolute path then "/" ++ kept
  else if kept.isEmpty then "."
  else kept

/-- The directory part of a path: all before the last slash, without further slashes at its end. -/
def parent (path : String) : String :=
  let head := Text.dropEndWhile (· ≠ '/') path.toList
  let trimmed := Text.dropEndWhile (· == '/') head
  String.ofList (if trimmed.isEmpty then head else trimmed)

/-- The paths to all directories on the way to a directory, itself included. -/
def ancestors (path : String) : List String :=
  let chars := path.toList
  (List.range chars.length).filterMap fun n =>
    match chars[n]?, chars[n + 1]? with
    | some '/', _ => none
    | some _, none => some path
    | some _, some '/' => some (String.ofList (chars.take (n + 1)))
    | _, _ => none

end OperationLibrary.Path
