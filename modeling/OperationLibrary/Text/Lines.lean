/-!
Lines of a text. Three notions are in use: the lines of prose, which end at any line or paragraph
boundary of Unicode; the lines of a source text, which end at a line feed, a carriage return, or
the two together; and plain splitting at the line feed, which indentation goes by.
-/

namespace OperationLibrary.Text

/-- Characters that end a line of prose. -/
def isLineBoundary (c : Char) : Bool :=
  let n := c.toNat
  (0x0a ≤ n && n ≤ 0x0d) || (0x1c ≤ n && n ≤ 0x1e) || n == 0x85 || n == 0x2028 || n == 0x2029

/-- Puts a character in front of the first line. -/
def consLine (c : Char) : List (List Char) → List (List Char)
  | [] => [[c]]
  | line :: rest => (c :: line) :: rest

/-- The lines of prose; a boundary at the very end opens no further line. -/
def proseLines : List Char → List (List Char)
  | [] => []
  | '\r' :: '\n' :: rest => [] :: proseLines rest
  | c :: rest => if isLineBoundary c then [] :: proseLines rest else consLine c (proseLines rest)

/-- The lines of a source text. There is always one line more than there are line ends. -/
def sourceLines : List Char → List (List Char)
  | [] => [[]]
  | '\r' :: '\n' :: rest => [] :: sourceLines rest
  | c :: rest =>
    if c = '\n' ∨ c = '\r' then [] :: sourceLines rest else consLine c (sourceLines rest)

/-- Every line end of a source text as a single line feed. -/
def unifyLineEnds : List Char → List Char
  | [] => []
  | '\r' :: '\n' :: rest => '\n' :: unifyLineEnds rest
  | c :: rest => (if c = '\r' then '\n' else c) :: unifyLineEnds rest

/-- The text of a file, in which every line end counts as a line feed. -/
def ofFile (contents : String) : String :=
  String.ofList (unifyLineEnds contents.toList)

/-- Inserts `margin` after every line feed. -/
def indentAfterNewlines (margin : String) (text : String) : String :=
  String.ofList (text.toList.flatMap fun c => if c = '\n' then '\n' :: margin.toList else [c])

/-- Runs of three or more line feeds shrink to two. -/
def collapseBlankLines : List Char → List Char
  | '\n' :: '\n' :: '\n' :: rest => collapseBlankLines ('\n' :: '\n' :: rest)
  | c :: rest => c :: collapseBlankLines rest
  | [] => []

end OperationLibrary.Text
