import OperationLibrary.Text.Blank
import OperationLibrary.Text.Lines

/-!
Block strings. Between its triple quotes a block string holds raw lines; its value drops the blank
lines at both ends and the indentation that all lines but the first have in common. The printed
form chooses its line breaks so that reading it gives the value back, where that is possible.
-/

namespace OperationLibrary.Syntax.BlockString

def isIndent (c : Char) : Bool :=
  c == ' ' || c == '\t'

/-- How many blanks and tabs a line starts with. -/
def leadingIndent (line : List Char) : Nat :=
  (line.takeWhile isIndent).length

def isBlankLine (line : List Char) : Bool :=
  line.all isIndent

/-- The indentation that all non-blank lines after the first share; none of them, no indentation. -/
def commonIndent (later : List (List Char)) : Nat :=
  (((later.filter fun line => !isBlankLine line).map leadingIndent).min?).getD 0

def dropBlankLines (lines : List (List Char)) : List (List Char) :=
  Text.dropEndWhile isBlankLine (lines.dropWhile isBlankLine)

/-- The lines of the value: the common indentation removed from all but the first, then the blank
lines at both ends left out. A blank line stays blank when its indentation is cut. -/
def dedentLines : List (List Char) → List (List Char)
  | [] => []
  | first :: later => dropBlankLines (first :: later.map (·.drop (commonIndent later)))

/-- The value of a block string whose raw lines are `lines`. -/
def valueOfLines (lines : List (List Char)) : List Char :=
  ['\n'].intercalate (dedentLines lines)

/-- Every triple quote behind a backslash. -/
def escapeTripleQuotes : List Char → List Char
  | '"' :: '"' :: '"' :: rest => '\\' :: '"' :: '"' :: '"' :: escapeTripleQuotes rest
  | c :: rest => c :: escapeTripleQuotes rest
  | [] => []

/-- Values above this length get lines of their own. -/
def inlineLimit : Nat := 70

/-- The printed form. Several lines, a long line and a line that ends in a quote or a backslash
get line breaks inside the quotes; a single line that starts with indentation keeps its place. -/
def print (value : List Char) : List Char :=
  let escaped := escapeTripleQuotes value
  let lines := Text.sourceLines escaped
  let single := lines.length == 1
  let opensIndented := fun (line : List Char) => line.isEmpty || line.head?.any isIndent
  let forceBreakBefore := !single && lines.tail.all opensIndented
  let endsEscaped := ['\\', '"', '"', '"'].isSuffixOf escaped
  let endsQuoted := ['"'].isSuffixOf value && !endsEscaped
  let forceBreakAfter := endsQuoted || ['\\'].isSuffixOf value
  let spread := !single || inlineLimit < value.length || forceBreakAfter || forceBreakBefore ||
    endsEscaped
  let keepsPlace := single && value.head?.all isIndent
  let before := if (spread && !keepsPlace) || forceBreakBefore then ['\n'] else []
  let after := if spread || forceBreakAfter then ['\n'] else []
  ['"', '"', '"'] ++ before ++ escaped ++ after ++ ['"', '"', '"']

end OperationLibrary.Syntax.BlockString
