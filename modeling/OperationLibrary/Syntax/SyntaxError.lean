import OperationLibrary.Syntax.Token
import OperationLibrary.Text.Lines

/-!
Errors of reading a document: what was met instead of what, and where. Lines and columns count
from one; the excerpt shows the faulty line with a caret under the faulty character.
-/

namespace OperationLibrary.Syntax

/-- What the grammar asks for at one token. -/
inductive Expectation where
  | mark (mark : Punctuator)
  | name
  | keyword (word : String)
  | endOfText
  deriving DecidableEq

def Expectation.describe : Expectation → String
  | .mark m => "'" ++ m.text ++ "'"
  | .name => "Name"
  | .keyword word => "'" ++ word ++ "'"
  | .endOfText => "<EOF>"

inductive SyntaxFault where
  | scan (fault : ScanFault)
  | expected (wanted : Expectation) (found : Lexeme)
  | unexpected (found : Lexeme)
  | descriptionOnShorthand
  | descriptionOnUnknown
  | variableInConstant (name : String)
  | reservedEnumValue (found : Lexeme)
  | tooDeep
  deriving DecidableEq

def SyntaxFault.message : SyntaxFault → String
  | .scan fault => fault.message
  | .expected wanted found => "Expected " ++ wanted.describe ++ ", found " ++ found.describe ++ "."
  | .unexpected found => "Unexpected " ++ found.describe ++ "."
  | .descriptionOnShorthand =>
    "Unexpected description, descriptions are not supported on shorthand queries."
  | .descriptionOnUnknown =>
    "Unexpected description, only GraphQL definitions support descriptions."
  | .variableInConstant name => "Unexpected variable '$" ++ name ++ "' in constant value."
  | .reservedEnumValue found =>
    found.describe ++ " is reserved and cannot be used for an enum value."
  | .tooDeep => "Document is nested too deeply. Parsing aborted."

/-- A fault and the number of characters in front of it. -/
structure SyntaxError where
  fault : SyntaxFault
  offset : Nat
  deriving DecidableEq

def SyntaxError.message (error : SyntaxError) : String :=
  "Syntax Error: " ++ error.fault.message

/-! ### Places in a source text -/

structure Location where
  line : Nat
  column : Nat
  deriving DecidableEq

/-- The place of the character with `offset` characters in front of it, which is never the second
half of a line end. -/
def Location.ofOffset (source : String) (offset : Nat) : Location :=
  let lines := Text.sourceLines (source.toList.take offset)
  ⟨lines.length, (lines.getLast?.getD []).length + 1⟩

/-- Lines above this length are cut for display. -/
def excerptLimit : Nat := 120

/-- The length of the pieces that a long line is cut into. -/
def excerptPiece : Nat := 80

/-- Cuts a list into pieces of `n`, the last one shorter. -/
def pieces {α : Type} (n : Nat) (xs : List α) : List (List α) :=
  if xs.isEmpty then []
  else xs.take (max n 1) :: pieces n (xs.drop (max n 1))
termination_by xs.length
decreasing_by
  cases xs with
  | nil => simp_all
  | cons x xs => simp only [List.length_drop, List.length_cons]; omega

/-- Lines behind right-aligned prefixes and a bar. -/
def renderExcerpt (lines : List (String × String)) : String :=
  let width := (lines.map (·.1.length)).foldl max 0
  "\n".intercalate (lines.map fun (label, line) =>
    String.ofList (List.replicate (width - label.length) ' ') ++ label ++
      (if line.isEmpty then "" else " " ++ line))

/-- The lines around a place, with a caret below it. -/
def Location.excerpt (source : String) (place : Location) : String :=
  let lines := (Text.sourceLines source.toList).map String.ofList
  let label := fun (n : Nat) => toString n ++ " |"
  let lineAt := fun (n : Nat) => lines[n]?
  let line := (lineAt (place.line - 1)).getD ""
  let caret := fun (column : Nat) => String.ofList (List.replicate (column - 1) ' ') ++ "^"
  if excerptLimit < line.length then
    let parts := (pieces excerptPiece line.toList).map String.ofList
    let index := min ((place.column - 1) / excerptPiece) (parts.length - 1)
    let shown := (parts.take (index + 1)).zipIdx.map fun (part, i) =>
      (if i = 0 then label place.line else "|", part)
    let next := (parts[index + 1]?).toList.map fun part => ("|", part)
    renderExcerpt (shown ++ [("|", caret (place.column - excerptPiece * index))] ++ next)
  else
    let previous :=
      if 1 < place.line then [(label (place.line - 1), (lineAt (place.line - 2)).getD "")] else []
    let next := (lineAt place.line).toList.map fun l => (label (place.line + 1), l)
    renderExcerpt (previous ++ [(label place.line, line), ("|", caret place.column)] ++ next)

/-- A message with the place that it is about and the lines around that place. -/
def Location.report (source message : String) (place : Location) : String :=
  message ++ "\n\nGraphQL request:" ++ toString place.line ++ ":" ++ toString place.column ++
    "\n" ++ place.excerpt source

def SyntaxError.place (source : String) (error : SyntaxError) : Location :=
  Location.ofOffset source error.offset

/-- The whole report of a syntax error: message, place and excerpt. -/
def SyntaxError.report (source : String) (error : SyntaxError) : String :=
  (error.place source).report source error.message

end OperationLibrary.Syntax
