import OperationLibrary.Shape.Basic
import OperationLibrary.Shape.Projection
import OperationLibrary.Text.Blank
import OperationLibrary.Text.Lines

/-!
Shapes as types of the target language. Objects take a line for every entry, indented by their
level, with the description as a comment in front; everything else stays on one line.
-/

namespace OperationLibrary

/-! ### Comments and names -/

/-- The text with the slash of every comment end escaped. -/
def escapeCommentEnd : List Char → List Char
  | '*' :: '/' :: rest => '*' :: '\\' :: '/' :: escapeCommentEnd rest
  | c :: rest => c :: escapeCommentEnd rest
  | [] => []

/-- A description as a comment block of whole lines, nothing where there is none. -/
def docComment (description : Option String) (margin : List Char) : List Char :=
  match description with
  | none => []
  | some text =>
    if text.isEmpty then []
    else
      let lines := Text.proseLines (escapeCommentEnd text.toList)
      let body := lines.flatMap fun line =>
        Text.trimBlankEnd (margin ++ [' ', '*', ' '] ++ line) ++ ['\n']
      margin ++ ['/', '*', '*', '\n'] ++ body ++ margin ++ [' ', '*', '/', '\n']

def isIdentifierStart (c : Char) : Bool :=
  c.isAlpha || c == '_' || c == '$'

/-- Letters, digits, low lines and dollar signs, no digit first. -/
def isIdentifier : List Char → Bool
  | [] => false
  | c :: rest => isIdentifierStart c && rest.all fun d => isIdentifierStart d || d.isDigit

/-- The text without one line feed at its end. -/
def dropFinalNewline (text : List Char) : List Char :=
  if text.getLast? = some '\n' then text.dropLast else text

/-- The name of a property: an identifier, perhaps with a line feed at its end, as it is, and
quoted otherwise. -/
def propertyName (name : String) : List Char :=
  let text := name.toList
  if isIdentifier (dropFinalNewline text) then text
  else
    '"' :: (text.flatMap fun c => if c = '\\' ∨ c = '"' then ['\\', c] else [c]) ++ ['"']

/-! ### Shapes -/

/-- The blanks in front of lines at a level. -/
def margin (level : Nat) : List Char :=
  List.replicate (2 * level) ' '

/-- The type of objects without entries. -/
def emptyObjectText : String :=
  "/** No fields found */ Record<string, unknown>"

/-- A closed set of strings. -/
def enumText (values : List String) : List Char :=
  if values.isEmpty then "never".toList
  else [' ', '|', ' '].intercalate (values.map fun value => '"' :: value.toList ++ ['"'])

mutual

def Shape.print : Nat → Shape → List Char
  | _, .scalar type _ => type.toList
  | _, .enum values _ => enumText values
  | level, .list item _ => "Array<".toList ++ item.print level ++ ['>']
  | level, .object entries _ =>
    if entries.isEmpty then emptyObjectText.toList
    else ['\x7b', '\n'] ++ printEntries (level + 1) entries ++ margin level ++ ['\x7d']

/-- A line for every entry, with its comment in front. -/
def printEntries : Nat → List (Entry Shape) → List Char
  | _, [] => []
  | level, ⟨name, type, nullable, description⟩ :: rest =>
    docComment (description.map Explanation.words) (margin level) ++ margin level ++
      propertyName name ++
      (if nullable then ['?'] else []) ++ [':', ' '] ++ type.print level ++ [';', '\n'] ++
      printEntries level rest

end

/-- The text of a shape at a level. -/
def Shape.text (shape : Shape) (level : Nat) : String :=
  String.ofList (shape.print level)

/-! ### Signatures -/

mutual

/-- Whether every comment in the text of a shape has words to it. -/
def Shape.isWritable : Shape → Bool
  | .scalar .. | .enum .. => true
  | .list item _ => item.isWritable
  | .object entries _ => entriesAreWritable entries

def entriesAreWritable : List (Entry Shape) → Bool
  | [] => true
  | ⟨_, type, _, description⟩ :: rest =>
    description.all Explanation.isWritable && type.isWritable && entriesAreWritable rest

end

/-- The text of a shape that stands by itself. -/
def Shape.signature (shape : Shape) : Except ShapeFault String :=
  if shape.isWritable then .ok (shape.text 0) else .error .notText

end OperationLibrary
