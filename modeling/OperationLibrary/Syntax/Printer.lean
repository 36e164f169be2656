import OperationLibrary.Syntax.Ast
import OperationLibrary.Syntax.BlockString

/-!
The printed form of executable definitions. Blocks are indented by two blanks; arguments, lists and
objects stay on one line while that line is short enough, counting the text that was printed for
them and not where it will stand.
-/

namespace OperationLibrary.Syntax

namespace Layout

/-- Longer lines of arguments and of list and object values are broken. -/
def lineLimit : Nat := 80

def margin : String := "  "

/-- Puts the margin in front of every line; nothing stays nothing. -/
def indent (text : String) : String :=
  if text.isEmpty then "" else margin ++ Text.indentAfterNewlines margin text

/-- Joins the parts that are not empty. -/
def joinNonEmpty (separator : String) (parts : List String) : String :=
  separator.intercalate (parts.filter fun part => !part.isEmpty)

/-- Text between two marks, where there is any. -/
def enclose (before text after : String) : String :=
  if text.isEmpty then "" else before ++ text ++ after

/-- Items on lines of their own between braces. -/
def block (items : List String) : String :=
  if items.isEmpty then "\x7b\x7d"
  else "\x7b\n" ++ indent ("\n".intercalate items) ++ "\n\x7d"

def hasNewline (text : String) : Bool :=
  text.toList.contains '\n'

end Layout

open Layout

/-! ### Strings -/

def escapeCharacter (c : Char) : List Char :=
  match c with
  | '"' => ['\\', '"']
  | '\\' => ['\\', '\\']
  | '\x08' => ['\\', 'b']
  | '\x0c' => ['\\', 'f']
  | '\n' => ['\\', 'n']
  | '\r' => ['\\', 'r']
  | '\t' => ['\\', 't']
  | _ =>
    if c.toNat < 0x20 ∨ (0x7f ≤ c.toNat ∧ c.toNat ≤ 0x9f) then
      '\\' :: 'u' :: (upperHex4 c.toNat)
    else [c]
where
  /-- Four hexadecimal digits in upper case. -/
  upperHex4 (n : Nat) : List Char :=
    [n / 4096, n / 256, n / 16, n].map fun d => (Nat.digitChar (d % 16)).toUpper

/-- A string between quotes, with escapes for quotes, backslashes and control characters. -/
def quote (text : String) : String :=
  String.ofList ('"' :: text.toList.flatMap escapeCharacter ++ ['"'])

def printString (text : String) (block : Bool) : String :=
  if block then String.ofList (BlockString.print text.toList) else quote text

def Description.print (description : Description) : String :=
  printString description.text description.block

/-! ### Values -/

/-- Items on one line, or each on its own line where that line would be too long. -/
def printList (items : List String) : String :=
  let line := "[" ++ ", ".intercalate items ++ "]"
  if lineLimit < line.length then "[\n" ++ indent ("\n".intercalate items) ++ "\n]" else line

def printObject (fields : List String) : String :=
  let line := "\x7b " ++ ", ".intercalate fields ++ " \x7d"
  if lineLimit < line.length then block fields else line

mutual

def Value.print : Value → String
  | .variable name => "$" ++ name
  | .int digits => digits
  | .float digits => digits
  | .string text block => printString text block
  | .boolean value => if value then "true" else "false"
  | .null => "null"
  | .enum name => name
  | .list items => printList (printItems items)
  | .object fields => printObject (printFields fields)

def printItems : List Value → List String
  | [] => []
  | item :: rest => item.print :: printItems rest

def printFields : List (String × Value) → List String
  | [] => []
  | (name, value) :: rest => (name ++ ": " ++ value.print) :: printFields rest

end

def Argument.print (argument : Argument) : String :=
  argument.name ++ ": " ++ argument.value.print

def Directive.print (directive : Directive) : String :=
  "@" ++ directive.name ++
    enclose "(" (", ".intercalate (directive.arguments.map Argument.print)) ")"

def printDirectives (directives : List Directive) : String :=
  " ".intercalate (directives.map Directive.print)

/-! ### Selections -/

/-- Alias, name and arguments of a field; arguments that make the line too long are printed one
to a line. -/
def printFieldCall (head : FieldHead) : String :=
  let name := (head.aliasName.map (· ++ ": ")).getD "" ++ head.name
  let arguments := head.arguments.map Argument.print
  let line := name ++ enclose "(" (", ".intercalate arguments) ")"
  if lineLimit < line.length then
    name ++ enclose "(\n" (indent ("\n".intercalate arguments)) "\n)"
  else line

mutual

def Selection.print : Selection → String
  | .field head selections =>
    joinNonEmpty " " [printFieldCall head, printDirectives head.directives,
      match selections with
      | none => ""
      | some inner => block (printSelections inner)]
  | .spread fragment directives =>
    "..." ++ fragment ++ enclose " " (printDirectives directives) ""
  | .inline condition directives selections =>
    joinNonEmpty " " ["...", (condition.map ("on " ++ ·)).getD "", printDirectives directives,
      block (printSelections selections)]

def printSelections : List Selection → List String
  | [] => []
  | selection :: rest => selection.print :: printSelections rest

end

/-! ### Definitions -/

def VariableDefinition.print (definition : VariableDefinition) : String :=
  (definition.description.map (·.print ++ "\n")).getD "" ++ "$" ++ definition.name ++ ": " ++
    definition.type.print ++ (definition.default.map (" = " ++ ·.print)).getD "" ++
    enclose " " (printDirectives definition.directives) ""

/-- Variables on one line, or unindented on lines of their own where one of them needs several. -/
def printVariables (definitions : List VariableDefinition) : String :=
  let items := definitions.map VariableDefinition.print
  if items.any hasNewline then enclose "(\n" ("\n".intercalate items) "\n)"
  else enclose "(" (", ".intercalate items) ")"

/-- An anonymous query without variables, directives and description is its selections alone. -/
def Operation.print (operation : Operation) : String :=
  let head :=
    (operation.description.map (·.print ++ "\n")).getD "" ++
      joinNonEmpty " " [operation.kind.keyword,
        (operation.name.getD "") ++ printVariables operation.variableDefinitions,
        printDirectives operation.directives]
  (if head == "query" then "" else head ++ " ") ++ block (printSelections operation.selections)

def Fragment.print (fragment : Fragment) : String :=
  (fragment.description.map (·.print ++ "\n")).getD "" ++ "fragment " ++ fragment.name ++ " on " ++
    fragment.condition ++ " " ++ enclose "" (printDirectives fragment.directives) " " ++
    block (printSelections fragment.selections)

def Executable.print : Executable → String
  | .operation o => o.print
  | .fragment f => f.print

end OperationLibrary.Syntax
