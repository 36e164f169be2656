import OperationLibrary.Syntax.Ast
import OperationLibrary.Syntax.Cursor

/-!
Reading values, types, directives, selections and executable definitions. Selection sets, list and
object values and list types may be open inside one another up to a limit; the readers count down
how many more may be opened, and that count is what the recursion goes by.
-/

namespace OperationLibrary.Syntax

open Reader

/-- How many brackets and braces may be open at once. -/
def nestingLimit : Nat := 200

/-- Fails at the current token, which opens one level too many. -/
def Reader.tooDeep {α : Type} : Reader α := do
  fail .tooDeep (← current).offset

/-! ### Values -/

/-- A variable, which a constant may not hold. -/
def readVariable (constant : Bool) : Reader Value := do
  let dollar ← current
  takeMark .dollar
  if constant then
    match (← current).lexeme with
    | .name name => fail (.variableInConstant name) dollar.offset
    | _ => fail (.unexpected dollar.lexeme) dollar.offset
  else return .variable (← takeName)

/-- A value of one token. -/
def readLeaf : Reader Value := do
  let value : Value ← match (← current).lexeme with
    | .int digits => pure (.int digits)
    | .float digits => pure (.float digits)
    | .string text => pure (.string text false)
    | .blockString text => pure (.string text true)
    | .name "true" => pure (.boolean true)
    | .name "false" => pure (.boolean false)
    | .name "null" => pure .null
    | .name name => pure (.enum name)
    | _ => unexpected
  advance
  return value

/-- A value inside which `room` more levels may be opened. -/
def readValue (constant : Bool) : Nat → Reader Value
  | 0 => do
    match (← current).lexeme with
    | .punctuator .bracketOpen | .punctuator .braceOpen => tooDeep
    | .punctuator .dollar => readVariable constant
    | _ => readLeaf
  | room + 1 => do
    match (← current).lexeme with
    | .punctuator .bracketOpen =>
      return .list (← between .bracketOpen .bracketClose (readValue constant room))
    | .punctuator .braceOpen =>
      return .object (← between .braceOpen .braceClose (readObjectField (readValue constant room)))
    | .punctuator .dollar => readVariable constant
    | _ => readLeaf
where
  readObjectField (value : Reader Value) : Reader (String × Value) := do
    let name ← takeName
    takeMark .colon
    return (name, ← value)

def readArgument (constant : Bool) (room : Nat) : Reader Argument := do
  let name ← takeName
  takeMark .colon
  return ⟨name, ← readValue constant room⟩

def readArguments (constant : Bool) (room : Nat) : Reader (List Argument) :=
  betweenIfOpen .parenOpen .parenClose (readArgument constant room)

def readDirective (constant : Bool) (room : Nat) : Reader Directive := do
  takeMark .at
  let name ← takeName
  return ⟨name, ← readArguments constant room⟩

def readDirectives (constant : Bool) (room : Nat) : Reader (List Directive) :=
  whileMark .at (readDirective constant room)

/-! ### Types -/

/-- Adds the mark of a type that is never null. -/
def readNonNullMark (type : TypeRef) : Reader TypeRef := do
  if ← takeMark? .bang then return .nonNull type else return type

def readTypeRef : Nat → Reader TypeRef
  | 0 => do
    if ← takeMark? .bracketOpen then tooDeep
    else readNonNullMark (.named (← takeName))
  | room + 1 => do
    if ← takeMark? .bracketOpen then
      let item ← readTypeRef room
      takeMark .bracketClose
      readNonNullMark (.list item)
    else readNonNullMark (.named (← takeName))

/-! ### Selections -/

def readDescription? : Reader (Option Description) := do
  match (← current).lexeme with
  | .string text =>
    advance
    return some ⟨text, false⟩
  | .blockString text =>
    advance
    return some ⟨text, true⟩
  | _ => return none

/-- The name of a fragment, which may not be `on`. -/
def readFragmentName : Reader String := do
  if (← current).lexeme.text? = some "on" then unexpected else takeName

/-- The alias, if there is one, and the name of a field. -/
def readFieldName : Reader (Option String × String) := do
  let first ← takeName
  if ← takeMark? .colon then return (some first, ← takeName) else return (none, first)

/-- A selection whose own selections are read by `selections`. -/
def readSelectionWith (selections : Reader (List Selection)) (room : Nat) : Reader Selection := do
  if ← takeMark? .ellipsis then
    if ← takeKeyword? "on" then
      let condition ← takeName
      let directives ← readDirectives false room
      return .inline (some condition) directives (← selections)
    else if ← atName then
      let name ← readFragmentName
      return .spread name (← readDirectives false room)
    else
      let directives ← readDirectives false room
      return .inline none directives (← selections)
  else
    let (aliasName, name) ← readFieldName
    let arguments ← readArguments false room
    let directives ← readDirectives false room
    let inner ← if ← atMark .braceOpen then some <$> selections else pure none
    return .field ⟨aliasName, name, arguments, directives⟩ inner

/-- A selection set that may open `room` levels, its own included. Without room nothing is read,
whatever stands there. -/
def readSelections : Nat → Reader (List Selection)
  | 0 => tooDeep
  | room + 1 =>
    between .braceOpen .braceClose (readSelectionWith (readSelections room) room)

/-! ### Executable definitions -/

def readVariableDefinition : Reader VariableDefinition := do
  let description ← readDescription?
  takeMark .dollar
  let name ← takeName
  takeMark .colon
  let type ← readTypeRef nestingLimit
  let default ← if ← takeMark? .equals then some <$> readValue true nestingLimit else pure none
  let directives ← readDirectives true nestingLimit
  return ⟨description, name, type, default, directives⟩

def readOperationKind : Reader OperationKind := do
  let token ← current
  let word ← takeName
  match OperationKind.ofKeyword? word with
  | some kind => return kind
  | none => fail (.unexpected token.lexeme) token.offset

def readOperation : Reader Operation := do
  if ← atMark .braceOpen then
    return ⟨none, .query, none, [], [], ← readSelections nestingLimit⟩
  else
    let description ← readDescription?
    let kind ← readOperationKind
    let name ← if ← atName then some <$> takeName else pure none
    let variableDefinitions ← betweenIfOpen .parenOpen .parenClose readVariableDefinition
    let directives ← readDirectives false nestingLimit
    return ⟨description, kind, name, variableDefinitions, directives, ← readSelections nestingLimit⟩

def readFragment : Reader Fragment := do
  let description ← readDescription?
  takeKeyword "fragment"
  let name ← readFragmentName
  takeKeyword "on"
  let condition ← takeName
  let directives ← readDirectives false nestingLimit
  return ⟨description, name, condition, directives, ← readSelections nestingLimit⟩

end OperationLibrary.Syntax
