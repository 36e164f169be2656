import OperationLibrary.Syntax.Parser
import OperationLibrary.Syntax.Token.Scanner

/-!
Reading the definitions of a type system and whole documents. A definition may have a description
in front of its keyword; an extension may not, and must extend something.
-/

namespace OperationLibrary.Syntax

open Reader

/-! ### Parts of type definitions -/

/-- An argument with a constant value, and how many characters are in front of that value. -/
def readPlacedArgument : Reader (Argument × Nat) := do
  let name ← takeName
  takeMark .colon
  let start ← current
  return (⟨name, ← readValue true nestingLimit⟩, start.offset)

def readPlacedDirective : Reader PlacedDirective := do
  let start ← current
  takeMark .at
  let name ← takeName
  let arguments ← betweenIfOpen .parenOpen .parenClose readPlacedArgument
  return ⟨⟨name, arguments.map Prod.fst⟩, start.offset, arguments.map Prod.snd⟩

def readPlacedDirectives : Reader (List PlacedDirective) :=
  whileMark .at readPlacedDirective

def readInputValue : Reader InputValueDefinition := do
  let description ← readDescription?
  let name ← takeName
  takeMark .colon
  let type ← readTypeRef nestingLimit
  let default ← if ← takeMark? .equals then some <$> readValue true nestingLimit else pure none
  return ⟨description, name, type, default, ← readPlacedDirectives⟩

def readFieldDefinition : Reader FieldDefinition := do
  let description ← readDescription?
  let name ← takeName
  let arguments ← betweenIfOpen .parenOpen .parenClose readInputValue
  takeMark .colon
  let type ← readTypeRef nestingLimit
  return ⟨description, name, arguments, type, ← readPlacedDirectives⟩

/-- The name of an enum value, which may not be one of the other constants. -/
def readEnumValueName : Reader String := do
  let token ← current
  if token.lexeme.text? ∈ [some "true", some "false", some "null"] then
    fail (.reservedEnumValue token.lexeme) token.offset
  else takeName

def readEnumValue : Reader EnumValueDefinition := do
  let description ← readDescription?
  let name ← readEnumValueName
  return ⟨description, name, ← readPlacedDirectives⟩

def readInterfaces : Reader (List String) := do
  if ← takeKeyword? "implements" then separatedBy .ampersand takeName else return []

def readFields : Reader (List FieldDefinition) :=
  betweenIfOpen .braceOpen .braceClose readFieldDefinition

def readMembers : Reader (List String) := do
  if ← takeMark? .equals then separatedBy .pipe takeName else return []

def readRootType : Reader RootType := do
  let kind ← readOperationKind
  takeMark .colon
  return ⟨kind, ← takeName⟩

/-- Keywords that start the definition of a type. -/
def isTypeKeyword (word : String) : Bool :=
  ["scalar", "type", "interface", "union", "enum", "input"].contains word

/-- Keyword, name, directives and body of a type; the keyword is one of `isTypeKeyword`. -/
def readType (description : Option Description) : Reader TypeDefinition := do
  let word ← takeName
  let name ← takeName
  match word with
  | "type" =>
    let interfaces ← readInterfaces
    let directives ← readPlacedDirectives
    return ⟨description, name, directives, .object interfaces (← readFields)⟩
  | "interface" =>
    let interfaces ← readInterfaces
    let directives ← readPlacedDirectives
    return ⟨description, name, directives, .interface interfaces (← readFields)⟩
  | "union" =>
    let directives ← readPlacedDirectives
    return ⟨description, name, directives, .union (← readMembers)⟩
  | "enum" =>
    let directives ← readPlacedDirectives
    let values ← betweenIfOpen .braceOpen .braceClose readEnumValue
    return ⟨description, name, directives, .enum values⟩
  | "input" =>
    let directives ← readPlacedDirectives
    let fields ← betweenIfOpen .braceOpen .braceClose readInputValue
    return ⟨description, name, directives, .input fields⟩
  | _ => return ⟨description, name, ← readPlacedDirectives, .scalar⟩

/-! ### Definitions -/

def readSchema (description : Option Description) : Reader SchemaDefinition := do
  takeKeyword "schema"
  let directives ← readPlacedDirectives
  takeMark .braceOpen
  let first ← readRootType
  let others ← untilMark .braceClose readRootType
  return ⟨description, directives, first :: others⟩

/-- The places a directive may be put at. -/
def directiveLocations : List String :=
  ["QUERY", "MUTATION", "SUBSCRIPTION", "FIELD", "FRAGMENT_DEFINITION", "FRAGMENT_SPREAD",
    "INLINE_FRAGMENT", "VARIABLE_DEFINITION", "SCHEMA", "SCALAR", "OBJECT", "FIELD_DEFINITION",
    "ARGUMENT_DEFINITION", "INTERFACE", "UNION", "ENUM", "ENUM_VALUE", "INPUT_OBJECT",
    "INPUT_FIELD_DEFINITION", "DIRECTIVE_DEFINITION", "FRAGMENT_VARIABLE_DEFINITION"]

def readDirectiveLocation : Reader String := do
  let token ← current
  let name ← takeName
  if directiveLocations.contains name then return name
  else fail (.unexpected token.lexeme) token.offset

def readDirectiveDefinition (description : Option Description) : Reader DirectiveDefinition := do
  takeKeyword "directive"
  takeMark .at
  let name ← takeName
  let arguments ← betweenIfOpen .parenOpen .parenClose readInputValue
  let directives ← readPlacedDirectives
  let repeatable ← takeKeyword? "repeatable"
  takeKeyword "on"
  let locations ← separatedBy .pipe readDirectiveLocation
  return ⟨description, name, arguments, directives, repeatable, locations⟩

/-- Whether an extension adds anything besides directives. -/
def TypeBody.isEmpty : TypeBody → Bool
  | .scalar => true
  | .object interfaces fields => interfaces.isEmpty && fields.isEmpty
  | .interface interfaces fields => interfaces.isEmpty && fields.isEmpty
  | .union members => members.isEmpty
  | .enum values => values.isEmpty
  | .input fields => fields.isEmpty

def readExtension : Reader TypeSystem := do
  let keyword ← lookahead
  match keyword.lexeme with
  | .name "schema" =>
    takeKeyword "extend"
    takeKeyword "schema"
    let directives ← readPlacedDirectives
    let roots ← betweenIfOpen .braceOpen .braceClose readRootType
    if directives.isEmpty && roots.isEmpty then unexpected
    else return .extendSchema ⟨none, directives, roots⟩
  | .name "directive" =>
    takeKeyword "extend"
    takeKeyword "directive"
    takeMark .at
    let name ← takeName
    let directives ← readPlacedDirectives
    if directives.isEmpty then unexpected else return .extendDirective ⟨name, directives⟩
  | .name word =>
    if isTypeKeyword word then
      takeKeyword "extend"
      let type ← readType none
      if type.directives.isEmpty && type.body.isEmpty then unexpected
      else return .extendType type
    else fail (.unexpected keyword.lexeme) keyword.offset
  | _ => fail (.unexpected keyword.lexeme) keyword.offset

def readTypeSystem (word : String) : Reader TypeSystem := do
  let description ← readDescription?
  match word with
  | "schema" => return .schema (← readSchema description)
  | "directive" => return .directive (← readDirectiveDefinition description)
  | _ => return .type (← readType description)

/-- Whether a word starts a definition of the type system. -/
def isTypeSystemKeyword (word : String) : Bool :=
  word == "schema" || word == "directive" || isTypeKeyword word

/-- The definition that a keyword starts; `start` is the first token, which is the keyword itself
or the description in front of it. -/
def readDefinitionOf (start keyword : Token) (described : Bool) : Reader Definition :=
  match keyword.lexeme with
  | .punctuator .braceOpen => fail .descriptionOnShorthand start.offset
  | .name word => do
    if isTypeSystemKeyword word then return .typeSystem (← readTypeSystem word)
    else if (OperationKind.ofKeyword? word).isSome then
      return .executable (.operation (← readOperation))
    else if word == "fragment" then return .executable (.fragment (← readFragment))
    else if described then fail .descriptionOnUnknown start.offset
    else if word == "extend" then return .typeSystem (← readExtension)
    else fail (.unexpected keyword.lexeme) keyword.offset
  | _ => fail (.unexpected keyword.lexeme) keyword.offset

def readDefinition : Reader Definition := do
  if ← atMark .braceOpen then return .executable (.operation (← readOperation))
  else
    let start ← current
    match start.lexeme with
    | .string _ | .blockString _ => readDefinitionOf start (← lookahead) true
    | _ => readDefinitionOf start start false

def readDefinitionsBounded : Nat → Reader (List Definition)
  | 0 => unexpected
  | rounds + 1 => do
    let first ← readDefinition
    if (← current).lexeme = .eof then return [first]
    else return first :: (← readDefinitionsBounded rounds)

/-- One definition or more, up to the end of the text. -/
def readDocument : Reader Document := do
  readDefinitionsBounded ((← get).later.length + 1)

/-- Reads from the first token on. -/
def Reader.run {α : Type} (reader : Reader α) (source : String) : Except SyntaxError α :=
  match Token.scan source with
  | [] => .error ⟨.unexpected .eof, 0⟩
  | ⟨.invalid fault, offset⟩ :: _ => .error ⟨.scan fault, offset⟩
  | first :: later => (StateT.run' reader ⟨first, later⟩ : Except SyntaxError α)

/-- The definitions of a source text. -/
def Document.parse (source : String) : Except SyntaxError Document :=
  readDocument.run source

/-- Reads the whole text. -/
def Reader.runWhole {α : Type} (reader : Reader α) (source : String) : Except SyntaxError α :=
  Reader.run (do
    let value ← reader
    let token ← current
    if token.lexeme = .eof then return value
    else fail (.expected .endOfText token.lexeme) token.offset) source

/-- A type reference that is the whole text. -/
def TypeRef.parse (source : String) : Except SyntaxError TypeRef :=
  Reader.runWhole (readTypeRef nestingLimit) source

/-- A constant that is the whole text. -/
def Value.parseConstant (source : String) : Except SyntaxError Value :=
  Reader.runWhole (readValue true nestingLimit) source

end OperationLibrary.Syntax
