import OperationLibrary.Proofs.NumberText
import OperationLibrary.Syntax.Parser

/-!
What the grammar allows. A definition that was read has names and numbers of the right form, no more
levels inside one another than there may be, and no variables in constants. Such a definition is
written by its lexemes alone.
-/

namespace OperationLibrary.Syntax

/-! ### Lexemes of definitions -/

/-- The lexeme of a string. -/
def Description.lexeme (literal : Description) : Lexeme :=
  if literal.block then .blockString literal.text else .string literal.text

@[simp] theorem Description.lexeme_inj {literal other : Description} :
    literal.lexeme = other.lexeme ↔ literal = other := by
  obtain ⟨text, _ | _⟩ := literal <;> obtain ⟨otherText, _ | _⟩ := other <;> simp [lexeme]

/-- A string is no mark, no name and no number, and there is one. -/
@[simp] theorem Description.lexeme_ne (literal : Description) :
    (∀ mark, literal.lexeme ≠ .punctuator mark) ∧ (∀ name, literal.lexeme ≠ .name name) ∧
      (∀ digits, literal.lexeme ≠ .int digits) ∧ (∀ digits, literal.lexeme ≠ .float digits) ∧
        literal.lexeme ≠ .eof := by
  obtain ⟨text, _ | _⟩ := literal <;> simp [lexeme]

/-- Items between two marks, or nothing where there are no items. -/
def enclosedLexemes {α : Type} (openMark close : Punctuator) (lexemes : α → List Lexeme)
    (items : List α) : List Lexeme :=
  if items.isEmpty then []
  else .punctuator openMark :: (items.flatMap lexemes ++ [.punctuator close])

theorem Value.sizeOf_field_lt {field : String × Value} {fields : List (String × Value)}
    (h : field ∈ fields) : sizeOf field.2 < sizeOf fields := by
  have hfield := List.sizeOf_lt_of_mem h
  obtain ⟨name, value⟩ := field
  simp only [Prod.mk.sizeOf_spec] at hfield ⊢
  omega

def Value.lexemes : Value → List Lexeme
  | .variable name => [.punctuator .dollar, .name name]
  | .int digits => [.int digits]
  | .float digits => [.float digits]
  | .string text block => [Description.lexeme ⟨text, block⟩]
  | .boolean value => [.name (if value then "true" else "false")]
  | .null => [.name "null"]
  | .enum name => [.name name]
  | .list items =>
    .punctuator .bracketOpen :: (items.flatMap Value.lexemes ++ [.punctuator .bracketClose])
  | .object fields =>
    .punctuator .braceOpen ::
      ((fields.flatMap fun field => .name field.1 :: .punctuator .colon :: field.2.lexemes) ++
        [.punctuator .braceClose])
decreasing_by
  · have hitem := List.sizeOf_lt_of_mem ‹_ ∈ items›
    simp only [Value.list.sizeOf_spec]
    omega
  · have hfield := Value.sizeOf_field_lt ‹_ ∈ fields›
    simp only [Value.object.sizeOf_spec]
    omega

def Argument.lexemes (argument : Argument) : List Lexeme :=
  .name argument.name :: .punctuator .colon :: argument.value.lexemes

def argumentLexemes (arguments : List Argument) : List Lexeme :=
  enclosedLexemes .parenOpen .parenClose Argument.lexemes arguments

def Directive.lexemes (directive : Directive) : List Lexeme :=
  .punctuator .at :: .name directive.name :: argumentLexemes directive.arguments

def directiveLexemes (directives : List Directive) : List Lexeme :=
  directives.flatMap Directive.lexemes

def TypeRef.lexemes : TypeRef → List Lexeme
  | .named name => [.name name]
  | .list item => .punctuator .bracketOpen :: (item.lexemes ++ [.punctuator .bracketClose])
  | .nonNull inner => inner.lexemes ++ [.punctuator .bang]

def FieldHead.lexemes (head : FieldHead) : List Lexeme :=
  ((head.aliasName.map fun name => [.name name, .punctuator .colon]).getD [] : List Lexeme) ++
    .name head.name :: (argumentLexemes head.arguments ++ directiveLexemes head.directives)

def conditionLexemes (condition : Option String) : List Lexeme :=
  (condition.map fun name => [.name "on", .name name]).getD []

def Selection.lexemes : Selection → List Lexeme
  | .field head none => head.lexemes
  | .field head (some selections) =>
    head.lexemes ++
      .punctuator .braceOpen :: (selections.flatMap Selection.lexemes ++ [.punctuator .braceClose])
  | .spread fragment directives =>
    .punctuator .ellipsis :: .name fragment :: directiveLexemes directives
  | .inline condition directives selections =>
    .punctuator .ellipsis :: (conditionLexemes condition ++ (directiveLexemes directives ++
      .punctuator .braceOpen ::
        (selections.flatMap Selection.lexemes ++ [.punctuator .braceClose])))

def selectionLexemes (selections : List Selection) : List Lexeme :=
  .punctuator .braceOpen :: (selections.flatMap Selection.lexemes ++ [.punctuator .braceClose])

def descriptionLexemes (description : Option Description) : List Lexeme :=
  (description.map Description.lexeme).toList

def VariableDefinition.lexemes (definition : VariableDefinition) : List Lexeme :=
  descriptionLexemes definition.description ++
    .punctuator .dollar :: .name definition.name :: .punctuator .colon ::
      (definition.type.lexemes ++
        ((definition.default.map fun value => .punctuator .equals :: value.lexemes).getD [] ++
          directiveLexemes definition.directives))

/-- Whether an operation is a query that is its selections alone. -/
def Operation.isShort (operation : Operation) : Bool :=
  operation.description.isNone && operation.kind = .query && operation.name.isNone &&
    operation.variableDefinitions.isEmpty && operation.directives.isEmpty

/-- What stands in front of the selections of an operation that is not short. -/
def Operation.headLexemes (operation : Operation) : List Lexeme :=
  descriptionLexemes operation.description ++
    .name operation.kind.keyword :: ((operation.name.map Lexeme.name).toList ++
      (enclosedLexemes .parenOpen .parenClose VariableDefinition.lexemes
          operation.variableDefinitions ++
        directiveLexemes operation.directives))

def Operation.lexemes (operation : Operation) : List Lexeme :=
  if operation.isShort then selectionLexemes operation.selections
  else operation.headLexemes ++ selectionLexemes operation.selections

def Fragment.lexemes (fragment : Fragment) : List Lexeme :=
  descriptionLexemes fragment.description ++
    .name "fragment" :: .name fragment.name :: .name "on" :: .name fragment.condition ::
      (directiveLexemes fragment.directives ++ selectionLexemes fragment.selections)

def Executable.lexemes : Executable → List Lexeme
  | .operation o => o.lexemes
  | .fragment f => f.lexemes

/-- A name or a number of the right form, or a string that satisfies `p`. -/
def Lexeme.WellFormed (p : Description → Prop) : Lexeme → Prop
  | .name text => IsName text
  | .int digits => IsNumber digits.toList false
  | .float digits => IsNumber digits.toList true
  | .string text => p ⟨text, false⟩
  | .blockString text => p ⟨text, true⟩
  | _ => True

/-! ### Definitions of the grammar

The strings of a definition satisfy `p`. Inside a constant there are no variables; `room` is how
many more levels may be opened. -/

section

variable (p : Description → Prop)

inductive Value.Fits (constant : Bool) : Nat → Value → Prop where
  | variable {room : Nat} {name : String} :
      constant = false → IsName name → Fits constant room (.variable name)
  | int {room : Nat} {digits : String} :
      IsNumber digits.toList false → Fits constant room (.int digits)
  | float {room : Nat} {digits : String} :
      IsNumber digits.toList true → Fits constant room (.float digits)
  | string {room : Nat} {text : String} {block : Bool} :
      p ⟨text, block⟩ → Fits constant room (.string text block)
  | boolean {room : Nat} (value : Bool) : Fits constant room (.boolean value)
  | null {room : Nat} : Fits constant room .null
  | enum {room : Nat} {name : String} :
      IsName name → name ∉ ["true", "false", "null"] → Fits constant room (.enum name)
  | list {room : Nat} {items : List Value} :
      (∀ item ∈ items, Fits constant room item) → Fits constant (room + 1) (.list items)
  | object {room : Nat} {fields : List (String × Value)} :
      (∀ field ∈ fields, IsName field.1) → (∀ field ∈ fields, Fits constant room field.2) →
        Fits constant (room + 1) (.object fields)

structure Argument.Fits (constant : Bool) (room : Nat) (argument : Argument) : Prop where
  name : IsName argument.name
  value : argument.value.Fits p constant room

structure Directive.Fits (constant : Bool) (room : Nat) (directive : Directive) : Prop where
  name : IsName directive.name
  arguments : ∀ argument ∈ directive.arguments, argument.Fits p constant room

inductive TypeRef.Fits : Nat → TypeRef → Prop where
  | named {room : Nat} {name : String} : IsName name → Fits room (.named name)
  | list {room : Nat} {item : TypeRef} : Fits room item → Fits (room + 1) (.list item)
  | nonNull {room : Nat} {inner : TypeRef} :
      Fits room inner → inner.isNonNull = false → Fits room (.nonNull inner)

structure FieldHead.Fits (room : Nat) (head : FieldHead) : Prop where
  aliasName : ∀ name ∈ head.aliasName, IsName name
  name : IsName head.name
  arguments : ∀ argument ∈ head.arguments, argument.Fits p false room
  directives : ∀ directive ∈ head.directives, directive.Fits p false room

inductive Selection.Fits : Nat → Selection → Prop where
  | leaf {room : Nat} {head : FieldHead} : head.Fits p room → Fits room (.field head none)
  | field {room : Nat} {head : FieldHead} {selections : List Selection} :
      head.Fits p (room + 1) → (∀ selection ∈ selections, Fits room selection) →
        Fits (room + 1) (.field head (some selections))
  | spread {room : Nat} {fragment : String} {directives : List Directive} :
      IsName fragment → fragment ≠ "on" →
        (∀ directive ∈ directives, directive.Fits p false room) →
          Fits room (.spread fragment directives)
  | inline {room : Nat} {condition : Option String} {directives : List Directive}
      {selections : List Selection} :
      (∀ name ∈ condition, IsName name) →
        (∀ directive ∈ directives, directive.Fits p false (room + 1)) →
          (∀ selection ∈ selections, Fits room selection) →
            Fits (room + 1) (.inline condition directives selections)

/-- A selection set opens a level of its own. -/
def SelectionsFit : Nat → List Selection → Prop
  | 0, _ => False
  | room + 1, selections => ∀ selection ∈ selections, selection.Fits p room

structure VariableDefinition.Fits (definition : VariableDefinition) : Prop where
  description : ∀ description ∈ definition.description, p description
  name : IsName definition.name
  type : definition.type.Fits nestingLimit
  default : ∀ value ∈ definition.default, value.Fits p true nestingLimit
  directives : ∀ directive ∈ definition.directives, directive.Fits p true nestingLimit

structure Operation.Fits (operation : Operation) : Prop where
  description : ∀ description ∈ operation.description, p description
  name : ∀ name ∈ operation.name, IsName name
  variableDefinitions : ∀ definition ∈ operation.variableDefinitions, definition.Fits p
  directives : ∀ directive ∈ operation.directives, directive.Fits p false nestingLimit
  selections : SelectionsFit p nestingLimit operation.selections

structure Fragment.Fits (fragment : Fragment) : Prop where
  description : ∀ description ∈ fragment.description, p description
  name : IsName fragment.name
  not_on : fragment.name ≠ "on"
  condition : IsName fragment.condition
  directives : ∀ directive ∈ fragment.directives, directive.Fits p false nestingLimit
  selections : SelectionsFit p nestingLimit fragment.selections

def Executable.Fits : Executable → Prop
  | .operation o => o.Fits p
  | .fragment f => f.Fits p

end

end OperationLibrary.Syntax
