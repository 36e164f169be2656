import Mathlib.Data.Set.Basic
import OperationLibrary.Proofs.Grammar
import OperationLibrary.Shape.Variables

/-!
Where an operation binds its variables. A variable is bound to the argument that it is the value of,
and to the field of an input object that it is the value of, whatever lists and objects stand around
it. What is collected about a variable on the way through an operation is what the places say that
it is bound to. Only the arguments of a directive that the schema does not know are taken for
others, those of the field around it.
-/

namespace OperationLibrary

open Syntax

/-! ### Values -/

/-- The field that an input object at a place of this type has under a name. -/
def Schema.inputField? (schema : Schema) (type : TypeRef) (name : String) : Option InputField :=
  (inputFieldsOf? schema (some type)).bind fun fields => fields.find? (·.name == name)

/-- Somewhere in a value at a place of this type, the variable is the value of an input field that
says this. -/
inductive ValueBinds (schema : Schema) (name : String) (said : Explanation) :
    TypeRef → Value → Prop
  | item {type : TypeRef} {items : List Value} {value : Value} (mem : value ∈ items)
      (inside : ValueBinds schema name said (itemType type) value) :
      ValueBinds schema name said type (.list items)
  | field {type : TypeRef} {fields : List (String × Value)} {key : String} {field : InputField}
      (mem : (key, .variable name) ∈ fields) (known : schema.inputField? type key = some field)
      (described : field.description = some said) :
      ValueBinds schema name said type (.object fields)
  | inside {type : TypeRef} {fields : List (String × Value)} {key : String} {value : Value}
      {field : InputField} (mem : (key, value) ∈ fields)
      (known : schema.inputField? type key = some field)
      (inside : ValueBinds schema name said field.type value) :
      ValueBinds schema name said type (.object fields)

section

variable {schema : Schema} {name : String} {said : Explanation}

theorem itemType_base (type : TypeRef) : (itemType type).base = type.base := by
  cases type with
  | named | list => rfl
  | nonNull inner => cases inner <;> rfl

theorem inputTypeOnly_eq_some {type place : TypeRef} :
    inputTypeOnly schema type = some place ↔
      (schema.get? type.base).any NamedType.isInput ∧ type = place := by
  rw [inputTypeOnly]
  split <;> simp_all

theorem isInput_of_inputField? {type : TypeRef} {key : String} {field : InputField}
    (h : schema.inputField? type key = some field) :
    (schema.get? type.base).any NamedType.isInput := by
  rw [Schema.inputField?, inputFieldsOf?, Option.bind_some] at h
  obtain ⟨fields, hfields, -⟩ := Option.bind_eq_some_iff.mp h
  obtain ⟨found, hget, hinput⟩ := Option.bind_eq_some_iff.mp hfields
  rw [hget, Option.any_some, NamedType.isInput]
  rw [NamedType.inputFields?] at hinput
  split at hinput
  case h_1 hcontent => rw [hcontent]
  case h_2 => contradiction

/-- Variables are bound only at places for input. -/
theorem ValueBinds.isInput {type : TypeRef} {value : Value}
    (h : ValueBinds schema name said type value) :
    (schema.get? type.base).any NamedType.isInput := by
  induction h with
  | item _ _ ih => rwa [itemType_base] at ih
  | field _ hfield _ | inside _ hfield _ => exact isInput_of_inputField? hfield

theorem ValueBinds.inputTypeOnly {type : TypeRef} {value : Value}
    (h : ValueBinds schema name said type value) : inputTypeOnly schema type = some type :=
  inputTypeOnly_eq_some.mpr ⟨h.isInput, rfl⟩

theorem usagesInItems_eq_flatMap (type : Option TypeRef) (items : List Value) :
    usagesInItems schema type items = items.flatMap (usagesInValue schema type) := by
  induction items with
  | nil => rw [usagesInItems, List.flatMap_nil]
  | cons item rest ih => rw [usagesInItems, List.flatMap_cons, ih]

/-- The field of an input object with a name, among those that are known there. -/
def knownField? (known : Option (List InputField)) (key : String) : Option InputField :=
  known.bind fun fields => fields.find? (·.name == key)

/-- What is bound at a field of an input object itself. -/
def boundHere (known : Option (List InputField)) (key : String) : Value → List Usage
  | .variable name =>
    known.toList.map fun _ => .variable ⟨name, (knownField? known key).bind InputField.description⟩
  | _ => []

/-- The usages that one field of an input object makes. -/
def usagesInField (schema : Schema) (known : Option (List InputField)) (entry : String × Value) :
    List Usage :=
  boundHere known entry.1 entry.2 ++
    usagesInValue schema ((knownField? known entry.1).bind fun f => inputTypeOnly schema f.type)
      entry.2

theorem usagesInFields_eq_flatMap (known : Option (List InputField))
    (fields : List (String × Value)) :
    usagesInFields schema known fields = fields.flatMap (usagesInField schema known) := by
  induction fields with
  | nil => rw [usagesInFields, List.flatMap_nil]
  | cons field rest ih =>
    obtain ⟨key, value⟩ := field
    rw [List.flatMap_cons, ← ih]
    cases known <;> cases value <;> simp [usagesInFields, usagesInField, boundHere, knownField?]

theorem knownField?_eq_some {type : Option TypeRef} {key : String} {field : InputField} :
    knownField? (inputFieldsOf? schema type) key = some field ↔
      ∃ place, type = some place ∧ schema.inputField? place key = some field := by
  cases type with
  | none => simp [knownField?, inputFieldsOf?]
  | some type => simp [knownField?, Schema.inputField?]

theorem mem_boundHere {known : Option (List InputField)} {key : String} {value : Value} :
    Usage.variable ⟨name, some said⟩ ∈ boundHere known key value ↔ value = .variable name ∧
      ∃ field, knownField? known key = some field ∧ field.description = some said := by
  cases value with
  | «variable» other =>
    cases known with
    | none => simp [boundHere, knownField?]
    | some fields =>
      simp only [boundHere, Option.toList_some, List.map_cons, List.map_nil, List.mem_singleton,
        Usage.variable.injEq, VariableBinding.mk.injEq, Value.variable.injEq]
      rw [eq_comm, ← Option.bind_eq_some_iff, eq_comm (a := some said)]
  | _ => simp [boundHere]

/-- What a value binds at a place is collected there. -/
theorem ValueBinds.mem_usages {type : TypeRef} {value : Value}
    (h : ValueBinds schema name said type value) :
    Usage.variable ⟨name, some said⟩ ∈ usagesInValue schema (some type) value := by
  induction h with
  | item hmem hinside ih =>
    rw [usagesInValue, usagesInItems_eq_flatMap, List.mem_flatMap, Option.map_some,
      Option.bind_some, hinside.inputTypeOnly]
    exact ⟨_, hmem, ih⟩
  | field hmem hfield hsaid =>
    rw [usagesInValue, usagesInFields_eq_flatMap, List.mem_flatMap]
    exact ⟨_, hmem, List.mem_append_left _ (mem_boundHere.mpr ⟨rfl, _, hfield, hsaid⟩)⟩
  | inside hmem hfield hinside ih =>
    rw [usagesInValue, usagesInFields_eq_flatMap, List.mem_flatMap]
    refine ⟨_, hmem, List.mem_append_right _ ?_⟩
    rw [knownField?_eq_some.mpr ⟨_, rfl, hfield⟩, Option.bind_some, hinside.inputTypeOnly]
    exact ih

/-- Nothing is collected in a value but what it binds, and nothing at all where nothing is known of
its place. -/
theorem binds_of_mem_usagesInValue (type : Option TypeRef) (value : Value)
    (h : Usage.variable ⟨name, some said⟩ ∈ usagesInValue schema type value) :
    ∃ place, type = some place ∧ ValueBinds schema name said place value := by
  -- by recursion on the value; the type changes with every level and may become unknown
  cases value with
  | list items =>
    rw [usagesInValue, usagesInItems_eq_flatMap, List.mem_flatMap] at h
    obtain ⟨item, hmem, hitem⟩ := h
    obtain ⟨inner, hinner, hbinds⟩ := binds_of_mem_usagesInValue _ item hitem
    obtain ⟨_, htype, hinput⟩ := Option.bind_eq_some_iff.mp hinner
    obtain ⟨place, rfl, rfl⟩ := Option.map_eq_some_iff.mp htype
    obtain ⟨-, rfl⟩ := inputTypeOnly_eq_some.mp hinput
    exact ⟨place, rfl, .item hmem hbinds⟩
  | object fields =>
    rw [usagesInValue, usagesInFields_eq_flatMap, List.mem_flatMap] at h
    obtain ⟨⟨key, value⟩, hmem, hvalue⟩ := h
    rcases List.mem_append.mp hvalue with hhere | hinside
    · obtain ⟨rfl, field, hfield, hsaid⟩ := mem_boundHere.mp hhere
      obtain ⟨place, rfl, hfield⟩ := knownField?_eq_some.mp hfield
      exact ⟨place, rfl, .field hmem hfield hsaid⟩
    · obtain ⟨inner, hinner, hbinds⟩ := binds_of_mem_usagesInValue _ value hinside
      obtain ⟨field, hfield, hinput⟩ := Option.bind_eq_some_iff.mp hinner
      obtain ⟨-, rfl⟩ := inputTypeOnly_eq_some.mp hinput
      obtain ⟨place, rfl, hfield⟩ := knownField?_eq_some.mp hfield
      exact ⟨place, rfl, .inside hmem hfield hbinds⟩
  | _ => simp [usagesInValue] at h
termination_by sizeOf value
decreasing_by
  all_goals subst_vars
  · have hitem := List.sizeOf_lt_of_mem hmem
    rw [Value.list.sizeOf_spec]
    omega
  · have hfield := Value.sizeOf_field_lt hmem
    rw [Value.object.sizeOf_spec]
    exact Nat.lt_add_left 1 hfield

theorem mem_usagesInValue {type : Option TypeRef} {value : Value} :
    Usage.variable ⟨name, some said⟩ ∈ usagesInValue schema type value ↔
      ∃ place, type = some place ∧ ValueBinds schema name said place value := by
  constructor
  · exact binds_of_mem_usagesInValue type value
  · rintro ⟨place, rfl, h⟩
    exact h.mem_usages

/-! ### Arguments -/

/-- An argument, out of these that are declared, binds the variable to something that says this: to
the argument itself, or to an input field in its value. -/
def ArgumentBinds (schema : Schema) (declared : List InputField) (name : String)
    (said : Explanation) (argument : Argument) : Prop :=
  ∃ input, declared.find? (·.name == argument.name) = some input ∧
    (argument.value = .variable name ∧ input.description = some said ∨
      ValueBinds schema name said input.type argument.value)

theorem mem_usagesInArguments {known : List InputField} {arguments : List Argument} :
    Usage.variable ⟨name, some said⟩ ∈ usagesInArguments schema known arguments ↔
      ∃ argument ∈ arguments, ArgumentBinds schema known name said argument := by
  rw [usagesInArguments, List.mem_flatMap]
  refine exists_congr fun argument => and_congr_right fun _ => ?_
  rw [List.mem_append, mem_usagesInValue]
  constructor
  · rintro (hhere | ⟨place, hplace, hbinds⟩)
    · split at hhere
      case h_1 hvalue =>
        rw [List.mem_singleton, Usage.variable.injEq, VariableBinding.mk.injEq] at hhere
        obtain ⟨rfl, hsaid⟩ := hhere
        obtain ⟨input, hfind, hinput⟩ := Option.bind_eq_some_iff.mp hsaid.symm
        exact ⟨input, hfind, .inl ⟨hvalue, hinput⟩⟩
      case h_2 => exact absurd hhere List.not_mem_nil
    · obtain ⟨input, hfind, hinput⟩ := Option.bind_eq_some_iff.mp hplace
      obtain ⟨-, rfl⟩ := inputTypeOnly_eq_some.mp hinput
      exact ⟨input, hfind, .inr hbinds⟩
  · rintro ⟨input, hfind, ⟨hvalue, hsaid⟩ | hbinds⟩
    · simp [hvalue, hfind, hsaid]
    · right
      exact ⟨_, Option.bind_eq_some_iff.mpr ⟨_, hfind, hbinds.inputTypeOnly⟩, hbinds⟩

/-- What the arguments of a field or of a directive are looked up in. -/
inductive ArgumentOwner where
  | field (known : Option OutputField)
  /-- A directive of this name, inside the field `around`. -/
  | directive (name : String) (around : Option OutputField)

namespace ArgumentOwner

/-- The arguments that the schema declares for a field or a directive. -/
def declared (schema : Schema) : ArgumentOwner → List InputField
  | .field known => declaredArguments known
  | .directive name _ => ((schema.directive? name).map KnownDirective.arguments).getD []

/-- The arguments that are consulted: for a directive that the schema does not know, those of the
field around it. -/
def consulted (schema : Schema) : ArgumentOwner → List InputField
  | .field known => declaredArguments known
  | .directive name around =>
    ((schema.directive? name).map KnownDirective.arguments).getD (declaredArguments around)

end ArgumentOwner

/-- One of these directives, inside the field `around`, has this argument. -/
def DirectivesWrite (around : Option OutputField) (directives : List Directive)
    (owner : ArgumentOwner) (argument : Argument) : Prop :=
  ∃ directive ∈ directives, owner = .directive directive.name around ∧
    argument ∈ directive.arguments

theorem usagesInDirectives_eq_flatMap (around : Option OutputField) (directives : List Directive) :
    usagesInDirectives schema around directives = directives.flatMap fun directive =>
      usagesInArguments schema
        ((ArgumentOwner.directive directive.name around).consulted schema) directive.arguments := by
  rw [usagesInDirectives]
  congr 1
  funext directive
  rw [ArgumentOwner.consulted]
  cases schema.directive? directive.name <;> rfl

theorem mem_usagesInDirectives {around : Option OutputField} {directives : List Directive} :
    Usage.variable ⟨name, some said⟩ ∈ usagesInDirectives schema around directives ↔
      ∃ owner argument, DirectivesWrite around directives owner argument ∧
        ArgumentBinds schema (owner.consulted schema) name said argument := by
  rw [usagesInDirectives_eq_flatMap, List.mem_flatMap]
  simp only [mem_usagesInArguments]
  constructor
  · rintro ⟨directive, hdirective, argument, hargument, hbinds⟩
    exact ⟨_, argument, ⟨directive, hdirective, rfl, hargument⟩, hbinds⟩
  · rintro ⟨owner, argument, ⟨directive, hdirective, rfl, hargument⟩, hbinds⟩
    exact ⟨directive, hdirective, argument, hargument, hbinds⟩

/-! ### Selections -/

/-- The field that a head selects on a type, where both are known. -/
def fieldOn (parent : Option NamedType) (head : FieldHead) : Option OutputField :=
  parent.bind fun type => type.field? head.name

/-- The type that an inline fragment selects on. -/
def Schema.innerType (schema : Schema) (parent : Option NamedType) :
    Option String → Option NamedType
  | none => parent
  | some name => (schema.get? name).filter NamedType.isComposite

/-- A selection on `parent`, inside the field `around`, has this argument somewhere in it. -/
inductive SelectionWrites (schema : Schema) :
    Option OutputField → Option NamedType → Selection → ArgumentOwner → Argument → Prop
  | argument {around : Option OutputField} {parent : Option NamedType} {head : FieldHead}
      {selections : Option (List Selection)} {argument : Argument}
      (mem : argument ∈ head.arguments) :
      SelectionWrites schema around parent (.field head selections) (.field (fieldOn parent head))
        argument
  | fieldDirective {around : Option OutputField} {parent : Option NamedType} {head : FieldHead}
      {selections : Option (List Selection)} {owner : ArgumentOwner} {argument : Argument}
      (written : DirectivesWrite (fieldOn parent head) head.directives owner argument) :
      SelectionWrites schema around parent (.field head selections) owner argument
  | inside {around : Option OutputField} {parent : Option NamedType} {head : FieldHead}
      {selections : List Selection} {selection : Selection} {owner : ArgumentOwner}
      {argument : Argument} (mem : selection ∈ selections)
      (written : SelectionWrites schema (fieldOn parent head)
        (selectedType schema (fieldOn parent head)) selection owner argument) :
      SelectionWrites schema around parent (.field head (some selections)) owner argument
  | spread {around : Option OutputField} {parent : Option NamedType} {fragment : String}
      {directives : List Directive} {owner : ArgumentOwner} {argument : Argument}
      (written : DirectivesWrite around directives owner argument) :
      SelectionWrites schema around parent (.spread fragment directives) owner argument
  | inlineDirective {around : Option OutputField} {parent : Option NamedType}
      {condition : Option String} {directives : List Directive} {selections : List Selection}
      {owner : ArgumentOwner} {argument : Argument}
      (written : DirectivesWrite around directives owner argument) :
      SelectionWrites schema around parent (.inline condition directives selections) owner argument
  | inline {around : Option OutputField} {parent : Option NamedType}
      {condition : Option String} {directives : List Directive} {selections : List Selection}
      {selection : Selection} {owner : ArgumentOwner} {argument : Argument}
      (mem : selection ∈ selections)
      (written : SelectionWrites schema around (schema.innerType parent condition) selection owner
        argument) :
      SelectionWrites schema around parent (.inline condition directives selections) owner argument

theorem usagesInSelections_eq_flatMap (around : Option OutputField) (parent : Option NamedType)
    (selections : List Selection) :
    usagesInSelections schema around parent selections =
      selections.flatMap (usagesInSelection schema around parent) := by
  induction selections with
  | nil => rw [usagesInSelections, List.flatMap_nil]
  | cons selection rest ih => rw [usagesInSelections, List.flatMap_cons, ih]

/-- The usages of a field are those of its arguments, of its directives and of what it selects. -/
theorem usagesInSelection_field (around : Option OutputField) (parent : Option NamedType)
    (head : FieldHead) (selections : Option (List Selection)) :
    usagesInSelection schema around parent (.field head selections) =
      usagesInArguments schema (declaredArguments (fieldOn parent head)) head.arguments ++
        usagesInDirectives schema (fieldOn parent head) head.directives ++
        (selections.getD []).flatMap (usagesInSelection schema (fieldOn parent head)
          (selectedType schema (fieldOn parent head))) := by
  cases selections with
  | none => rw [usagesInSelection, Option.getD_none, List.flatMap_nil, List.append_nil]; rfl
  | some selections => rw [usagesInSelection, usagesInSelections_eq_flatMap]; rfl

theorem usagesInSelection_inline (around : Option OutputField) (parent : Option NamedType)
    (condition : Option String) (directives : List Directive) (selections : List Selection) :
    usagesInSelection schema around parent (.inline condition directives selections) =
      usagesInDirectives schema around directives ++
        selections.flatMap
          (usagesInSelection schema around (schema.innerType parent condition)) := by
  cases condition <;> rw [usagesInSelection, usagesInSelections_eq_flatMap] <;> rfl

/-- What an argument in a selection binds is collected there. -/
theorem SelectionWrites.mem_usages {around : Option OutputField} {parent : Option NamedType}
    {selection : Selection} {owner : ArgumentOwner} {argument : Argument}
    (h : SelectionWrites schema around parent selection owner argument)
    (hbinds : ArgumentBinds schema (owner.consulted schema) name said argument) :
    Usage.variable ⟨name, some said⟩ ∈ usagesInSelection schema around parent selection := by
  induction h with
  | argument hmem =>
    rw [usagesInSelection_field, List.append_assoc]
    exact List.mem_append_left _ (mem_usagesInArguments.mpr ⟨_, hmem, hbinds⟩)
  | fieldDirective hwritten =>
    rw [usagesInSelection_field, List.append_assoc]
    exact List.mem_append_right _ (List.mem_append_left _
      (mem_usagesInDirectives.mpr ⟨_, _, hwritten, hbinds⟩))
  | inside hmem _ ih =>
    rw [usagesInSelection_field]
    exact List.mem_append_right _ (List.mem_flatMap.mpr ⟨_, hmem, ih hbinds⟩)
  | spread hwritten =>
    rw [usagesInSelection]
    exact mem_usagesInDirectives.mpr ⟨_, _, hwritten, hbinds⟩
  | inlineDirective hwritten =>
    rw [usagesInSelection_inline]
    exact List.mem_append_left _ (mem_usagesInDirectives.mpr ⟨_, _, hwritten, hbinds⟩)
  | inline hmem _ ih =>
    rw [usagesInSelection_inline]
    exact List.mem_append_right _ (List.mem_flatMap.mpr ⟨_, hmem, ih hbinds⟩)

/-- Nothing is collected in a selection but what the arguments in it bind. -/
theorem writes_of_mem_usagesInSelection (around : Option OutputField) (parent : Option NamedType)
    (selection : Selection)
    (h : Usage.variable ⟨name, some said⟩ ∈ usagesInSelection schema around parent selection) :
    ∃ owner argument, SelectionWrites schema around parent selection owner argument ∧
      ArgumentBinds schema (owner.consulted schema) name said argument := by
  cases selection with
  | field head selections =>
    rw [usagesInSelection_field, List.append_assoc, List.mem_append, List.mem_append] at h
    rcases h with harguments | hdirectives | hinside
    · obtain ⟨argument, hmem, hbinds⟩ := mem_usagesInArguments.mp harguments
      exact ⟨_, argument, .argument hmem, hbinds⟩
    · obtain ⟨owner, argument, hwritten, hbinds⟩ := mem_usagesInDirectives.mp hdirectives
      exact ⟨owner, argument, .fieldDirective hwritten, hbinds⟩
    · obtain ⟨selection, hmem, hselection⟩ := List.mem_flatMap.mp hinside
      obtain ⟨owner, argument, hwritten, hbinds⟩ :=
        writes_of_mem_usagesInSelection _ _ selection hselection
      cases selections with
      | none => exact absurd hmem List.not_mem_nil
      | some selections => exact ⟨owner, argument, .inside hmem hwritten, hbinds⟩
  | spread fragment directives =>
    rw [usagesInSelection] at h
    obtain ⟨owner, argument, hwritten, hbinds⟩ := mem_usagesInDirectives.mp h
    exact ⟨owner, argument, .spread hwritten, hbinds⟩
  | inline condition directives selections =>
    rw [usagesInSelection_inline, List.mem_append] at h
    rcases h with hdirectives | hinside
    · obtain ⟨owner, argument, hwritten, hbinds⟩ := mem_usagesInDirectives.mp hdirectives
      exact ⟨owner, argument, .inlineDirective hwritten, hbinds⟩
    · obtain ⟨selection, hmem, hselection⟩ := List.mem_flatMap.mp hinside
      obtain ⟨owner, argument, hwritten, hbinds⟩ :=
        writes_of_mem_usagesInSelection _ _ selection hselection
      exact ⟨owner, argument, .inline hmem hwritten, hbinds⟩
termination_by sizeOf selection
decreasing_by
  all_goals subst_vars
  -- a field, which may have no selections, and an inline fragment
  · have hselection := List.sizeOf_lt_of_mem hmem
    cases selections with
    | none => exact absurd hmem List.not_mem_nil
    | some selections =>
      rw [Option.getD_some] at hselection
      rw [Selection.field.sizeOf_spec, Option.some.sizeOf_spec]
      omega
  · have hselection := List.sizeOf_lt_of_mem hmem
    rw [Selection.inline.sizeOf_spec]
    omega

/-! ### Operations -/

/-- The type that operations of a kind select on. -/
def Schema.rootObject? (schema : Schema) (kind : OperationKind) : Option NamedType :=
  (schema.root? kind).filter NamedType.isObject

/-- An operation has this argument somewhere in it. What fragments have is theirs. -/
inductive OperationWrites (schema : Schema) (operation : Operation) :
    ArgumentOwner → Argument → Prop
  | definition {definition : VariableDefinition} {owner : ArgumentOwner} {argument : Argument}
      (mem : definition ∈ operation.variableDefinitions)
      (written : DirectivesWrite none definition.directives owner argument) :
      OperationWrites schema operation owner argument
  | directive {owner : ArgumentOwner} {argument : Argument}
      (written : DirectivesWrite none operation.directives owner argument) :
      OperationWrites schema operation owner argument
  | selection {selection : Selection} {owner : ArgumentOwner} {argument : Argument}
      (mem : selection ∈ operation.selections)
      (written : SelectionWrites schema none (schema.rootObject? operation.kind) selection owner
        argument) :
      OperationWrites schema operation owner argument

/-- An operation binds the variable to something that says this, where `arguments` are those of a
field or directive: in the default value of a variable, or with one of its arguments. -/
inductive OperationBinds (schema : Schema) (arguments : ArgumentOwner → List InputField)
    (operation : Operation) (name : String) (said : Explanation) : Prop
  | default {definition : VariableDefinition} {value : Value}
      (mem : definition ∈ operation.variableDefinitions) (given : definition.default = some value)
      (inside : ValueBinds schema name said definition.type value)
  | argument {owner : ArgumentOwner} {argument : Argument}
      (written : OperationWrites schema operation owner argument)
      (binds : ArgumentBinds schema (arguments owner) name said argument)

/-- What is said about a variable by all that the operation binds it to, where `arguments` are those
of a field or directive. -/
def saidAbout (schema : Schema) (arguments : ArgumentOwner → List InputField)
    (operation : Operation) (name : String) : Set Explanation :=
  {said | OperationBinds schema arguments operation name said ∧ said.saysSomething}

theorem mem_usagesInDefinition {definition : VariableDefinition} :
    Usage.variable ⟨name, some said⟩ ∈ usagesInDefinition schema definition ↔
      (∃ value, definition.default = some value ∧
        ValueBinds schema name said definition.type value) ∨
      ∃ owner argument, DirectivesWrite none definition.directives owner argument ∧
        ArgumentBinds schema (owner.consulted schema) name said argument := by
  rw [usagesInDefinition, List.mem_append, mem_usagesInDirectives, List.mem_flatMap]
  refine or_congr_left (exists_congr fun value => ?_)
  rw [Option.mem_toList, mem_usagesInValue]
  refine and_congr_right fun _ => ?_
  constructor
  · rintro ⟨place, hplace, hbinds⟩
    obtain ⟨-, rfl⟩ := inputTypeOnly_eq_some.mp hplace
    exact hbinds
  · intro hbinds
    exact ⟨_, hbinds.inputTypeOnly, hbinds⟩

/-- What is collected about a variable is what its places say, as they are consulted. -/
theorem mem_variableBindings {operation : Operation} :
    ⟨name, some said⟩ ∈ variableBindings schema operation ↔
      OperationBinds schema (ArgumentOwner.consulted schema) operation name said := by
  -- flaws are left out, and nothing else
  have husage : ⟨name, some said⟩ ∈ variableBindings schema operation ↔
      Usage.variable ⟨name, some said⟩ ∈ usagesInOperation schema operation := by
    rw [variableBindings, List.mem_filterMap]
    constructor
    · rintro ⟨usage, hmem, husage⟩
      cases usage with
      | «variable» binding =>
        obtain rfl := Option.some.inj husage
        exact hmem
      | flawed => contradiction
    · exact fun hmem => ⟨_, hmem, rfl⟩
  rw [husage, usagesInOperation, List.mem_append, List.mem_append, List.mem_flatMap,
    mem_usagesInDirectives, usagesInSelections_eq_flatMap, List.mem_flatMap]
  constructor
  · rintro ((⟨definition, hmem, hdefinition⟩ | ⟨owner, argument, hwritten, hbinds⟩) |
      ⟨selection, hmem, hselection⟩)
    · rcases mem_usagesInDefinition.mp hdefinition with
        ⟨value, hdefault, hbinds⟩ | ⟨owner, argument, hwritten, hbinds⟩
      · exact .default hmem hdefault hbinds
      · exact .argument (.definition hmem hwritten) hbinds
    · exact .argument (.directive hwritten) hbinds
    · obtain ⟨owner, argument, hwritten, hbinds⟩ :=
        writes_of_mem_usagesInSelection _ _ selection hselection
      exact .argument (.selection hmem hwritten) hbinds
  · rintro (⟨hmem, hdefault, hbinds⟩ | ⟨hwritten, hbinds⟩)
    · exact .inl (.inl ⟨_, hmem, mem_usagesInDefinition.mpr (.inl ⟨_, hdefault, hbinds⟩)⟩)
    · cases hwritten with
      | definition hmem hwritten =>
        exact .inl (.inl ⟨_, hmem, mem_usagesInDefinition.mpr (.inr ⟨_, _, hwritten, hbinds⟩)⟩)
      | directive hwritten => exact .inl (.inr ⟨_, _, hwritten, hbinds⟩)
      | selection hmem hwritten => exact .inr ⟨_, hmem, hwritten.mem_usages hbinds⟩

/-- Only the lists in which the arguments of the operation are looked up make a difference. -/
theorem OperationBinds.congr {operation : Operation}
    {arguments others : ArgumentOwner → List InputField}
    (h : OperationBinds schema arguments operation name said)
    (hsame : ∀ owner argument, OperationWrites schema operation owner argument →
      arguments owner = others owner) : OperationBinds schema others operation name said := by
  cases h with
  | default hmem hdefault hbinds => exact .default hmem hdefault hbinds
  | argument hwritten hbinds =>
    rw [hsame _ _ hwritten] at hbinds
    exact .argument hwritten hbinds

/-- Where the schema knows every directive that has arguments, each argument is looked up where it
is declared. -/
theorem operationBinds_consulted_iff {operation : Operation}
    (hknown : ∀ directive around argument,
      OperationWrites schema operation (.directive directive around) argument →
        (schema.directive? directive).isSome) :
    OperationBinds schema (ArgumentOwner.consulted schema) operation name said ↔
      OperationBinds schema (ArgumentOwner.declared schema) operation name said := by
  have hsame : ∀ owner argument, OperationWrites schema operation owner argument →
      owner.consulted schema = owner.declared schema := by
    intro owner argument hwritten
    cases owner with
    | field => rfl
    | directive directive around =>
      obtain ⟨found, hfound⟩ := Option.isSome_iff_exists.mp (hknown _ _ _ hwritten)
      rw [ArgumentOwner.consulted, ArgumentOwner.declared, hfound]
      rfl
  constructor
  · exact fun h => h.congr hsame
  · exact fun h => h.congr fun owner argument hwritten => (hsame owner argument hwritten).symm

end

end OperationLibrary
