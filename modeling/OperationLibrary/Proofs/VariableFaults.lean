import OperationLibrary.Proofs.ReorderedOperations
import OperationLibrary.Proofs.Unfolding

/-!
What can be wrong with the variables of an operation. Their shape has a fault where a value of a
flawed enum is looked up, where a description of a declared variable cannot be compared with others,
or where the shape of a type has one. A schema with sound enums that describes things in words gives
no cause for any of them.
-/

namespace OperationLibrary

open Syntax

theorem Projection.fault_forM_eq_none_iff {α : Type} {f : α → Projection Unit} {xs : List α} :
    (forM xs f).fault = none ↔ ∀ x ∈ xs, (f x).fault = none := by
  induction xs with
  | nil => simp
  | cons x xs ih =>
    rw [List.forM_cons, fault_bind, List.forall_mem_cons, ← ih, Option.or_eq_none_iff]

section

variable {schema : Schema} {scalars : ScalarTable} {operation : Operation}

/-! ### Flaws that are met -/

/-- A flaw that a usage meets is one in the values of an enum of the schema. -/
def Usage.OfSchema (schema : Schema) : Usage → Prop
  | .variable _ => True
  | .flawed flaw => ∃ type ∈ schema.types, type.valuesFlaw? = some flaw

theorem ofSchema_of_mem_valuesFlaw {type : Option TypeRef} :
    ∀ usage ∈ (valuesFlawOf? schema type).toList.map Usage.flawed, usage.OfSchema schema := by
  intro usage husage
  obtain ⟨flaw, hflaw, rfl⟩ := List.mem_map.mp husage
  obtain ⟨found, hfound, hvalues⟩ := Option.bind_eq_some_iff.mp (Option.mem_toList.mp hflaw)
  obtain ⟨place, -, hget⟩ := Option.bind_eq_some_iff.mp hfound
  exact ⟨found, List.mem_of_find?_eq_some hget, hvalues⟩

theorem ofSchema_of_mem_boundHere {known : Option (List InputField)} {key : String}
    {value : Value} : ∀ usage ∈ boundHere known key value, usage.OfSchema schema := by
  cases value with
  | «variable» =>
    intro usage husage
    obtain ⟨fields, -, rfl⟩ := List.mem_map.mp husage
    trivial
  | _ => exact fun usage husage => absurd husage List.not_mem_nil

theorem ofSchema_of_mem_usagesInValue (type : Option TypeRef) (value : Value) :
    ∀ usage ∈ usagesInValue schema type value, usage.OfSchema schema := by
  -- one case for each equation of the functions that walk through values, items and fields
  refine (usagesInValue.mutual_induct schema
    (fun type value => ∀ usage ∈ usagesInValue schema type value, usage.OfSchema schema)
    (fun known fields => ∀ usage ∈ usagesInFields schema known fields, usage.OfSchema schema)
    (fun type items => ∀ usage ∈ usagesInItems schema type items, usage.OfSchema schema)
    ?enum ?list ?object ?plain ?noItem ?item ?noField ?field).1 type value
  case enum =>
    intro type member
    rw [usagesInValue]
    exact ofSchema_of_mem_valuesFlaw
  case list =>
    intro type items ih
    rwa [usagesInValue]
  case object =>
    intro type fields ih
    rwa [usagesInValue]
  case plain =>
    intro value type henum hlist hobject
    rw [usagesInValue] <;> simp_all
  case noItem =>
    intro type
    simp [usagesInItems]
  case item =>
    intro type item rest hitem hrest
    rw [usagesInItems, List.forall_mem_append]
    exact ⟨hitem, hrest⟩
  case noField =>
    intro known
    simp [usagesInFields]
  case field =>
    intro known key value rest field hvalue hrest
    rw [usagesInFields_eq_flatMap] at hrest ⊢
    rw [List.flatMap_cons, List.forall_mem_append, usagesInField, List.forall_mem_append]
    exact ⟨⟨ofSchema_of_mem_boundHere, hvalue⟩, hrest⟩

theorem ofSchema_of_mem_usagesInArguments (known : List InputField) (arguments : List Argument) :
    ∀ usage ∈ usagesInArguments schema known arguments, usage.OfSchema schema := by
  intro usage husage
  obtain ⟨argument, -, husage⟩ := List.mem_flatMap.mp husage
  rcases List.mem_append.mp husage with hhere | hinside
  · split at hhere
    · obtain rfl := List.mem_singleton.mp hhere
      trivial
    · exact absurd hhere List.not_mem_nil
  · exact ofSchema_of_mem_usagesInValue _ _ usage hinside

theorem ofSchema_of_mem_usagesInDirectives (around : Option OutputField)
    (directives : List Directive) :
    ∀ usage ∈ usagesInDirectives schema around directives, usage.OfSchema schema := by
  intro usage husage
  obtain ⟨directive, -, husage⟩ := List.mem_flatMap.mp husage
  exact ofSchema_of_mem_usagesInArguments _ _ usage husage

theorem ofSchema_of_mem_usagesInSelections (around : Option OutputField)
    (parent : Option NamedType) (selections : List Selection) :
    ∀ usage ∈ usagesInSelections schema around parent selections, usage.OfSchema schema := by
  refine (usagesInSelection.mutual_induct schema
    (fun around parent selection =>
      ∀ usage ∈ usagesInSelection schema around parent selection, usage.OfSchema schema)
    (fun around parent selections =>
      ∀ usage ∈ usagesInSelections schema around parent selections, usage.OfSchema schema)
    ?leaf ?field ?spread ?inline ?nil ?cons).2 around parent selections
  case leaf =>
    intro around parent head
    rw [usagesInSelection, List.forall_mem_append]
    exact ⟨ofSchema_of_mem_usagesInArguments _ _, ofSchema_of_mem_usagesInDirectives _ _⟩
  case field =>
    intro around parent head selections field ih
    rw [usagesInSelection, List.forall_mem_append, List.forall_mem_append]
    exact ⟨⟨ofSchema_of_mem_usagesInArguments _ _, ofSchema_of_mem_usagesInDirectives _ _⟩, ih⟩
  case spread =>
    intro around parent fragment directives
    rw [usagesInSelection]
    exact ofSchema_of_mem_usagesInDirectives _ _
  case inline =>
    intro around parent condition directives selections inner ih
    rw [usagesInSelection_inline, ← usagesInSelections_eq_flatMap, List.forall_mem_append]
    refine ⟨ofSchema_of_mem_usagesInDirectives _ _, ?_⟩
    -- the type inside is named by the condition, or else the one outside
    cases condition <;> exact ih
  case nil =>
    intro around parent
    simp [usagesInSelections]
  case cons =>
    intro around parent selection rest hselection hrest
    rw [usagesInSelections, List.forall_mem_append]
    exact ⟨hselection, hrest⟩

theorem ofSchema_of_mem_usagesInOperation :
    ∀ usage ∈ usagesInOperation schema operation, usage.OfSchema schema := by
  rw [usagesInOperation, List.forall_mem_append, List.forall_mem_append]
  refine ⟨⟨fun usage husage => ?_, ofSchema_of_mem_usagesInDirectives _ _⟩,
    ofSchema_of_mem_usagesInSelections _ _ _⟩
  obtain ⟨definition, -, husage⟩ := List.mem_flatMap.mp husage
  rcases List.mem_append.mp husage with hdefault | hdirectives
  · obtain ⟨value, -, husage⟩ := List.mem_flatMap.mp hdefault
    exact ofSchema_of_mem_usagesInValue _ _ usage husage
  · exact ofSchema_of_mem_usagesInDirectives _ _ usage hdirectives

/-! ### Faults of the shape -/

/-- What is wrong with a usage, where these variables are declared. -/
def usageFault (declared : List String) : Usage → Option ShapeFault
  | .variable binding => if declared.contains binding.name then binding.fault? else none
  | .flawed flaw => some (.flawed flaw)

theorem fault_surveyUsages_eq_none_iff {usages : List Usage} :
    (surveyUsages operation usages).fault = none ↔ ∀ usage ∈ usages,
      usageFault (operation.variableDefinitions.map VariableDefinition.name) usage = none := by
  rw [surveyUsages, List.forM_eq_forM, Projection.fault_forM_eq_none_iff]
  refine forall₂_congr fun usage _ => ?_
  cases usage with
  | «variable» binding =>
    -- a variable that is not declared is warned about and has no fault
    dsimp only [usageFault]
    split <;> rfl
  | flawed => rfl

/-- Variables have a shape if nothing is wrong with the usages of the operation and with the types
of the variables. -/
theorem fault_variablesShape_eq_none_iff :
    (variablesShape schema scalars operation).fault = none ↔
      (∀ usage ∈ usagesInOperation schema operation,
        usageFault (operation.variableDefinitions.map VariableDefinition.name) usage = none) ∧
      ∀ declared ∈ declaredTypes operation,
        schema.resolves declared.2 → (shapeOfType schema scalars declared.2).fault = none := by
  have hentries : (operation.variableDefinitions.mapM (variableEntry schema scalars operation
      (variableBindings schema operation))).fault = none ↔
      ∀ declared ∈ declaredTypes operation,
        schema.resolves declared.2 → (shapeOfType schema scalars declared.2).fault = none := by
    rw [Projection.fault_mapM_eq_none_iff, declaredTypes, List.forall_mem_map]
    refine forall₂_congr fun definition _ => ?_
    rw [variableEntry]
    split
    case isTrue hresolves =>
      rw [Projection.fault_bind, Projection.fault_pure, Option.or_none]
      exact ⟨fun hshape _ => hshape, fun hshape => hshape hresolves⟩
    case isFalse hunknown =>
      exact iff_of_true rfl fun hresolves => absurd hresolves hunknown
  rw [variablesShape, Projection.fault_bind, Projection.fault_bind, Projection.fault_pure,
    Option.or_none, Option.or_eq_none_iff, fault_surveyUsages_eq_none_iff, hentries]

/-- All that is said about the variables of the operation is said in words. -/
def SaidInWords (schema : Schema) (operation : Operation) : Prop :=
  ∀ name, ∀ said ∈ saidAbout schema (ArgumentOwner.consulted schema) operation name,
    ∃ words, said = .text words

/-- Nothing is wrong where enums have no flaws and all is said in words. -/
theorem fault_variablesShape (hflawless : ∀ type ∈ schema.types, type.valuesFlaw? = none)
    (hwords : SaidInWords schema operation) :
    (variablesShape schema scalars operation).fault = none := by
  rw [fault_variablesShape_eq_none_iff]
  refine ⟨fun usage husage => ?_, fun declared _ _ => ?_⟩
  · cases usage with
    | «variable» binding =>
      obtain ⟨name, description⟩ := binding
      have hcomparable : description.all fun d => !d.saysSomething || d.isComparable := by
        rw [Option.all_eq_true]
        rintro said rfl
        cases hsays : said.saysSomething with
        | false => rfl
        | true =>
          have hbinding : ⟨name, some said⟩ ∈ variableBindings schema operation :=
            List.mem_filterMap.mpr ⟨_, husage, rfl⟩
          obtain ⟨words, rfl⟩ := hwords name said ⟨mem_variableBindings.mp hbinding, hsays⟩
          rfl
      simp [usageFault, VariableBinding.fault?, hcomparable]
    | flawed flaw =>
      obtain ⟨type, htype, hflaw⟩ := ofSchema_of_mem_usagesInOperation _ husage
      rw [hflawless type htype] at hflaw
      contradiction
  · exact fault_throughWrappers _ _ _ _ (fault_shapeOfName hflawless)

end

end OperationLibrary
