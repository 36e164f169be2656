import Mathlib.Logic.Relation
import OperationLibrary.Proofs.VariableBindings

/-!
Operations that say the same in another order. Selections, arguments and the fields of input objects
may stand in any order at every level of an operation. What is collected in the operation is then
collected in another order too, and nothing else changes about it.
-/

namespace OperationLibrary

open Syntax

/-! ### One step of reordering -/

/-- Somewhere in the value, the fields of an input object stand in another order. -/
inductive ValueReordered : Value → Value → Prop
  | order {fields others : List (String × Value)} (perm : fields.Perm others) :
      ValueReordered (.object fields) (.object others)
  | field {before after : List (String × Value)} {key : String} {value other : Value}
      (inside : ValueReordered value other) :
      ValueReordered (.object (before ++ (key, value) :: after))
        (.object (before ++ (key, other) :: after))
  | item {before after : List Value} {value other : Value} (inside : ValueReordered value other) :
      ValueReordered (.list (before ++ value :: after)) (.list (before ++ other :: after))

/-- The arguments stand in another order, or the fields of an input object in one of them. -/
inductive ArgumentsReordered : List Argument → List Argument → Prop
  | order {arguments others : List Argument} (perm : arguments.Perm others) :
      ArgumentsReordered arguments others
  | value {before after : List Argument} {name : String} {value other : Value}
      (inside : ValueReordered value other) :
      ArgumentsReordered (before ++ ⟨name, value⟩ :: after) (before ++ ⟨name, other⟩ :: after)

/-- The arguments of one of the directives are reordered. -/
inductive DirectivesReordered : List Directive → List Directive → Prop
  | arguments {before after : List Directive} {name : String} {arguments others : List Argument}
      (inside : ArgumentsReordered arguments others) :
      DirectivesReordered (before ++ ⟨name, arguments⟩ :: after)
        (before ++ ⟨name, others⟩ :: after)

/-- The selections stand in another order, or something is reordered in one of them. -/
inductive SelectionsReordered : List Selection → List Selection → Prop
  | order {selections others : List Selection} (perm : selections.Perm others) :
      SelectionsReordered selections others
  | fieldArguments {before after : List Selection} {head : FieldHead} {others : List Argument}
      {selections : Option (List Selection)} (inside : ArgumentsReordered head.arguments others) :
      SelectionsReordered (before ++ .field head selections :: after)
        (before ++ .field { head with arguments := others } selections :: after)
  | fieldDirectives {before after : List Selection} {head : FieldHead} {others : List Directive}
      {selections : Option (List Selection)}
      (inside : DirectivesReordered head.directives others) :
      SelectionsReordered (before ++ .field head selections :: after)
        (before ++ .field { head with directives := others } selections :: after)
  | field {before after : List Selection} {head : FieldHead} {selections others : List Selection}
      (inside : SelectionsReordered selections others) :
      SelectionsReordered (before ++ .field head (some selections) :: after)
        (before ++ .field head (some others) :: after)
  | spread {before after : List Selection} {fragment : String} {directives others : List Directive}
      (inside : DirectivesReordered directives others) :
      SelectionsReordered (before ++ .spread fragment directives :: after)
        (before ++ .spread fragment others :: after)
  | inlineDirectives {before after : List Selection} {condition : Option String}
      {directives others : List Directive} {selections : List Selection}
      (inside : DirectivesReordered directives others) :
      SelectionsReordered (before ++ .inline condition directives selections :: after)
        (before ++ .inline condition others selections :: after)
  | inline {before after : List Selection} {condition : Option String}
      {directives : List Directive} {selections others : List Selection}
      (inside : SelectionsReordered selections others) :
      SelectionsReordered (before ++ .inline condition directives selections :: after)
        (before ++ .inline condition directives others :: after)

/-- Something is reordered where a variable is declared; its name and its type are as they were. -/
inductive DefinitionReordered : VariableDefinition → VariableDefinition → Prop
  | default {definition : VariableDefinition} {value other : Value}
      (given : definition.default = some value) (inside : ValueReordered value other) :
      DefinitionReordered definition { definition with default := some other }
  | directives {definition : VariableDefinition} {others : List Directive}
      (inside : DirectivesReordered definition.directives others) :
      DefinitionReordered definition { definition with directives := others }

/-- One thing in the operation is reordered. -/
inductive OperationReordered : Operation → Operation → Prop
  | definition {operation : Operation} {before after : List VariableDefinition}
      {definition other : VariableDefinition}
      (declared : operation.variableDefinitions = before ++ definition :: after)
      (inside : DefinitionReordered definition other) :
      OperationReordered operation
        { operation with variableDefinitions := before ++ other :: after }
  | directives {operation : Operation} {others : List Directive}
      (inside : DirectivesReordered operation.directives others) :
      OperationReordered operation { operation with directives := others }
  | selections {operation : Operation} {others : List Selection}
      (inside : SelectionsReordered operation.selections others) :
      OperationReordered operation { operation with selections := others }

/-! ### What is collected -/

theorem perm_flatMap_replace {α β : Type} {f : α → List β} {x y : α} (before after : List α)
    (h : (f x).Perm (f y)) :
    ((before ++ x :: after).flatMap f).Perm ((before ++ y :: after).flatMap f) := by
  simp only [List.flatMap_append, List.flatMap_cons]
  exact (h.append_right _).append_left _

section

variable {schema : Schema}

/-- What has an order inside is no variable. -/
theorem ValueReordered.boundHere_eq_nil {value other : Value} (h : ValueReordered value other)
    (known : Option (List InputField)) (key : String) :
    boundHere known key value = [] ∧ boundHere known key other = [] := by
  cases h <;> exact ⟨rfl, rfl⟩

theorem ValueReordered.usages_perm {value other : Value} (h : ValueReordered value other)
    (type : Option TypeRef) :
    (usagesInValue schema type value).Perm (usagesInValue schema type other) := by
  induction h generalizing type with
  | order hperm =>
    simp only [usagesInValue, usagesInFields_eq_flatMap]
    exact hperm.flatMap_right _
  | field hinside ih =>
    simp only [usagesInValue, usagesInFields_eq_flatMap]
    apply perm_flatMap_replace
    simp only [usagesInField, (hinside.boundHere_eq_nil _ _).1, (hinside.boundHere_eq_nil _ _).2]
    exact ih _
  | item _ ih =>
    simp only [usagesInValue, usagesInItems_eq_flatMap]
    exact perm_flatMap_replace _ _ (ih _)

theorem ArgumentsReordered.usages_perm {arguments others : List Argument}
    (h : ArgumentsReordered arguments others) (known : List InputField) :
    (usagesInArguments schema known arguments).Perm (usagesInArguments schema known others) := by
  cases h with
  | order hperm => exact hperm.flatMap_right _
  | @value _ _ _ value other hinside =>
    have hvalue : ∀ type,
        (usagesInValue schema type value).Perm (usagesInValue schema type other) :=
      hinside.usages_perm
    apply perm_flatMap_replace
    -- an object or a list, so nothing is bound to the argument itself
    cases hinside <;> exact hvalue _

theorem DirectivesReordered.usages_perm {directives others : List Directive}
    (h : DirectivesReordered directives others) (around : Option OutputField) :
    (usagesInDirectives schema around directives).Perm
      (usagesInDirectives schema around others) := by
  cases h with
  | arguments hinside =>
    simp only [usagesInDirectives_eq_flatMap]
    exact perm_flatMap_replace _ _ (hinside.usages_perm _)

theorem SelectionsReordered.usages_perm {selections others : List Selection}
    (h : SelectionsReordered selections others) (around : Option OutputField)
    (parent : Option NamedType) :
    (selections.flatMap (usagesInSelection schema around parent)).Perm
      (others.flatMap (usagesInSelection schema around parent)) := by
  induction h generalizing around parent with
  | order hperm => exact hperm.flatMap_right _
  | fieldArguments hinside =>
    apply perm_flatMap_replace
    simp only [usagesInSelection_field]
    exact ((hinside.usages_perm _).append_right _).append_right _
  | fieldDirectives hinside =>
    apply perm_flatMap_replace
    simp only [usagesInSelection_field]
    exact ((hinside.usages_perm _).append_left _).append_right _
  | field _ ih =>
    apply perm_flatMap_replace
    simp only [usagesInSelection_field]
    exact (ih _ _).append_left _
  | spread hinside =>
    apply perm_flatMap_replace
    simp only [usagesInSelection]
    exact hinside.usages_perm _
  | inlineDirectives hinside =>
    apply perm_flatMap_replace
    simp only [usagesInSelection_inline]
    exact (hinside.usages_perm _).append_right _
  | inline _ ih =>
    apply perm_flatMap_replace
    simp only [usagesInSelection_inline]
    exact (ih _ _).append_left _

theorem DefinitionReordered.usages_perm {definition other : VariableDefinition}
    (h : DefinitionReordered definition other) :
    (usagesInDefinition schema definition).Perm (usagesInDefinition schema other) := by
  cases h with
  | default hgiven hinside =>
    simp only [usagesInDefinition, hgiven, Option.toList_some, List.flatMap_singleton]
    exact (hinside.usages_perm _).append_right _
  | directives hinside =>
    simp only [usagesInDefinition]
    exact (hinside.usages_perm _).append_left _

/-- A reordered operation makes the same usages in another order. -/
theorem OperationReordered.usages_perm {operation other : Operation}
    (h : OperationReordered operation other) :
    (usagesInOperation schema operation).Perm (usagesInOperation schema other) := by
  simp only [usagesInOperation, usagesInSelections_eq_flatMap]
  cases h with
  | definition hdeclared hinside =>
    rw [hdeclared]
    exact ((perm_flatMap_replace _ _ hinside.usages_perm).append_right _).append_right _
  | directives hinside => exact ((hinside.usages_perm _).append_left _).append_right _
  | selections hinside => exact (hinside.usages_perm _ _).append_left _

/-- The variables of an operation with their types. -/
def declaredTypes (operation : Operation) : List (String × TypeRef) :=
  operation.variableDefinitions.map fun definition => (definition.name, definition.type)

theorem map_fst_declaredTypes (operation : Operation) :
    (declaredTypes operation).map Prod.fst =
      operation.variableDefinitions.map VariableDefinition.name := by
  rw [declaredTypes, List.map_map]
  rfl

theorem OperationReordered.declaredTypes_eq {operation other : Operation}
    (h : OperationReordered operation other) : declaredTypes other = declaredTypes operation := by
  cases h with
  | definition hdeclared hinside =>
    rw [declaredTypes, declaredTypes, hdeclared]
    cases hinside <;> simp
  | directives | selections => rfl

end

end OperationLibrary
