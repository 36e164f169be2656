import OperationLibrary.Proofs.ProjectedEntries
import OperationLibrary.Proofs.RunTypes

/-!
Projection over a valid schema. Nothing there is a fault, so a valid operation has a shape for its
answers, with the data that its selections make.
-/

namespace OperationLibrary

open Syntax

variable {context : SelectionContext}

/-- A type that fields may have and that is not composite has a leaf for its shape. -/
theorem shapeOfName_leaf {schema : Schema} {scalars : ScalarTable} {unfolding : List String}
    {name : String} {type : NamedType} (hget : schema.get? name = some type)
    (houtput : type.isOutput = true) (hcomposite : type.isComposite = false)
    (hvalues : type.valuesFlaw? = none) :
    (shapeOfName schema scalars unfolding name).fault = none ∧
      (shapeOfName schema scalars unfolding name).value.HasForm false (.named name) := by
  cases hcontent : type.content with
  | scalar =>
      rw [shapeOfName_scalar hget hcontent scalars unfolding]
      refine ⟨rfl, ?_⟩
      rw [Projection.value_pure, ScalarTable.shape]
      split <;> rfl
  | enum values flaw =>
      have hflaw : flaw = none := by simpa [NamedType.valuesFlaw?, hcontent] using hvalues
      have hshape : shapeOfName schema scalars unfolding name =
          (do
            Projection.check (flaw.map .flawed)
            return .enum values type.description) := by
        rw [shapeOfName]
        split <;> simp_all
      rw [hshape, hflaw]
      exact ⟨rfl, rfl⟩
  | object | interface | union =>
      simp [NamedType.isComposite, NamedType.isObject, NamedType.isAbstract, hcontent] at hcomposite
  | input => simp [NamedType.isOutput, NamedType.inputFields?, hcontent] at houtput

theorem fault_selectedCore {expanding : List String} {inner : Option (List Selection)}
    {name : String} {type : NamedType} (hget : context.schema.get? name = some type)
    (houtput : type.isOutput = true) (hvalues : type.valuesFlaw? = none)
    (hinner : ∀ selections, inner = some selections →
      (contributions context expanding type selections).fault = none) :
    (selectedCore context expanding inner name).fault = none := by
  rw [selectedCore, hget]
  cases hcomposite : type.isComposite with
  | false =>
      simp only [hcomposite, Bool.false_eq_true, if_false]
      exact (shapeOfName_leaf hget houtput hcomposite hvalues).1
  | true =>
      simp only [hcomposite, if_true]
      cases inner with
      | none => rfl
      | some selections => simp [hinner selections rfl]

theorem value_selectedCore_leaf (hschema : context.schema.Valid) (expanding : List String)
    (inner : Option (List Selection)) {name : String} {type : NamedType}
    (hget : context.schema.get? name = some type) (houtput : type.isOutput = true)
    (hcomposite : type.isComposite = false) :
    (selectedCore context expanding inner name).value.HasForm false (.named name) := by
  rw [selectedCore, hget]
  simp only [hcomposite, Bool.false_eq_true, if_false]
  exact (shapeOfName_leaf hget houtput hcomposite
    (hschema.values type (Schema.knows_of_get? hget))).2

/-- Nothing is a fault where the schema is valid. -/
theorem contributions_fault (hschema : context.schema.Valid) (expanding : List String)
    {parent : NamedType} (hparent : context.schema.Knows parent) (selections : List Selection) :
    (contributions context expanding parent selections).fault = none := by
  refine (contribution.mutual_induct context
    (fun expanding parent selection => context.schema.Knows parent →
      (contribution context expanding parent selection).fault = none)
    (fun expanding parent selections => context.schema.Knows parent →
      (contributions context expanding parent selections).fault = none)
    ?internal ?field ?group ?unresolved ?inline ?unknown ?seen ?unconditioned ?spread ?nil
    ?cons).2 expanding parent selections hparent
  case internal =>
    intro expanding parent head inner hinternal _
    rw [contribution_internal _ _ _ _ hinternal]
    rfl
  case field =>
    intro expanding parent head inner hordinary ih hparent
    rw [contribution_field _ _ _ _ (by simpa using hordinary)]
    simp only [Projection.fault_bind, Projection.fault_lift, Projection.value_lift,
      value_selectedField, Option.none_or]
    cases hfound : parent.field? head.name with
    | none => rfl
    | some declared =>
        obtain ⟨type, hget, houtput⟩ := hschema.fieldTypes parent head.name declared hparent hfound
        have htype := Schema.knows_of_get? hget
        have hcore : (selectedCore context expanding inner declared.type.base).fault = none := by
          refine fault_selectedCore hget houtput (hschema.values type htype) ?_
          rintro selections rfl
          exact ih type htype
        simp [fault_throughWrappers _ _ _ _ hcore]
  case group =>
    intro expanding parent directives inner ih hparent
    rw [contribution_group, Projection.fault_map, ih hparent]
  case unresolved =>
    intro expanding parent directives inner name hnone _
    rw [contribution_inline, hnone]
    rfl
  case inline =>
    intro expanding parent directives inner name type hsome ih _
    rw [contribution_inline, hsome, Projection.fault_map, ih (Schema.knows_of_get? hsome)]
  case unknown =>
    intro expanding parent name directives hnone _
    rw [contribution_spread, hnone]
    rfl
  case seen =>
    intro expanding parent name directives fragment hsome hseen _
    simp [contribution_spread, hsome, hseen]
  case unconditioned =>
    intro expanding parent name directives fragment hsome hfresh hnone _
    simp [contribution_spread, hsome, hfresh, hnone]
  case spread =>
    intro expanding parent name directives fragment hsome hfresh type htype ih _
    simp [contribution_spread, hsome, hfresh, htype, ih (Schema.knows_of_get? htype)]
  case nil =>
    intro expanding parent _
    rw [contributions]
    rfl
  case cons =>
    intro expanding parent first rest ihFirst ihRest hparent
    rw [contributions]
    simp [ihFirst hparent, ihRest hparent]

/-- A valid operation has a shape for its answers; the entries of the data are those that its
selections contribute, merged. -/
theorem responseShape_operation (hschema : context.schema.Valid) {operation : Operation}
    {start : NamedType} (hroot : context.schema.root? operation.kind = some start) :
    ∃ data notices,
      responseShape context (.operation operation) = ⟨answerShape data, notices, none⟩ ∧
        data.entries =
          mergeEntries [] (contributions context [] start operation.selections).value := by
  have hknown : context.schema.Knows start := (hschema.start hroot).1
  have hdata : dataShape context (.operation operation) =
      (fun entries => if entries.isEmpty then .any else .object entries none) <$>
        selectedEntries context [] start operation.selections := dataShape_of_root context hroot
  refine ⟨(dataShape context (.operation operation)).value,
    (responseShape context (.operation operation)).notices, Projection.ext rfl rfl ?_, ?_⟩
  · rw [responseShape, Projection.fault_map, hdata, Projection.fault_map, selectedEntries,
      Projection.fault_map, contributions_fault hschema [] hknown]
  · rw [hdata, Projection.value_map, selectedEntries, Projection.value_map]
    generalize mergeEntries [] _ = entries
    cases entries <;> rfl

end OperationLibrary
