import OperationLibrary.Shape.Selected

/-!
What single selections contribute, case by case. Everything that is proved of the projection of
selections goes through these equations and the induction over the calls of the projection.
-/

namespace OperationLibrary

open Syntax

variable (context : SelectionContext) (expanding : List String) (parent : NamedType)

/-- The shape at the core of the type of a field with these sub-selections. -/
def selectedCore (inner : Option (List Selection)) (name : String) : Projection Shape :=
  match context.schema.get? name with
  | none => pure .any
  | some type =>
    if type.isComposite then
      match inner with
      | none => do
        Logged.warn .selections ("Missing selection set for " ++ name)
        return .any
      | some selections => do
        let entries ← contributions context expanding type selections
        return .object (mergeEntries [] entries) type.description
    else shapeOfName context.schema context.scalars [] name

theorem contribution_internal {head : FieldHead} (inner : Option (List Selection))
    (hinternal : isInternal head.name = true) :
    contribution context expanding parent (.field head inner) =
      pure [internalEntry head.responseKey] := by
  rw [contribution, if_pos hinternal]

theorem contribution_field {head : FieldHead} (inner : Option (List Selection))
    (hordinary : isInternal head.name = false) :
    contribution context expanding parent (.field head inner) = do
      match ← selectedField parent head.name with
      | none => return []
      | some field =>
        let shape ← throughWrappers .selections (selectedCore context expanding inner) 0 field.type
        return [⟨head.responseKey, shape, !field.type.isNonNull, field.description⟩] := by
  rw [contribution, if_neg (by simp [hordinary])]
  rfl

theorem contribution_group (directives : List Directive) (selections : List Selection) :
    contribution context expanding parent (.inline none directives selections) =
      mergeEntries [] <$> contributions context expanding parent selections := by
  rw [contribution]
  rfl

theorem contribution_inline (name : String) (directives : List Directive)
    (selections : List Selection) :
    contribution context expanding parent (.inline (some name) directives selections) =
      match context.schema.get? name with
      | none => do
        Logged.debug .selections ("Skipping inline fragment on unknown type " ++ name)
        return []
      | some type =>
        (fun entries => optionalUnder parent type (mergeEntries [] entries)) <$>
          contributions context expanding type selections := by
  rw [contribution]
  rfl

theorem contribution_spread (name : String) (directives : List Directive) :
    contribution context expanding parent (.spread name directives) =
      match context.fragments.get? name with
      | none => do
        Logged.debug .selections ("Ignoring spread of unknown fragment " ++ name)
        return []
      | some fragment =>
        if name ∈ expanding then do
          Logged.warn .selections ("Fragment " ++ name ++
            " spreads itself, skipping the nested spread")
          return []
        else
          match context.schema.get? fragment.condition with
          | none => do
            Logged.warn .selections ("Unknown type condition " ++ fragment.condition ++
              " on fragment " ++ name)
            return []
          | some type =>
            (fun entries => optionalUnder parent type (mergeEntries [] entries)) <$>
              contributions context (name :: expanding) type fragment.selections := by
  rw [contribution]
  split
  case h_1 hnone => rw [hnone]
  case h_2 fragment hsome =>
      simp only [hsome]
      split
      case isTrue => rfl
      case isFalse => cases context.schema.get? fragment.condition <;> rfl

/-- Of the head of a field its name and its key count. -/
theorem contribution_field_congr {head other : FieldHead} {inner stripped : Option (List Selection)}
    (hname : other.name = head.name) (hkey : other.responseKey = head.responseKey)
    (hcore : selectedCore context expanding stripped = selectedCore context expanding inner) :
    contribution context expanding parent (.field other stripped) =
      contribution context expanding parent (.field head inner) := by
  cases hinternal : isInternal head.name with
  | true =>
      rw [contribution_internal _ _ _ _ hinternal,
        contribution_internal _ _ _ _ (hname ▸ hinternal), hkey]
  | false =>
      rw [contribution_field _ _ _ _ hinternal, contribution_field _ _ _ _ (hname ▸ hinternal),
        hcore, hname, hkey]

/-- The data of a definition on a type of the schema. -/
theorem dataShape_of_root {definition : Executable} {root : NamedType}
    (h : rootType? context.schema definition = some root) :
    dataShape context definition =
      (fun entries => if entries.isEmpty then .any else .object entries none) <$>
        selectedEntries context definition.fragmentName?.toList root definition.selections := by
  rw [dataShape, h]
  rfl

theorem dataShape_of_no_root {definition : Executable}
    (h : rootType? context.schema definition = none) :
    dataShape context definition = do
      Logged.warn .selections ("Unable to find root type for " ++ definition.displayName)
      return .any := by
  rw [dataShape, h]

end OperationLibrary
