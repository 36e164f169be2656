import OperationLibrary.Document.Fragments
import OperationLibrary.Document.Record
import OperationLibrary.Shape.FullType
import OperationLibrary.Shape.Merge

/-!
The shape of what a definition selects. Every selection contributes entries to the object it is
made on, and entries of one name are merged. A fragment that is spread inside itself contributes
nothing, so the shape is finite however the fragments spread one another.
-/

namespace OperationLibrary

open Syntax

/-- Everything that the shape of selections depends on besides the selections. -/
structure SelectionContext where
  schema : Schema
  fragments : FragmentTable
  scalars : ScalarTable

/-- Entries that are selected for one kind of object only may be absent. -/
def optionalUnder (parent condition : NamedType) (entries : List (Entry Shape)) :
    List (Entry Shape) :=
  if parent.isAbstract && condition.name != parent.name then
    entries.map fun entry => { entry with nullable := true }
  else entries

/-- The entry of a field that describes the schema. -/
def internalEntry (key : String) : Entry Shape :=
  ⟨key, .any, false, some (.text "Internal GraphQL field")⟩

def isInternal (name : String) : Bool :=
  name.startsWith "__"

/-- The field that a selection asks for, with a warning where there is none. -/
def selectedField (parent : NamedType) (name : String) : Logged (Option OutputField) :=
  match parent.outputFields? with
  | none => do
    Logged.warn .selections ("Could not find field " ++ name ++ " on " ++ parent.name)
    return none
  | some fields =>
    match fields.find? (·.name == name) with
    | some field => pure (some field)
    | none => do
      Logged.warn .selections ("Could not find field " ++ name ++ " on " ++ parent.name ++
        " among " ++ ", ".intercalate (fields.map OutputField.name))
      return none

mutual

/-- The entries that a selection on `parent` contributes, inside the fragments that are being
expanded. -/
def contribution (context : SelectionContext) (expanding : List String) (parent : NamedType)
    (selection : Selection) : Projection (List (Entry Shape)) :=
  match selection with
  | .field head inner =>
    if isInternal head.name then pure [internalEntry head.responseKey]
    else do
      match ← selectedField parent head.name with
      | none => return []
      | some field =>
        let shape ← throughWrappers .selections (fun name =>
          match context.schema.get? name with
          | none => pure .any
          | some type =>
            if type.isComposite then
              match inner with
              | none => do
                Logged.warn .selections ("Missing selection set for " ++ name)
                return .any
              | some selections => do
                let entries ← contributions context expanding type selections
                return .object (mergeEntries [] entries) type.description
            else shapeOfName context.schema context.scalars [] name) 0 field.type
        return [⟨head.responseKey, shape, !field.type.isNonNull, field.description⟩]
  | .inline condition _ selections =>
    match condition with
    | none => do
      let entries ← contributions context expanding parent selections
      return mergeEntries [] entries
    | some name =>
      match context.schema.get? name with
      | none => do
        Logged.debug .selections ("Skipping inline fragment on unknown type " ++ name)
        return []
      | some type => do
        let entries ← contributions context expanding type selections
        return optionalUnder parent type (mergeEntries [] entries)
  | .spread name _ =>
    match _found : context.fragments.get? name with
    | none => do
      Logged.debug .selections ("Ignoring spread of unknown fragment " ++ name)
      return []
    | some fragment =>
      if _seen : name ∈ expanding then do
        Logged.warn .selections ("Fragment " ++ name ++
          " spreads itself, skipping the nested spread")
        return []
      else
        match context.schema.get? fragment.condition with
        | none => do
          Logged.warn .selections ("Unknown type condition " ++ fragment.condition ++
            " on fragment " ++ name)
          return []
        | some type => do
          let entries ← contributions context (name :: expanding) type fragment.selections
          return optionalUnder parent type (mergeEntries [] entries)
termination_by (context.fragments.unseen expanding, sizeOf selection)
decreasing_by
  all_goals first
    | exact Prod.Lex.left _ _ (FragmentTable.unseen_cons_lt _found _seen)
    | exact Prod.Lex.right _ (by simp <;> omega)

/-- The entries that selections contribute one after the other. -/
def contributions (context : SelectionContext) (expanding : List String) (parent : NamedType)
    (selections : List Selection) : Projection (List (Entry Shape)) :=
  match selections with
  | [] => pure []
  | selection :: rest => do
    let first ← contribution context expanding parent selection
    let others ← contributions context expanding parent rest
    return first ++ others
termination_by (context.fragments.unseen expanding, sizeOf selections)
decreasing_by
  all_goals exact Prod.Lex.right _ (by simp <;> omega)

end

/-- The entries of the object that selections on `parent` make. -/
def selectedEntries (context : SelectionContext) (expanding : List String) (parent : NamedType)
    (selections : List Selection) : Projection (List (Entry Shape)) :=
  mergeEntries [] <$> contributions context expanding parent selections

/-! ### Definitions -/

/-- The type that the selections of a definition are made on. -/
def rootType? (schema : Schema) : Executable → Option NamedType
  | .operation o => schema.root? o.kind
  | .fragment f => schema.get? f.condition

/-- The shape of the data of a definition. -/
def dataShape (context : SelectionContext) (definition : Executable) : Projection Shape :=
  match rootType? context.schema definition with
  | none => do
    Logged.warn .selections ("Unable to find root type for " ++ definition.displayName)
    return .any
  | some root => do
    let expanding := definition.fragmentName?.toList
    let entries ← selectedEntries context expanding root definition.selections
    return if entries.isEmpty then .any else .object entries none

/-- The shape of an answer whose data has the shape `data`. -/
def answerShape (data : Shape) : Shape :=
  .object
    [⟨"data", data, false, some (.text "Any data from the function will be returned here")⟩,
      ⟨"errors", .list .any none, true,
        some (.text "Any errors from the function will be returned here")⟩] none

/-- The shape of the answers to a definition: the data and the errors. -/
def responseShape (context : SelectionContext) (definition : Executable) : Projection Shape :=
  answerShape <$> dataShape context definition

end OperationLibrary
