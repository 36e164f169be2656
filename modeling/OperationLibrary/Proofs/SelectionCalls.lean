import OperationLibrary.Proofs.SelectionProjection

/-!
The calls of the projection. Selections on a type call for their fields, a field calls for its type,
a type for what it wraps and, at its core, for selections on it; and a fragment that is spread calls
for its own selections. What a call does is written down once more with the calls that it makes left
open, so that they can be named: every one of them has a lower rank, and answering so many rounds
of calls gives the projection, whatever is put in the place of the calls that are left.
-/

namespace OperationLibrary

open Syntax

/-! ### Calls -/

/-- What is asked for: the entries of selections on a type, the entries of one field, or the shape
of a type where `depth` wrappers have been gone through. Every call knows which fragments are being
expanded. -/
inductive SelectionCall where
  | selections (expanding : List String) (parent : NamedType) (selections : List Selection)
  | field (expanding : List String) (parent : NamedType) (head : FieldHead)
      (inner : Option (List Selection))
  | output (expanding : List String) (type : TypeRef) (inner : Option (List Selection))
      (depth : Nat)

namespace SelectionCall

/-- The fragments that are being expanded around a call. -/
def expanding : SelectionCall → List String
  | .selections expanding .. | .field expanding .. | .output expanding .. => expanding

/-- What a call is answered with. -/
abbrev Answer : SelectionCall → Type
  | .selections .. | .field .. => List (Entry Shape)
  | .output .. => Shape

end SelectionCall

/-- A call makes another one, for which it opens a fragment if there is a name between them. -/
inductive Calls (context : SelectionContext) :
    SelectionCall → Option String → SelectionCall → Prop
  | field {expanding : List String} {parent : NamedType} {selections : List Selection}
      {head : FieldHead} {inner : Option (List Selection)} (mem : .field head inner ∈ selections) :
      Calls context (.selections expanding parent selections) none
        (.field expanding parent head inner)
  | group {expanding : List String} {parent : NamedType} {selections inner : List Selection}
      {directives : List Directive} (mem : .inline none directives inner ∈ selections) :
      Calls context (.selections expanding parent selections) none
        (.selections expanding parent inner)
  | inline {expanding : List String} {parent type : NamedType} {selections inner : List Selection}
      {name : String} {directives : List Directive}
      (mem : .inline (some name) directives inner ∈ selections)
      (resolved : context.schema.get? name = some type) :
      Calls context (.selections expanding parent selections) none
        (.selections expanding type inner)
  | spread {expanding : List String} {parent type : NamedType} {selections : List Selection}
      {name : String} {directives : List Directive} {fragment : Fragment}
      (mem : .spread name directives ∈ selections)
      (found : context.fragments.get? name = some fragment) (fresh : name ∉ expanding)
      (resolved : context.schema.get? fragment.condition = some type) :
      Calls context (.selections expanding parent selections) (some name)
        (.selections (name :: expanding) type fragment.selections)
  | output {expanding : List String} {parent : NamedType} {head : FieldHead}
      {inner : Option (List Selection)} {declared : OutputField}
      (ordinary : isInternal head.name = false)
      (found : (selectedField parent head.name).value = some declared) :
      Calls context (.field expanding parent head inner) none
        (.output expanding declared.type inner 0)
  | list {expanding : List String} {item : TypeRef} {inner : Option (List Selection)} {depth : Nat}
      (shallow : depth < wrapperLimit) :
      Calls context (.output expanding (.list item) inner depth) none
        (.output expanding item inner (depth + 1))
  | nonNull {expanding : List String} {wrapped : TypeRef} {inner : Option (List Selection)}
      {depth : Nat} (shallow : depth < wrapperLimit) :
      Calls context (.output expanding (.nonNull wrapped) inner depth) none
        (.output expanding wrapped inner (depth + 1))
  | core {expanding : List String} {name : String} {type : NamedType} {selections : List Selection}
      {depth : Nat} (resolved : context.schema.get? name = some type)
      (composite : type.isComposite = true) :
      Calls context (.output expanding (.named name) (some selections) depth) none
        (.selections expanding type selections)

/-! ### What a call does -/

namespace SelectionContext

variable (context : SelectionContext)
  (recurse : (call : SelectionCall) → Projection call.Answer)

/-- What one of the selections on a type adds, where `recurse` answers calls. -/
def addition (expanding : List String) (parent : NamedType) :
    Selection → Projection (List (Entry Shape))
  | .field head inner => recurse (.field expanding parent head inner)
  | .inline none _ selections => recurse (.selections expanding parent selections)
  | .inline (some name) _ selections =>
    match context.schema.get? name with
    | none => do
      Logged.debug .selections ("Skipping inline fragment on unknown type " ++ name)
      return []
    | some type => optionalUnder parent type <$> recurse (.selections expanding type selections)
  | .spread name _ =>
    match context.fragments.get? name with
    | none => do
      Logged.debug .selections ("Ignoring spread of unknown fragment " ++ name)
      return []
    | some fragment =>
      if name ∈ expanding then do
        Logged.warn .selections ("Fragment " ++ name ++
          " spreads itself, skipping the nested spread")
        return []
      else
        match context.schema.get? fragment.condition with
        | none => do
          Logged.warn .selections ("Unknown type condition " ++ fragment.condition ++
            " on fragment " ++ name)
          return []
        | some type =>
          optionalUnder parent type <$>
            recurse (.selections (name :: expanding) type fragment.selections)

/-- What a call does, where `recurse` answers the calls that it makes. -/
def step : (call : SelectionCall) → Projection call.Answer
  | .selections expanding parent selections => do
    let additions ← selections.mapM (context.addition recurse expanding parent)
    return mergeEntries [] additions.flatten
  | .field expanding parent head inner =>
    if isInternal head.name then pure [internalEntry head.responseKey]
    else do
      match ← selectedField parent head.name with
      | none => return []
      | some field =>
        let shape ← recurse (.output expanding field.type inner 0)
        return [⟨head.responseKey, shape, !field.type.isNonNull, field.description⟩]
  | .output expanding (.list item) inner depth =>
    if wrapperLimit ≤ depth then do
      Logged.warn .selections wrapperWarning
      return .bailedOut
    else do
      let shape ← recurse (.output expanding item inner (depth + 1))
      return .list shape none
  | .output expanding (.nonNull wrapped) inner depth =>
    if wrapperLimit ≤ depth then do
      Logged.warn .selections wrapperWarning
      return .bailedOut
    else recurse (.output expanding wrapped inner (depth + 1))
  | .output expanding (.named name) inner _ =>
    match context.schema.get? name with
    | none => pure .any
    | some type =>
      if type.isComposite then
        match inner with
        | none => do
          Logged.warn .selections ("Missing selection set for " ++ name)
          return .any
        | some selections => do
          let entries ← recurse (.selections expanding type selections)
          return .object entries type.description
      else shapeOfName context.schema context.scalars [] name

/-- What the projection answers a call with. -/
def answer : (call : SelectionCall) → Projection call.Answer
  | .selections expanding parent selections => selectedEntries context expanding parent selections
  | .field expanding parent head inner => contribution context expanding parent (.field head inner)
  | .output expanding type inner depth =>
    throughWrappers .selections (selectedCore context expanding inner) depth type

/-- Answers to calls that are nested `rounds` deep, with `others` for all that are deeper. -/
def unrolled (others : (call : SelectionCall) → Projection call.Answer) :
    Nat → (call : SelectionCall) → Projection call.Answer
  | 0 => others
  | rounds + 1 => context.step (unrolled others rounds)

end SelectionContext

/-! ### The projection answers calls -/

theorem optionalUnder_selectedEntries (context : SelectionContext) (expanding : List String)
    (parent type : NamedType) (selections : List Selection) :
    optionalUnder parent type <$> selectedEntries context expanding type selections =
      (fun entries => optionalUnder parent type (mergeEntries [] entries)) <$>
        contributions context expanding type selections := by
  rw [selectedEntries, Functor.map_map]

theorem contribution_eq_addition (context : SelectionContext) (expanding : List String)
    (parent : NamedType) (selection : Selection) :
    contribution context expanding parent selection =
      context.addition context.answer expanding parent selection := by
  cases selection with
  | field head inner => rfl
  | inline condition directives inner =>
      cases condition with
      | none => exact contribution_group context expanding parent directives inner
      | some name =>
          rw [contribution_inline, SelectionContext.addition]
          cases context.schema.get? name with
          | none => rfl
          | some type => exact (optionalUnder_selectedEntries ..).symm
  | spread name directives =>
      rw [contribution_spread, SelectionContext.addition]
      cases context.fragments.get? name with
      | none => rfl
      | some fragment =>
          by_cases hseen : name ∈ expanding
          · simp only [hseen, if_true]
          · simp only [hseen, if_false]
            cases context.schema.get? fragment.condition with
            | none => rfl
            | some type => exact (optionalUnder_selectedEntries ..).symm

theorem contributions_eq_mapM (context : SelectionContext) (expanding : List String)
    (parent : NamedType) (selections : List Selection) :
    contributions context expanding parent selections =
      List.flatten <$> selections.mapM (contribution context expanding parent) := by
  induction selections with
  | nil =>
      rw [contributions, List.mapM_nil, map_pure]
      rfl
  | cons selection rest ih =>
      rw [contributions, List.mapM_cons, ih]
      simp only [map_eq_pure_bind, bind_assoc, pure_bind, List.flatten_cons]

/-- What follows a value counts for this value only. -/
theorem Projection.bind_congr_value {α β : Type} {x : Projection α} {f g : α → Projection β}
    (h : f x.value = g x.value) : x >>= f = x >>= g := by
  refine Projection.ext ?_ ?_ ?_
  · rw [value_bind, value_bind, h]
  · rw [notices_bind, notices_bind, h]
  · rw [fault_bind, fault_bind, h]

theorem Projection.mapM_congr {α β : Type} {f g : α → Projection β} {xs : List α}
    (h : ∀ x ∈ xs, f x = g x) : xs.mapM f = xs.mapM g := by
  induction xs with
  | nil => rfl
  | cons x xs ih =>
      rw [List.mapM_cons, List.mapM_cons, h x List.mem_cons_self,
        ih fun other hother => h other (List.mem_cons_of_mem _ hother)]

namespace SelectionContext

variable (context : SelectionContext)

/-- **The projection is what its calls come to.** -/
theorem answer_eq_step (call : SelectionCall) :
    context.answer call = context.step context.answer call := by
  cases call with
  | selections expanding parent selections =>
      have hadditions : contribution context expanding parent =
          context.addition context.answer expanding parent :=
        funext (contribution_eq_addition context expanding parent)
      rw [answer, selectedEntries, contributions_eq_mapM, hadditions, step]
      simp only [map_eq_pure_bind, bind_assoc, pure_bind]
  | field expanding parent head inner =>
      rw [answer, step]
      cases hinternal : isInternal head.name with
      | true => exact contribution_internal _ _ _ _ hinternal
      | false => exact contribution_field _ _ _ _ hinternal
  | output expanding type inner depth =>
      rw [answer]
      cases type with
      | list item => rw [throughWrappers, step]; rfl
      | nonNull wrapped => rw [throughWrappers, step]; rfl
      | named name =>
          rw [throughWrappers, step, selectedCore]
          cases context.schema.get? name with
          | none => rfl
          | some type =>
              cases inner with
              | none => rfl
              | some selections =>
                  simp only [answer, selectedEntries, bind_map_left]

variable {context} {f g : (call : SelectionCall) → Projection call.Answer}

theorem addition_congr {expanding : List String} {parent : NamedType}
    {selections : List Selection} {selection : Selection} (hmem : selection ∈ selections)
    (h : ∀ opened inner, Calls context (.selections expanding parent selections) opened inner →
      f inner = g inner) :
    context.addition f expanding parent selection =
      context.addition g expanding parent selection := by
  cases selection with
  | field head inner => exact h _ _ (.field hmem)
  | inline condition directives inner =>
      cases condition with
      | none => exact h _ _ (.group hmem)
      | some name =>
          rw [addition, addition]
          cases hresolved : context.schema.get? name with
          | none => rfl
          | some type => simp only [h _ _ (.inline hmem hresolved)]
  | spread name directives =>
      rw [addition, addition]
      cases hfound : context.fragments.get? name with
      | none => rfl
      | some fragment =>
          by_cases hseen : name ∈ expanding
          · simp only [hseen, if_true]
          · simp only [hseen, if_false]
            cases hresolved : context.schema.get? fragment.condition with
            | none => rfl
            | some type => simp only [h _ _ (.spread hmem hfound hseen hresolved)]

/-- **A call asks for nothing but the calls that it makes.** -/
theorem step_congr {call : SelectionCall}
    (h : ∀ opened inner, Calls context call opened inner → f inner = g inner) :
    context.step f call = context.step g call := by
  cases call with
  | selections expanding parent selections =>
      rw [step, step, Projection.mapM_congr fun selection hmem => addition_congr hmem h]
  | field expanding parent head inner =>
      rw [step, step]
      cases hinternal : isInternal head.name with
      | true => rfl
      | false =>
          refine Projection.bind_congr_value ?_
          rw [Projection.value_lift]
          cases hfound : (selectedField parent head.name).value with
          | none => rfl
          | some declared => exact congrArg (· >>= _) (h _ _ (.output hinternal hfound))
  | output expanding type inner depth =>
      cases type with
      | list item =>
          rw [step, step]
          by_cases hdeep : wrapperLimit ≤ depth
          · rw [if_pos hdeep, if_pos hdeep]
          · rw [if_neg hdeep, if_neg hdeep, h _ _ (.list (Nat.lt_of_not_le hdeep))]
      | nonNull wrapped =>
          rw [step, step]
          by_cases hdeep : wrapperLimit ≤ depth
          · rw [if_pos hdeep, if_pos hdeep]
          · rw [if_neg hdeep, if_neg hdeep, h _ _ (.nonNull (Nat.lt_of_not_le hdeep))]
      | named name =>
          rw [step, step]
          cases hresolved : context.schema.get? name with
          | none => rfl
          | some type =>
              cases inner with
              | none => rfl
              | some selections =>
                  cases hcomposite : type.isComposite with
                  | true => simp only [h _ _ (.core hresolved hcomposite)]
                  | false => simp only [hcomposite, Bool.false_eq_true, if_false]

end SelectionContext

/-! ### The rank of a call -/

mutual

/-- How deep calls are nested for a selection, up to the fragments that it spreads: a field calls
for its type, and this one for as many others as it has wrappers that are gone through. -/
def Syntax.Selection.nesting : Selection → Nat
  | .field _ none => wrapperLimit + 3
  | .field _ (some selections) => wrapperLimit + 3 + nestingOf selections
  | .spread .. => 0
  | .inline _ _ selections => 1 + nestingOf selections

def nestingOf : List Selection → Nat
  | [] => 0
  | selection :: rest => max selection.nesting (nestingOf rest)

end

theorem nesting_le_of_mem {selection : Selection} {selections : List Selection}
    (h : selection ∈ selections) : selection.nesting ≤ nestingOf selections := by
  induction selections with
  | nil => cases h
  | cons first rest ih =>
      rw [nestingOf]
      rcases List.mem_cons.mp h with rfl | h
      · exact Nat.le_max_left _ _
      · exact Nat.le_trans (ih h) (Nat.le_max_right _ _)

theorem nestingOf_mono {selections others : List Selection}
    (h : ∀ selection ∈ selections, selection ∈ others) :
    nestingOf selections ≤ nestingOf others := by
  induction selections with
  | nil => exact Nat.zero_le _
  | cons first rest ih =>
      rw [nestingOf, Nat.max_le]
      exact ⟨nesting_le_of_mem (h first List.mem_cons_self),
        ih fun other hother => h other (List.mem_cons_of_mem _ hother)⟩

theorem nesting_field (head : FieldHead) (inner : Option (List Selection)) :
    (Selection.field head inner).nesting = wrapperLimit + 3 + (inner.map nestingOf).getD 0 := by
  cases inner <;> rfl

namespace SelectionContext

variable (context : SelectionContext)

/-- More than calls are nested for any fragment of the table. -/
def span : Nat :=
  nestingOf (context.fragments.flatMap Fragment.selections) + 1

/-- How deep calls may be nested in a call. Each fragment that is not being expanded may be opened
once more, and around the fragments there are the calls for what is written. -/
def rank : SelectionCall → Nat
  | .selections expanding _ selections =>
    context.fragments.unseen expanding * context.span + nestingOf selections
  | .field expanding _ _ inner =>
    context.fragments.unseen expanding * context.span +
      ((inner.map nestingOf).getD 0 + wrapperLimit + 2)
  | .output expanding _ inner depth =>
    context.fragments.unseen expanding * context.span +
      ((inner.map nestingOf).getD 0 + (wrapperLimit - depth) + 1)

end SelectionContext

/-- Every call makes calls of a lower rank only. -/
theorem Calls.rank_lt {context : SelectionContext} {outer inner : SelectionCall}
    {opened : Option String} (h : Calls context outer opened inner) :
    context.rank inner < context.rank outer := by
  cases h with
  | field mem =>
      have hnesting := nesting_le_of_mem mem
      rw [nesting_field] at hnesting
      rw [SelectionContext.rank, SelectionContext.rank]
      omega
  | group mem | inline mem resolved =>
      have hnesting := nesting_le_of_mem mem
      rw [Selection.nesting] at hnesting
      rw [SelectionContext.rank, SelectionContext.rank]
      omega
  | @spread expanding parent type selections name directives fragment mem found fresh resolved =>
      -- one fragment less is left to be opened, and its selections take no more than its span
      have hless := FragmentTable.unseen_cons_lt found fresh
      have hspan := Nat.mul_le_mul_right context.span (Nat.succ_le_of_lt hless)
      rw [Nat.succ_mul] at hspan
      have hnesting : nestingOf fragment.selections < context.span :=
        Nat.lt_succ_of_le (nestingOf_mono fun selection hmem =>
          List.mem_flatMap_of_mem (FragmentTable.mem_of_get? found) hmem)
      rw [SelectionContext.rank, SelectionContext.rank]
      omega
  | output ordinary found =>
      rw [SelectionContext.rank, SelectionContext.rank]
      omega
  | list shallow | nonNull shallow =>
      rw [SelectionContext.rank, SelectionContext.rank]
      omega
  | core resolved composite =>
      rw [SelectionContext.rank, SelectionContext.rank, Option.map_some, Option.getD_some]
      omega

theorem wellFounded_calls (context : SelectionContext) :
    WellFounded fun inner outer => ∃ opened, Calls context outer opened inner :=
  Subrelation.wf (fun ⟨_, h⟩ => h.rank_lt) (InvImage.wf context.rank Nat.lt_wfRel.wf)

/-- **The projection ends.** It is found by as many rounds of nested calls as the rank says. -/
theorem SelectionContext.unrolled_eq_answer (context : SelectionContext)
    (others : (call : SelectionCall) → Projection call.Answer) {call : SelectionCall}
    {rounds : Nat} (h : context.rank call < rounds) :
    context.unrolled others rounds call = context.answer call := by
  induction rounds generalizing call with
  | zero => exact absurd h (Nat.not_lt_zero _)
  | succ rounds ih =>
      rw [unrolled, answer_eq_step]
      exact step_congr fun opened inner hcalls =>
        ih (Nat.lt_of_lt_of_le hcalls.rank_lt (Nat.le_of_lt_succ h))

end OperationLibrary
