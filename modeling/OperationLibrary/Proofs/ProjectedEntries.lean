import OperationLibrary.Proofs.Execution
import OperationLibrary.Proofs.Reachability
import OperationLibrary.Proofs.SelectionProjection
import OperationLibrary.Proofs.ShapePlaces

/-!
Where the entries of a projection come from. Every entry is made by a field, comes out of a
fragment, or is merged from two entries of one name. And if no fragment spreads itself, every
selected field makes an entry, which merging keeps.
-/

namespace OperationLibrary

open Syntax

/-! ### Wrappers -/

/-- The shape of a type whose core has the shape `core`, inside `depth` further wrappers. -/
def Shape.wrap (core : Shape) : Nat → TypeRef → Shape
  | _, .named _ => core
  | depth, .list item =>
    if wrapperLimit ≤ depth then .bailedOut else .list (core.wrap (depth + 1) item) none
  | depth, .nonNull inner =>
    if wrapperLimit ≤ depth then .bailedOut else core.wrap (depth + 1) inner

theorem value_throughWrappers (topic : Topic) (core : String → Projection Shape) (depth : Nat)
    (type : TypeRef) :
    (throughWrappers topic core depth type).value = (core type.base).value.wrap depth type := by
  induction type generalizing depth with
  | named name => rfl
  | list item ih | nonNull item ih =>
      rw [throughWrappers, Shape.wrap]
      split
      · rfl
      · simp [ih, TypeRef.base]

theorem fault_throughWrappers (topic : Topic) (core : String → Projection Shape) (depth : Nat)
    (type : TypeRef) (hcore : (core type.base).fault = none) :
    (throughWrappers topic core depth type).fault = none := by
  induction type generalizing depth with
  | named name => exact hcore
  | list item ih | nonNull item ih =>
      rw [throughWrappers]
      split
      · rfl
      · simp [ih _ hcore]

namespace Shape

variable {core : Shape} {depth : Nat} {type : TypeRef}

theorem mem_entries_of_mem_wrap {entry : Entry Shape}
    (h : entry ∈ (core.wrap depth type).entries) : entry ∈ core.entries := by
  induction type generalizing depth with
  | named name => exact h
  | list item ih | nonNull item ih =>
      rw [wrap] at h
      split at h
      · simp [bailedOut, entries] at h
      · exact ih h

theorem entries_wrap (hwrappers : type.wrappers + depth ≤ wrapperLimit) :
    (core.wrap depth type).entries = core.entries := by
  induction type generalizing depth with
  | named name => rfl
  | list item ih | nonNull item ih =>
      rw [TypeRef.wrappers] at hwrappers
      rw [wrap, if_neg (by omega)]
      exact ih (by omega)

theorem HasForm.wrap {composite : Bool} {name : String} (h : core.HasForm composite (.named name))
    (hwrappers : type.wrappers + depth ≤ wrapperLimit) :
    (core.wrap depth type).HasForm composite type := by
  induction type generalizing depth with
  | named _ => cases core <;> exact h
  | list item ih | nonNull item ih =>
      rw [TypeRef.wrappers] at hwrappers
      rw [Shape.wrap, if_neg (by omega)]
      exact ih (by omega)

end Shape

/-! ### The makers of entries -/

/-- Whether fields behind a guard are selected for some of the objects outside it only. -/
def Guard.narrows (guard : Guard) : Bool :=
  guard.condition.any fun condition =>
    guard.parent.isAbstract && condition.name != guard.parent.name

/-- What becomes of an entry behind a guard. -/
def Guard.weaken (guard : Guard) (entry : Entry Shape) : Entry Shape :=
  if guard.narrows then { entry with nullable := true } else entry

@[simp] theorem Guard.name_weaken (guard : Guard) (entry : Entry Shape) :
    (guard.weaken entry).name = entry.name := by
  rw [Guard.weaken]
  split <;> rfl

@[simp] theorem Guard.type_weaken (guard : Guard) (entry : Entry Shape) :
    (guard.weaken entry).type = entry.type := by
  rw [Guard.weaken]
  split <;> rfl

/-- An entry can come from the projection of a selection set. -/
inductive Projected (context : SelectionContext) : SelectionSet → Entry Shape → Prop
  | internal {parent : NamedType} {selections : List Selection} {head : FieldHead}
      {inner : Option (List Selection)} (mem : .field head inner ∈ selections)
      (internal : isInternal head.name = true) :
      Projected context ⟨parent, selections⟩ (internalEntry head.responseKey)
  | plain {parent : NamedType} {selections : List Selection} {head : FieldHead}
      {inner : Option (List Selection)} {declared : OutputField} (expanding : List String)
      (mem : .field head inner ∈ selections) (ordinary : isInternal head.name = false)
      (found : parent.field? head.name = some declared)
      (plain : ∀ type, context.schema.get? declared.type.base = some type →
        type.isComposite = true → inner = none) :
      Projected context ⟨parent, selections⟩
        ⟨head.responseKey,
          (selectedCore context expanding inner declared.type.base).value.wrap 0 declared.type,
          !declared.type.isNonNull, declared.description⟩
  | composite {parent type : NamedType} {selections inner : List Selection} {head : FieldHead}
      {declared : OutputField} {entries : List (Entry Shape)}
      (mem : .field head (some inner) ∈ selections) (ordinary : isInternal head.name = false)
      (found : parent.field? head.name = some declared)
      (resolved : context.schema.get? declared.type.base = some type)
      (composite : type.isComposite = true)
      (projected : ∀ entry ∈ entries, Projected context ⟨type, inner⟩ entry) :
      Projected context ⟨parent, selections⟩
        ⟨head.responseKey, (Shape.object entries type.description).wrap 0 declared.type,
          !declared.type.isNonNull, declared.description⟩
  | behind {outer inner : SelectionSet} {guard : Guard} {entry : Entry Shape}
      (opens : Opens context outer guard inner) (projected : Projected context inner entry) :
      Projected context outer (guard.weaken entry)
  | merge {set : SelectionSet} {known entry : Entry Shape} (left : Projected context set known)
      (right : Projected context set entry) (name : known.name = entry.name) :
      Projected context set (known.merge entry)

theorem value_selectedField (parent : NamedType) (name : String) :
    (selectedField parent name).value = parent.field? name := by
  rw [selectedField, NamedType.field?]
  cases parent.outputFields? with
  | none => rfl
  | some fields =>
      simp only [Option.getD_some]
      cases fields.find? (·.name == name) <;> rfl

theorem optionalUnder_eq_map (parent condition : NamedType) (directives : List Directive)
    (entries : List (Entry Shape)) :
    optionalUnder parent condition entries =
      entries.map (Guard.weaken ⟨parent, some condition, directives⟩) := by
  have hweaken (entry : Entry Shape) :
      Guard.weaken ⟨parent, some condition, directives⟩ entry =
        if parent.isAbstract && condition.name != parent.name then { entry with nullable := true }
        else entry := rfl
  rw [optionalUnder, funext hweaken]
  split
  · rfl
  · exact (List.map_id _).symm

section

variable (context : SelectionContext) (expanding : List String)

/-- The value of a field whose type is composite. -/
theorem value_selectedCore_composite {name : String} {type : NamedType}
    {selections : List Selection} (hget : context.schema.get? name = some type)
    (hcomposite : type.isComposite = true) :
    (selectedCore context expanding (some selections) name).value =
      .object (mergeEntries [] (contributions context expanding type selections).value)
        type.description := by
  rw [selectedCore, hget]
  simp only [hcomposite, if_true]
  rfl

/-- The value of an ordinary field that its type has. -/
theorem value_contribution_field {parent : NamedType} {head : FieldHead}
    {inner : Option (List Selection)} {declared : OutputField}
    (hordinary : isInternal head.name = false) (hfound : parent.field? head.name = some declared) :
    (contribution context expanding parent (.field head inner)).value =
      [⟨head.responseKey,
        (selectedCore context expanding inner declared.type.base).value.wrap 0 declared.type,
        !declared.type.isNonNull, declared.description⟩] := by
  rw [contribution_field _ _ _ _ hordinary]
  simp [value_selectedField, hfound, value_throughWrappers]

theorem Projected.mergeEntries {context : SelectionContext} {set : SelectionSet}
    {entries : List (Entry Shape)} (h : ∀ entry ∈ entries, Projected context set entry) :
    ∀ entry ∈ mergeEntries [] entries, Projected context set entry :=
  forall_mem_mergeEntries (by simp) h fun _ _ _ hknown hentry hname => .merge hknown hentry hname

/-- All entries of a projection come from its selection set. -/
theorem contributions_projected (parent : NamedType) (selections : List Selection) :
    ∀ entry ∈ (contributions context expanding parent selections).value,
      Projected context ⟨parent, selections⟩ entry := by
  -- the selections that are walked through are a part of those that entries are said to come from
  refine (contribution.mutual_induct context
    (fun expanding parent selection => ∀ selections, selection ∈ selections →
      ∀ entry ∈ (contribution context expanding parent selection).value,
        Projected context ⟨parent, selections⟩ entry)
    (fun expanding parent part => ∀ selections, (∀ selection ∈ part, selection ∈ selections) →
      ∀ entry ∈ (contributions context expanding parent part).value,
        Projected context ⟨parent, selections⟩ entry)
    ?internal ?field ?group ?unresolved ?inline ?unknown ?seen ?unconditioned ?spread ?nil
    ?cons).2 expanding parent selections selections fun _ h => h
  case internal =>
    intro expanding parent head inner hinternal selections hmem entry hentry
    rw [contribution_internal _ _ _ _ hinternal] at hentry
    rw [List.mem_singleton.mp hentry]
    exact .internal hmem hinternal
  case field =>
    intro expanding parent head inner hordinary ih selections hmem entry hentry
    have hordinary : isInternal head.name = false := by simpa using hordinary
    cases hfound : parent.field? head.name with
    | none =>
        rw [contribution_field _ _ _ _ hordinary] at hentry
        simp [value_selectedField, hfound] at hentry
    | some declared =>
        rw [value_contribution_field _ _ hordinary hfound, List.mem_singleton] at hentry
        subst hentry
        by_cases hcomposite : ∃ type selections,
            context.schema.get? declared.type.base = some type ∧
              type.isComposite = true ∧ inner = some selections
        · obtain ⟨type, selections, hget, hcomposite, rfl⟩ := hcomposite
          rw [value_selectedCore_composite _ _ hget hcomposite]
          exact .composite hmem hordinary hfound hget hcomposite
            (Projected.mergeEntries (ih type selections fun _ h => h))
        · refine .plain expanding hmem hordinary hfound fun type hget htype => ?_
          exact Option.eq_none_iff_forall_ne_some.mpr fun selections hinner =>
            hcomposite ⟨type, selections, hget, htype, hinner⟩
  case group =>
    intro expanding parent directives inner ih selections hmem entry hentry
    rw [contribution_group] at hentry
    exact .behind (.group hmem) (Projected.mergeEntries (ih inner fun _ h => h) entry hentry)
  case unresolved =>
    intro expanding parent directives inner name hnone selections _ entry hentry
    simp [contribution_inline, hnone] at hentry
  case inline =>
    intro expanding parent directives inner name type hsome ih selections hmem entry hentry
    rw [contribution_inline, hsome, Projection.value_map,
      optionalUnder_eq_map parent type directives] at hentry
    obtain ⟨known, hknown, rfl⟩ := List.mem_map.mp hentry
    exact .behind (.inline hmem hsome) (Projected.mergeEntries (ih inner fun _ h => h) known hknown)
  case unknown =>
    intro expanding parent name directives hnone selections _ entry hentry
    simp [contribution_spread, hnone] at hentry
  case seen =>
    intro expanding parent name directives fragment hsome hseen selections _ entry hentry
    simp [contribution_spread, hsome, hseen] at hentry
  case unconditioned =>
    intro expanding parent name directives fragment hsome hfresh hnone selections _ entry hentry
    simp [contribution_spread, hsome, hfresh, hnone] at hentry
  case spread =>
    intro expanding parent name directives fragment hsome hfresh type htype ih selections hmem
      entry hentry
    simp only [contribution_spread, hsome, hfresh, if_false, htype, Projection.value_map,
      optionalUnder_eq_map parent type directives] at hentry
    obtain ⟨known, hknown, rfl⟩ := List.mem_map.mp hentry
    exact .behind (.spread hmem hsome htype)
      (Projected.mergeEntries (ih fragment.selections fun _ h => h) known hknown)
  case nil =>
    intro expanding parent selections _ entry hentry
    simp [contributions] at hentry
  case cons =>
    intro expanding parent first rest ihFirst ihRest selections hsub entry hentry
    rw [contributions] at hentry
    rcases List.mem_append.mp hentry with h | h
    · exact ihFirst selections (hsub _ List.mem_cons_self) entry h
    · exact ihRest selections (fun _ h => hsub _ (List.mem_cons_of_mem _ h)) entry h

end

/-! ### Fragments that may be expanded -/

/-- Selections do not lead to any of the fragments that are being expanded. -/
def MayExpand (table : FragmentTable) (expanding : List String) (selections : List Selection) :
    Prop :=
  ∀ fragment, Reaches table selections fragment → fragment.name ∉ expanding

section

variable {context : SelectionContext} {expanding : List String}

theorem MayExpand.mono {table : FragmentTable} {selections others : List Selection}
    (h : MayExpand table expanding others)
    (hsub : ∀ name ∈ spreadNames selections, name ∈ spreadNames others) :
    MayExpand table expanding selections :=
  fun fragment hreach => h fragment (hreach.mono hsub)

/-- If no fragment leads back to itself, what a fragment opens is projected, and the guard is put
before the entries that come out of it. -/
theorem Opens.exists_contribution {outer inner : SelectionSet} {guard : Guard}
    (h : Opens context outer guard inner) (hacyclic : context.fragments.Acyclic)
    (hexpand : MayExpand context.fragments expanding outer.selections) :
    ∃ inside, ∃ selection ∈ outer.selections,
      MayExpand context.fragments inside inner.selections ∧
        (contribution context expanding outer.parent selection).value =
          (mergeEntries [] (contributions context inside inner.parent
            inner.selections).value).map guard.weaken := by
  cases h with
  | @group parent selections inner directives mem =>
      refine ⟨expanding, _, mem, hexpand.mono fun name => mem_spreadNames_of_mem mem, ?_⟩
      rw [contribution_group]
      exact (List.map_id _).symm
  | @inline parent condition selections inner name directives mem resolved =>
      refine ⟨expanding, _, mem, hexpand.mono fun name => mem_spreadNames_of_mem mem, ?_⟩
      rw [contribution_inline, resolved, Projection.value_map,
        optionalUnder_eq_map parent condition directives]
  | @spread parent condition selections name directives fragment mem found resolved =>
      have hspread : name ∈ spreadNames selections :=
        mem_spreadNames_of_mem mem (by simp [Selection.spreads])
      have hdirect : Reaches context.fragments selections fragment := .direct hspread found
      have hname := FragmentTable.name_of_get? found
      -- what the fragment leads to is neither the fragment itself nor expanded around it
      refine ⟨name :: expanding, _, mem, fun other hreach hother => ?_, ?_⟩
      · rcases List.mem_cons.mp hother with hsame | hother
        · have hget := hreach.get?_eq
          rw [hsame, found, Option.some.injEq] at hget
          exact hacyclic name fragment found (hget ▸ hreach)
        · exact hexpand other (hdirect.trans hreach) hother
      · have hfresh : name ∉ expanding := hname ▸ hexpand fragment hdirect
        simp only [contribution_spread, found, hfresh, if_false, resolved, Projection.value_map,
          optionalUnder_eq_map parent condition directives]

theorem mem_contributions {parent : NamedType} {selections : List Selection}
    {selection : Selection} {entry : Entry Shape} (hmem : selection ∈ selections)
    (hentry : entry ∈ (contribution context expanding parent selection).value) :
    entry ∈ (contributions context expanding parent selections).value := by
  induction selections with
  | nil => simp at hmem
  | cons first rest ih =>
      rw [contributions]
      rcases List.mem_cons.mp hmem with rfl | hmem
      · exact List.mem_append_left _ hentry
      · exact List.mem_append_right _ (ih hmem)

end

end OperationLibrary
