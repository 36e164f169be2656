import Mathlib.Data.List.Forall2
import OperationLibrary.Proofs.ProjectedEntries
import OperationLibrary.Proofs.RunTypes

/-!
Ways of runs. A selection set lies along a path behind guards, some before the field of each key. If
no directive decides whether a selection counts, then which objects a run comes to on its path
decides which sets it applies at the end: those whose guards let these objects pass. A guard that
does not narrow the objects down lets every object of the run pass.
-/

namespace OperationLibrary

open Syntax

section

variable {context : SelectionContext} {root : SelectionSet} {given : String → Bool}

/-! ### Guards that objects pass -/

/-- No directive decides whether a selection counts. -/
def Unconditional (directives : List Directive) : Prop :=
  ∀ directive ∈ directives, directive.name ≠ "skip" ∧ directive.name ≠ "include"

/-- Nothing that an operation selects is decided by directives. -/
def PlainSelections (context : SelectionContext) (root : SelectionSet) : Prop :=
  ∀ path set guards field, Nested context root path set → Selects context set guards field →
    Unconditional field.head.directives ∧ ∀ guard ∈ guards, Unconditional guard.directives

theorem isIncluded_of_unconditional {directives : List Directive} (h : Unconditional directives)
    (given : String → Bool) : isIncluded given directives = true := by
  rw [isIncluded, List.all_eq_true]
  intro directive hmem
  obtain ⟨hskip, hinclude⟩ := h directive hmem
  simp [hskip, hinclude]

/-- A guard that narrows lets only the objects of its condition pass. -/
def Guard.Passes (object : NamedType) (guard : Guard) : Prop :=
  guard.narrows = true → guard.condition.all (·.includes object) = true

theorem Guard.passes_of_admits {object : NamedType} {guard : Guard}
    (h : guard.admits given object = true) : guard.Passes object := by
  rw [Guard.admits, Bool.and_eq_true] at h
  exact fun _ => h.2

theorem Opens.parent_eq {outer inner : SelectionSet} {guard : Guard}
    (h : Opens context outer guard inner) : guard.parent = outer.parent := by
  cases h <;> rfl

/-- Of the objects of the type outside it, a guard admits those that pass it. -/
theorem Opens.admits {outer inner : SelectionSet} {guard : Guard} {object : NamedType}
    (h : Opens context outer guard inner) (houter : context.schema.Knows outer.parent)
    (hobject : context.schema.Knows object) (hincludes : outer.parent.includes object = true)
    (hpasses : guard.Passes object) (hplain : Unconditional guard.directives)
    (happly : guard.MayApply context.schema) (given : String → Bool) :
    guard.admits given object = true := by
  obtain ⟨parent, condition, directives⟩ := guard
  rw [Guard.admits, isIncluded_of_unconditional hplain, Bool.true_and]
  cases condition with
  | none => rfl
  | some condition =>
      have hparent : parent = outer.parent := h.parent_eq
      have hcondition : context.schema.Knows condition := by
        cases h with
        | inline mem resolved | spread mem found resolved => exact Schema.knows_of_get? resolved
      cases hnarrows : Guard.narrows ⟨parent, some condition, directives⟩ with
      | true => exact hpasses hnarrows
      | false =>
          rw [Option.all_some]
          cases habstract : parent.isAbstract with
          | true =>
              simp only [Guard.narrows, Option.any_some, habstract, Bool.true_and,
                bne_eq_false_iff_eq] at hnarrows
              rwa [hcondition.eq_of_name_eq houter (hparent ▸ hnarrows)]
          | false =>
              -- no object but the outer type itself is outside, and some object meets the condition
              obtain ⟨other, hother, -, hincludes', hmeets⟩ := happly condition rfl
              subst hparent
              rw [← houter.eq_of_includes hobject habstract hincludes,
                houter.eq_of_includes hother habstract hincludes']
              exact hmeets

/-- The objects that pass all guards come to the field behind them. -/
theorem Selects.admits_iff {set : SelectionSet} {guards : List Guard} {field : SelectedField}
    {object : NamedType} (h : Selects context set guards field)
    (hset : context.schema.Knows set.parent) (hobject : context.schema.Knows object)
    (hincludes : set.parent.includes object = true)
    (hguards : ∀ guard ∈ guards, Unconditional guard.directives ∧ guard.MayApply context.schema) :
    (∀ guard ∈ guards, guard.admits given object = true) ↔
      ∀ guard ∈ guards, guard.Passes object := by
  refine ⟨fun hadmits guard hmem => Guard.passes_of_admits (hadmits guard hmem), fun hpasses => ?_⟩
  induction h with
  | field mem => simp
  | @behind outer inner guard guards field opens selects ih =>
      obtain ⟨hplain, happly⟩ := hguards guard List.mem_cons_self
      have hadmits := opens.admits hset hobject hincludes (hpasses guard List.mem_cons_self)
        hplain happly given
      refine List.forall_mem_cons.mpr ⟨hadmits, ih (opens.knows hset)
        (opens.includes hadmits hincludes) ?_ ?_⟩
      · exact fun other h => hguards other (List.mem_cons_of_mem _ h)
      · exact fun other h => hpasses other (List.mem_cons_of_mem _ h)

/-- A run collects what its sets select behind guards that the object passes. -/
theorem Applies.collects_iff {object : NamedType} {sets : Set SelectionSet} {path : List String}
    {field : SelectedField} (happlies : Applies context root object sets)
    (hplain : PlainSelections context root) (hselections : ValidSelections context root)
    (hnested : ∀ set ∈ sets, Nested context root path set) :
    Collects context given object sets field ↔ ∃ set ∈ sets, ∃ guards,
      Selects context set guards field ∧ ∀ guard ∈ guards, guard.Passes object := by
  refine exists_congr fun set => and_congr_right fun hset => exists_congr fun guards =>
    and_congr_right fun hselects => ?_
  obtain ⟨hfield, hguards⟩ := hplain path set guards field (hnested set hset) hselects
  have hconditions := hselections.conditions path set guards field (hnested set hset) hselects
  rw [hselects.admits_iff (happlies.knows set hset) happlies.known (happlies.includes set hset)
    fun guard hmem => ⟨hguards guard hmem, hconditions guard hmem⟩]
  exact and_iff_left (isIncluded_of_unconditional hfield given)

/-! ### Ways -/

/-- A selection set lies along a path of keys, with these guards before the field of each key. -/
inductive Way (context : SelectionContext) (root : SelectionSet) :
    List String → List (List Guard) → SelectionSet → Prop
  | root : Way context root [] [] root
  | field {path : List String} {way : List (List Guard)} {set next : SelectionSet}
      {guards : List Guard} {field : SelectedField} (before : Way context root path way set)
      (selects : Selects context set guards field)
      (inner : field.innerSet? context.schema = some next) :
      Way context root (path ++ [field.key]) (way ++ [guards]) next

/-- Objects pass the guards of a way, one object before each field. -/
def PassedBy (objects : List NamedType) (way : List (List Guard)) : Prop :=
  List.Forall₂ (fun object guards => ∀ guard ∈ guards, guard.Passes object) objects way

theorem passedBy_concat_iff {objects : List NamedType} {object : NamedType}
    {way : List (List Guard)} {guards : List Guard} :
    PassedBy (objects ++ [object]) (way ++ [guards]) ↔
      PassedBy objects way ∧ ∀ guard ∈ guards, guard.Passes object := by
  rw [PassedBy, ← List.forall₂_reverse_iff, List.reverse_append, List.reverse_append]
  simp only [List.reverse_singleton, List.singleton_append, List.forall₂_cons,
    List.forall₂_reverse_iff]
  exact and_comm

namespace Way

variable {path : List String} {way : List (List Guard)} {set last : SelectionSet}

theorem nested (h : Way context root path way set) : Nested context root path set := by
  induction h with
  | root => exact .here root
  | field _ selects inner ih => exact ih.concat selects inner

theorem length_eq (h : Way context root path way set) : way.length = path.length := by
  induction h with
  | root => rfl
  | field _ _ _ ih => simp [ih]

theorem append_nested (h : Way context root path way set) {further : List String}
    (hnested : Nested context set further last) :
    ∃ rest, Way context root (path ++ further) (way ++ rest) last := by
  induction hnested generalizing path way with
  | here set => exact ⟨[], by simpa using h⟩
  | @field set next last guards field further selects inner _ ih =>
      obtain ⟨rest, hrest⟩ := ih (.field h selects inner)
      exact ⟨guards :: rest, by simpa using hrest⟩

theorem of_nested (h : Nested context root path set) : ∃ way, Way context root path way set := by
  simpa using Way.root.append_nested h

/-- A way without narrowing guards is passed by any objects. -/
theorem passedBy (h : Way context root path way set)
    (hplain : ∀ guards ∈ way, ∀ guard ∈ guards, guard.narrows = false)
    {objects : List NamedType} (hlength : objects.length = path.length) :
    PassedBy objects way := by
  refine List.forall₂_iff_zip.mpr ⟨hlength.trans h.length_eq.symm, ?_⟩
  intro object guards hmem guard hguard hnarrows
  exact absurd hnarrows (by simp [hplain guards (List.of_mem_zip hmem).2 guard hguard])

end Way

/-! ### The sets that a run applies -/

/-- **What a run applies.** The objects that a run comes to on its path decide which selection sets
it applies at the end: those with a way that these objects pass. -/
theorem Executes.exists_objects (hschema : context.schema.Valid)
    (hselections : ValidSelections context root) (hplain : PlainSelections context root)
    (hroot : context.schema.Knows root.parent) (hisObject : root.parent.isObject = true)
    {path : List String} {object : NamedType} {sets : Set SelectionSet}
    (h : Executes context given root path object sets) :
    ∃ objects : List NamedType,
      (∀ object ∈ objects, context.schema.Knows object ∧ object.isObject = true) ∧
        ∀ set, set ∈ sets ↔ ∃ way, Way context root path way set ∧ PassedBy objects way := by
  induction h with
  | root =>
      refine ⟨[], by simp, fun set => ⟨?_, ?_⟩⟩
      · rintro rfl
        exact ⟨[], .root, .nil⟩
      · rintro ⟨way, hway, -⟩
        generalize hpath : ([] : List String) = path at hway
        cases hway with
        | root => rfl
        | field => simp at hpath
  | @field path object type value sets field declared reached collected found resolved known
      isObject possible ih =>
      obtain ⟨objects, hknown, hobjects⟩ := ih
      have happlies := reached.applies hschema hselections hroot hisObject
      have hcollects (other : SelectedField) : Collects context given object sets other ↔
          ∃ set ∈ sets, ∃ guards, Selects context set guards other ∧
            ∀ guard ∈ guards, guard.Passes object :=
        happlies.collects_iff hplain hselections reached.nested
      refine ⟨objects ++ [object], ?_, fun set => ⟨?_, ?_⟩⟩
      · exact List.forall_mem_append.mpr
          ⟨hknown, List.forall_mem_singleton.mpr ⟨happlies.known, happlies.isObject⟩⟩
      · rintro ⟨other, hother, hkey, hinner⟩
        obtain ⟨outer, houter, guards, hselects, hpasses⟩ := (hcollects other).mp hother
        obtain ⟨way, hway, hpassed⟩ := (hobjects outer).mp houter
        exact ⟨way ++ [guards], hkey ▸ hway.field hselects hinner,
          passedBy_concat_iff.mpr ⟨hpassed, hpasses⟩⟩
      · rintro ⟨way, hway, hpassed⟩
        generalize hpath : path ++ [field.key] = keys at hway
        cases hway with
        | root => simp at hpath
        | @field path' way outer next guards other hbefore hselects hinner =>
            obtain ⟨rfl, hkey⟩ := List.append_inj' hpath rfl
            obtain ⟨hpassed, hpasses⟩ := passedBy_concat_iff.mp hpassed
            have houter := (hobjects outer).mpr ⟨way, hbefore, hpassed⟩
            exact ⟨other, (hcollects other).mpr ⟨outer, houter, guards, hselects, hpasses⟩,
              by simpa using hkey.symm, hinner⟩

end

end OperationLibrary
