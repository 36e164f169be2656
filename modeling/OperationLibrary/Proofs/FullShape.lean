import Mathlib.Logic.Relation
import OperationLibrary.Shape.FullType

/-!
Full shapes of types that do not lead back to themselves. What is unfolded around a type counts
only where the type leads to it, so the entries of a type without a way back have the full shapes of
their own types.
-/

namespace OperationLibrary

open Syntax Relation

/-! ### Projections apart from their notices -/

namespace Projection

variable {α β : Type}

/-- Projections come to the same, whatever notices are made on the way. -/
def Agrees (x y : Projection α) : Prop :=
  x.value = y.value ∧ x.fault = y.fault

theorem Agrees.refl (x : Projection α) : x.Agrees x := ⟨rfl, rfl⟩

theorem Agrees.bind {x y : Projection α} {f g : α → Projection β} (h : x.Agrees y)
    (hnext : (f y.value).Agrees (g y.value)) : (x >>= f).Agrees (y >>= g) := by
  obtain ⟨hvalue, hfault⟩ := h
  constructor
  · rw [value_bind, value_bind, hvalue, hnext.1]
  · rw [fault_bind, fault_bind, hvalue, hfault, hnext.2]

theorem Agrees.map (f : α → β) {x y : Projection α} (h : x.Agrees y) :
    (f <$> x).Agrees (f <$> y) := by
  obtain ⟨hvalue, hfault⟩ := h
  constructor
  · rw [value_map, value_map, hvalue]
  · rw [fault_map, fault_map, hfault]

theorem Agrees.mapM {f g : α → Projection β} {xs : List α} (h : ∀ x ∈ xs, (f x).Agrees (g x)) :
    (xs.mapM f).Agrees (xs.mapM g) := by
  induction xs with
  | nil => exact .refl _
  | cons x xs ih =>
      rw [List.mapM_cons, List.mapM_cons]
      apply (h x List.mem_cons_self).bind
      exact (ih fun other hother => h other (List.mem_cons_of_mem _ hother)).bind (.refl _)

theorem value_mapM (f : α → Projection β) (xs : List α) :
    (xs.mapM f).value = xs.map fun x => (f x).value := by
  induction xs with
  | nil => rfl
  | cons x xs ih =>
      rw [List.mapM_cons]
      simp [ih]

end Projection

/-- Wrappers treat shapes alike, whatever their warnings are about. -/
theorem throughWrappers_agrees {topic other : Topic} {core inner : String → Projection Shape}
    {type : TypeRef} (h : (core type.base).Agrees (inner type.base)) (depth : Nat) :
    (throughWrappers topic core depth type).Agrees (throughWrappers other inner depth type) := by
  induction type generalizing depth with
  | named name => exact h
  | list item ih =>
      rw [throughWrappers, throughWrappers]
      split
      · exact .refl _
      · exact (ih h _).bind (.refl _)
  | nonNull item ih =>
      rw [throughWrappers, throughWrappers]
      split
      · exact .refl _
      · exact ih h _

/-! ### Types inside types -/

/-- Some field of the one type is of the other. -/
def Schema.Mentions (schema : Schema) (outer inner : String) : Prop :=
  ∃ type fields, schema.get? outer = some type ∧ type.unfoldedFields? = some fields ∧
    ∃ field ∈ fields, field.2.2.base = inner

section

variable {schema : Schema} {scalars : ScalarTable} {name : String} {type : NamedType}

theorem NamedType.unfoldedFields?_of_outputFields? {declared : List OutputField}
    (h : type.outputFields? = some declared) :
    type.unfoldedFields? =
      some (declared.map fun field => (field.name, field.description, field.type)) := by
  rw [outputFields?] at h
  split at h
  all_goals first
    | contradiction
    | (rename_i hcontent; obtain rfl := Option.some.inj h; rw [unfoldedFields?, hcontent])

theorem Schema.mentions_of_mem {fields : List OutputField} {field : OutputField}
    (hget : schema.get? name = some type) (hfields : type.outputFields? = some fields)
    (hmem : field ∈ fields) : schema.Mentions name field.type.base :=
  ⟨type, _, hget, NamedType.unfoldedFields?_of_outputFields? hfields, _,
    List.mem_map_of_mem hmem, rfl⟩

/-- The entry of the full shape of a type that a field makes. -/
def unfoldedEntry (schema : Schema) (scalars : ScalarTable) (unfolding : List String)
    (field : String × Option Explanation × TypeRef) : Projection (Entry Shape) := do
  let shape ← throughWrappers .types (shapeOfName schema scalars unfolding) 0 field.2.2
  return ⟨field.1, shape, !field.2.2.isNonNull, field.2.1⟩

theorem content_of_unfoldedFields? {fields : List (String × Option Explanation × TypeRef)}
    (h : type.unfoldedFields? = some fields) :
    type.content ≠ .scalar ∧ ∀ values flaw, type.content ≠ .enum values flaw := by
  constructor
  · intro hcontent
    simp [NamedType.unfoldedFields?, hcontent] at h
  · intro values flaw hcontent
    simp [NamedType.unfoldedFields?, hcontent] at h

/-- A type without fields has one shape, whatever types it is inside of. -/
theorem shapeOfName_plain (h : ∀ type, schema.get? name = some type → type.unfoldedFields? = none)
    (unfolding others : List String) :
    shapeOfName schema scalars unfolding name = shapeOfName schema scalars others name := by
  rw [shapeOfName, shapeOfName]
  split
  · rfl
  · rename_i type hget
    have hfields := h type hget
    split <;> simp_all

theorem shapeOfName_seen {fields : List (String × Option Explanation × TypeRef)}
    {unfolding : List String} (hget : schema.get? name = some type)
    (hfields : type.unfoldedFields? = some fields) (hseen : name ∈ unfolding) :
    shapeOfName schema scalars unfolding name = (do
      Logged.warn .types ("Type " ++ name ++
        " refers to itself, projecting the nested occurrence as any")
      return .any) := by
  obtain ⟨hscalar, henum⟩ := content_of_unfoldedFields? hfields
  rw [shapeOfName]
  split <;> simp_all

theorem shapeOfName_unfold {fields : List (String × Option Explanation × TypeRef)}
    {unfolding : List String} (hget : schema.get? name = some type)
    (hfields : type.unfoldedFields? = some fields) (hfresh : name ∉ unfolding) :
    shapeOfName schema scalars unfolding name = (do
      let entries ← fields.mapM (unfoldedEntry schema scalars (name :: unfolding))
      return .object entries type.description) := by
  obtain ⟨hscalar, henum⟩ := content_of_unfoldedFields? hfields
  rw [shapeOfName]
  split
  case h_1 hnone => simp_all
  case h_2 other hother =>
      obtain rfl := Option.some.inj (hother.symm.trans hget)
      split
      case h_1 hcontent => exact absurd hcontent hscalar
      case h_2 hcontent => exact absurd hcontent (henum _ _)
      case h_3 hnone _ _ => simp [hnone] at hfields
      case h_4 declared hdeclared _ _ =>
          obtain rfl := Option.some.inj (hdeclared.symm.trans hfields)
          rw [dif_neg hfresh]
          rfl

/-- The types around a type make no difference where it does not lead to them. -/
theorem shapeOfName_agrees {unfolding others : List String}
    (h : ∀ inner, ReflTransGen schema.Mentions name inner → (inner ∈ unfolding ↔ inner ∈ others)) :
    (shapeOfName schema scalars unfolding name).Agrees
      (shapeOfName schema scalars others name) := by
  have hplain : ∀ unfolding others name,
      (∀ type, schema.get? name = some type → type.unfoldedFields? = none) →
      (shapeOfName schema scalars unfolding name).Agrees
        (shapeOfName schema scalars others name) := by
    intro unfolding others name hplain
    rw [shapeOfName_plain hplain unfolding others]
    exact .refl _
  refine shapeOfName.induct schema (fun unfolding name => ∀ others,
    (∀ inner, ReflTransGen schema.Mentions name inner → (inner ∈ unfolding ↔ inner ∈ others)) →
      (shapeOfName schema scalars unfolding name).Agrees (shapeOfName schema scalars others name))
    ?unknown ?scalar ?enum ?union ?seen ?unfold unfolding name others h
  case unknown =>
    intro unfolding name hnone others _
    exact hplain _ _ _ (by simp [hnone])
  case scalar =>
    intro unfolding name type hget hcontent others _
    exact hplain _ _ _ (by simp [hget, NamedType.unfoldedFields?, hcontent])
  case enum =>
    intro unfolding name type hget values flaw hcontent others _
    exact hplain _ _ _ (by simp [hget, NamedType.unfoldedFields?, hcontent])
  case union =>
    intro unfolding name type hget hfields _ _ others _
    exact hplain _ _ _ (by simp [hget, hfields])
  case seen =>
    intro unfolding name type hget fields hfields hseen _ _ others h
    -- a type leads to itself
    have hseen' : name ∈ others := (h name .refl).mp hseen
    rw [shapeOfName_seen hget hfields hseen, shapeOfName_seen hget hfields hseen']
    exact .refl _
  case unfold =>
    intro unfolding name type hget fields hfields hfresh _ _ ih others h
    have hfresh' : name ∉ others := fun hseen => hfresh ((h name .refl).mpr hseen)
    rw [shapeOfName_unfold hget hfields hfresh, shapeOfName_unfold hget hfields hfresh']
    refine Projection.Agrees.bind (Projection.Agrees.mapM fun field hfield => ?_) (.refl _)
    refine Projection.Agrees.bind (throughWrappers_agrees ?_ 0) (.refl _)
    apply ih
    -- what the type of a field leads to, the type around the field leads to
    intro inner hreach
    have hmentions : schema.Mentions name field.2.2.base :=
      ⟨type, fields, hget, hfields, field, hfield, rfl⟩
    rw [List.mem_cons, List.mem_cons, h inner (hreach.head hmentions)]

/-- The entry of the full shape of a type that a field makes, where the type does not lead back to
itself. -/
def declaredEntry (schema : Schema) (scalars : ScalarTable) (field : OutputField) :
    Projection (Entry Shape) :=
  unfoldedEntry schema scalars [] (field.name, field.description, field.type)

theorem shapeOfName_fields {fields : List OutputField} (hget : schema.get? name = some type)
    (hfields : type.outputFields? = some fields) (hacyclic : ¬ TransGen schema.Mentions name name) :
    (shapeOfName schema scalars [] name).Agrees (do
      let entries ← fields.mapM (declaredEntry schema scalars)
      return .object entries type.description) := by
  rw [shapeOfName_unfold hget (NamedType.unfoldedFields?_of_outputFields? hfields)
    List.not_mem_nil, List.mapM_map]
  refine Projection.Agrees.bind (Projection.Agrees.mapM fun field hfield => ?_) (.refl _)
  refine Projection.Agrees.bind (throughWrappers_agrees (shapeOfName_agrees ?_) 0) (.refl _)
  intro inner hreach
  have hmentions := Schema.mentions_of_mem hget hfields hfield
  constructor
  · intro hname
    obtain rfl := List.mem_singleton.mp hname
    exact absurd (TransGen.head' hmentions hreach) hacyclic
  · intro hnil
    cases hnil

end

end OperationLibrary
