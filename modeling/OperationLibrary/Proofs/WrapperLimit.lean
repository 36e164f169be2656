import OperationLibrary.Proofs.ProjectedEntries

/-!
Three walks go through the wrappers of a type: one counts lists, one makes the full shape of a type,
and one makes the shape of what a field answers with. They count wrappers in different ways and stop
at the same one. Up to the limit each finds all lists; beyond it the count is unbounded and both
shapes end in the same place, whatever type stands at the core.
-/

namespace OperationLibrary

open Syntax

/-! ### Lists around a core -/

namespace Shape

/-- A shape inside so many lists. -/
def inLists (core : Shape) : Nat → Shape
  | 0 => core
  | lists + 1 => .list (core.inLists lists) none

end Shape

namespace Syntax.TypeRef

/-- The number of lists among the outermost wrappers of a type, so many of them. -/
def listsWithin : Nat → TypeRef → Nat
  | 0, _ | _ + 1, .named _ => 0
  | wrappers + 1, .list item => item.listsWithin wrappers + 1
  | wrappers + 1, .nonNull inner => inner.listsWithin wrappers

end Syntax.TypeRef

/-! ### One walk -/

section

variable (topic : Topic) (core : String → Projection Shape)

/-- A walk that gives up makes a notice and has a shape all the same. -/
def bailOut (shape : Shape) : Projection Shape := do
  Logged.warn topic wrapperWarning
  return shape

/-- Up to the limit a walk comes to the core. -/
theorem throughWrappers_of_le {depth : Nat} {type : TypeRef}
    (h : type.wrappers + depth ≤ wrapperLimit) :
    throughWrappers topic core depth type =
      (fun shape => shape.inLists type.lists) <$> core type.base := by
  induction type generalizing depth with
  | named name => exact (id_map (core name)).symm
  | list item ih =>
      rw [TypeRef.wrappers] at h
      rw [throughWrappers, if_neg (by omega), ih (by omega), bind_pure_comp, Functor.map_map]
      rfl
  | nonNull inner ih =>
      rw [TypeRef.wrappers] at h
      rw [throughWrappers, if_neg (by omega), ih (by omega)]
      rfl

/-- Beyond the limit it gives up after the wrappers that were left to it, and does not come to the
core. -/
theorem throughWrappers_of_lt {left depth : Nat} {type : TypeRef}
    (hleft : left + depth = wrapperLimit) (h : wrapperLimit < type.wrappers + depth) :
    throughWrappers topic core depth type =
      bailOut topic (Shape.bailedOut.inLists (type.listsWithin left)) := by
  induction type generalizing left depth with
  | named name =>
      rw [TypeRef.wrappers] at h
      omega
  | list item ih =>
      rw [TypeRef.wrappers] at h
      rw [throughWrappers]
      cases left with
      | zero =>
          rw [if_pos (by omega)]
          rfl
      | succ left =>
          have hstep : left + (depth + 1) = wrapperLimit := by omega
          rw [if_neg (by omega), ih hstep (by omega)]
          rfl
  | nonNull inner ih =>
      rw [TypeRef.wrappers] at h
      rw [throughWrappers]
      cases left with
      | zero =>
          rw [if_pos (by omega)]
          rfl
      | succ left =>
          have hstep : left + (depth + 1) = wrapperLimit := by omega
          rw [if_neg (by omega), ih hstep (by omega)]
          rfl

end

/-! ### The count -/

/-- Up to the limit every list is counted. -/
theorem countLists_of_le {lists total : Nat} {type : TypeRef}
    (h : type.wrappers + total ≤ wrapperLimit) :
    countLists lists total type = pure ((lists + type.lists : Nat) : Int) := by
  induction type generalizing lists total with
  | named name => rfl
  | list item ih =>
      rw [TypeRef.wrappers] at h
      rw [countLists, if_neg (by omega), ih (by omega), TypeRef.lists]
      congr 2
      omega
  | nonNull inner ih =>
      rw [TypeRef.wrappers] at h
      rw [countLists, if_neg (by omega), ih (by omega), TypeRef.lists]

/-- Beyond the limit no number is given. -/
theorem countLists_of_lt {lists total : Nat} {type : TypeRef} (htotal : total ≤ wrapperLimit)
    (h : wrapperLimit < type.wrappers + total) :
    countLists lists total type = (do
      Logged.warn .types wrapperWarning
      return unboundedLists) := by
  induction type generalizing lists total with
  | named name =>
      rw [TypeRef.wrappers] at h
      omega
  | list item ih | nonNull item ih =>
      rw [TypeRef.wrappers] at h
      rw [countLists]
      split
      · rfl
      · exact ih (by omega) (by omega)

/-! ### All walks -/

/-- A field that its type has is found without a notice. -/
theorem selectedField_of_field? {parent : NamedType} {name : String} {field : OutputField}
    (h : parent.field? name = some field) : selectedField parent name = pure (some field) := by
  rw [NamedType.field?] at h
  rw [selectedField]
  cases hfields : parent.outputFields? with
  | none => simp [hfields] at h
  | some fields =>
      rw [hfields, Option.getD_some] at h
      simp only [h]

/-- The shape of what a field of this type answers with, under these sub-selections. -/
def outputShape (context : SelectionContext) (expanding : List String)
    (inner : Option (List Selection)) (type : TypeRef) : Projection Shape :=
  throughWrappers .selections (selectedCore context expanding inner) 0 type

/-- **The walks agree.** Around a type with no more wrappers than the limit, the count of lists is
the number of lists, and the full shape and the shape of a field's answer have so many lists around
the shapes of the core. Around a type with more wrappers the count is unbounded, and both shapes are
the one that bails out, inside the lists among the wrappers up to the limit. The shape of a field's
answer is the one that the field gets in a projection. -/
theorem wrapper_walks_agree (context : SelectionContext) (expanding : List String)
    (inner : Option (List Selection)) (type : TypeRef) :
    (type.wrappers ≤ wrapperLimit →
      listDepth type = pure (type.lists : Int) ∧
      shapeOfType context.schema context.scalars type =
        (fun core => core.inLists type.lists) <$>
          shapeOfType context.schema context.scalars (.named type.base) ∧
      outputShape context expanding inner type =
        (fun core => core.inLists type.lists) <$>
          outputShape context expanding inner (.named type.base)) ∧
    (wrapperLimit < type.wrappers →
      listDepth type = (do
        Logged.warn .types wrapperWarning
        return unboundedLists) ∧
      shapeOfType context.schema context.scalars type =
        bailOut .types (Shape.bailedOut.inLists (type.listsWithin wrapperLimit)) ∧
      outputShape context expanding inner type =
        bailOut .selections (Shape.bailedOut.inLists (type.listsWithin wrapperLimit))) ∧
    ∀ (parent : NamedType) (head : FieldHead) (field : OutputField),
      isInternal head.name = false → parent.field? head.name = some field → field.type = type →
        contribution context expanding parent (.field head inner) = (do
          let shape ← outputShape context expanding inner type
          return [⟨head.responseKey, shape, !type.isNonNull, field.description⟩]) := by
  refine ⟨fun hwithin => ⟨?_, ?_, ?_⟩, fun hbeyond => ⟨?_, ?_, ?_⟩, ?_⟩
  · rw [listDepth, countLists_of_le hwithin, Nat.zero_add]
  · exact throughWrappers_of_le _ _ hwithin
  · exact throughWrappers_of_le _ _ hwithin
  · exact countLists_of_lt (Nat.zero_le _) hbeyond
  · exact throughWrappers_of_lt _ _ rfl hbeyond
  · exact throughWrappers_of_lt _ _ rfl hbeyond
  · rintro parent head field hordinary hfound rfl
    rw [contribution_field _ _ _ _ hordinary, selectedField_of_field? hfound]
    rfl

namespace DeepLists

/-- Lists inside one another, none of which is ever null. -/
def numbers : Nat → TypeRef
  | 0 => .named "Int"
  | lists + 1 => .nonNull (.list (numbers lists))

/-- One list too many. -/
def deep : TypeRef := .list (numbers 15)

def context : SelectionContext :=
  ⟨⟨[.scalar "Int"], none, none, none, []⟩, [], .standard⟩

def holder : NamedType :=
  ⟨"Holder", none, .object [] [⟨"deep", none, [], deep⟩]⟩

/-- Thirty wrappers are gone through, and of thirty-one the last is not. -/
theorem last_wrapper :
    (numbers 15).wrappers ≤ wrapperLimit ∧ listDepth (numbers 15) = pure 15 ∧
      wrapperLimit < deep.wrappers ∧ (listDepth deep).value = -99 ∧
      (contribution context [] holder (.field ⟨none, "deep", [], []⟩ none)).value =
        [⟨"deep", Shape.bailedOut.inLists 15, true, none⟩] := by
  have hwithin : (numbers 15).wrappers ≤ wrapperLimit := by decide
  have hbeyond : wrapperLimit < deep.wrappers := by decide
  obtain ⟨hcount, -, -⟩ := (wrapper_walks_agree context [] none (numbers 15)).1 hwithin
  obtain ⟨-, hdeep, hfield⟩ := wrapper_walks_agree context [] none deep
  obtain ⟨hunbounded, -, hshape⟩ := hdeep hbeyond
  have hordinary : isInternal "deep" = false := by simp [isInternal]
  refine ⟨hwithin, hcount, hbeyond, ?_, ?_⟩
  · rw [hunbounded]
    rfl
  · rw [hfield holder ⟨none, "deep", [], []⟩ ⟨"deep", none, [], deep⟩ hordinary rfl rfl, hshape]
    rfl

end DeepLists

end OperationLibrary
