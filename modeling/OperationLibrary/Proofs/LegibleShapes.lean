import OperationLibrary.Library.Function
import OperationLibrary.Proofs.Grammar
import OperationLibrary.Proofs.SignatureCode
import OperationLibrary.Proofs.Unfolding

/-!
Shapes that can be written as code. The names in a shape come from the schema and from the
operation, and the types of its leaves come from the table of scalars. Nothing that is made of these
on the way to a shape brings in other names: not the wrappers, not the unfolding of a type, and not
the merging of entries.
-/

namespace OperationLibrary

open Syntax

/-! ### Schemas and scalars -/

/-- Fields and enum values have names as the language knows them. -/
structure Schema.WellNamed (schema : Schema) : Prop where
  fields : ∀ type ∈ schema.types, ∀ fields ∈ type.unfoldedFields?, ∀ field ∈ fields, IsName field.1
  values : ∀ type ∈ schema.types, ∀ values flaw, type.content = .enum values flaw →
    ∀ value ∈ values, IsName value

/-- Each type of the table is complete within a line. -/
def ScalarTable.Legible (scalars : ScalarTable) : Prop :=
  ∀ entry ∈ scalars, ∃ code, ReadsCode entry.2.toList code

theorem ScalarTable.standard_legible : ScalarTable.standard.Legible := by
  intro entry hentry
  simp only [standard, List.mem_cons, List.not_mem_nil, or_false] at hentry
  rcases hentry with rfl | rfl | rfl | rfl | rfl <;> exact ⟨_, .literal rfl⟩

/-! ### Building shapes -/

/-- An entry with a name and a type that can be written. -/
def Entry.Legible (entry : Entry Shape) : Prop :=
  IsName entry.name ∧ entry.type.Legible

theorem entriesLegible_iff {entries : List (Entry Shape)} :
    EntriesLegible entries ↔ ∀ entry ∈ entries, entry.Legible := by
  induction entries with
  | nil => simp [EntriesLegible]
  | cons entry entries ih =>
      rw [EntriesLegible, ih, List.forall_mem_cons, Entry.Legible, and_assoc]

namespace Shape

theorem legible_object_iff {entries : List (Entry Shape)} {description : Option Explanation} :
    (object entries description).Legible ↔ ∀ entry ∈ entries, entry.Legible :=
  entriesLegible_iff

theorem legible_any : any.Legible :=
  ⟨_, .literal rfl⟩

theorem Legible.wrap {core : Shape} (h : core.Legible) (depth : Nat) (type : TypeRef) :
    (core.wrap depth type).Legible := by
  induction type generalizing depth with
  | named name => exact h
  | list item ih | nonNull item ih =>
      rw [Shape.wrap]
      split
      · exact ⟨_, .literal rfl⟩
      · exact ih _

/-- Merging brings in no name and no leaf. -/
theorem Legible.merge {left right : Shape} (hleft : left.Legible) (hright : right.Legible) :
    (left.merge right).Legible := by
  induction right using Shape.entries_induction generalizing left with
  | scalar type description | enum values description => exact hleft
  | list item description ih =>
      cases left with
      | list other otherDescription => exact ih hleft hright
      | scalar | enum | object => exact hleft
  | object entries description ih =>
      cases left with
      | object others otherDescription =>
          rw [legible_object_iff] at hleft hright
          rw [Shape.merge, legible_object_iff]
          refine forall_mem_mergeEntries hleft hright fun known entry hentry hknown hlegible _ => ?_
          exact ⟨hlegible.1, ih entry hentry hknown.2 hlegible.2⟩
      | scalar | enum | list => exact hleft

end Shape

theorem ScalarTable.Legible.shape {scalars : ScalarTable} (h : scalars.Legible) (name : String) :
    (scalars.shape name).Legible := by
  rw [ScalarTable.shape]
  split
  · rename_i type htype
    obtain ⟨before, after, hsplit, -⟩ := List.lookup_eq_some_iff.mp htype
    exact h (name, type) (hsplit ▸ List.mem_append_right _ List.mem_cons_self)
  · exact Shape.legible_any

section

variable {schema : Schema} {scalars : ScalarTable}

/-- What a name unfolds to is legible. -/
theorem Unfolds.legible (hschema : schema.WellNamed) (hscalars : scalars.Legible)
    {around : List String} {name : String} {shape : Shape}
    (h : Unfolds schema scalars around name shape) : shape.Legible := by
  refine @Unfolds.rec schema scalars
    (fun _ _ shape _ => shape.Legible)
    (fun _ fields entries _ => (∀ field ∈ fields, IsName field.1) →
      ∀ entry ∈ entries, entry.Legible)
    ?unknown ?scalar ?enum ?union ?expanded ?cut ?nil ?cons around name shape h
  case unknown => exact fun _ => Shape.legible_any
  case scalar => exact fun _ _ => hscalars.shape _
  case enum =>
    intro around name type values flaw hget hcontent
    exact hschema.values type (List.mem_of_find?_eq_some hget) values flaw hcontent
  case union => exact fun _ _ => Shape.legible_any
  case expanded =>
    intro around name type fields entries hget hfields _ _ ih
    exact Shape.legible_object_iff.mpr
      (ih (hschema.fields type (List.mem_of_find?_eq_some hget) fields hfields))
  case cut => exact fun _ _ _ => Shape.legible_any
  case nil => simp
  case cons =>
    intro around name description type core fields entries _ _ ihFirst ihRest hnames
    obtain ⟨hname, hothers⟩ := List.forall_mem_cons.mp hnames
    exact List.forall_mem_cons.mpr ⟨⟨hname, ihFirst.wrap _ _⟩, ihRest hothers⟩

theorem legible_shapeOfName (hschema : schema.WellNamed) (hscalars : scalars.Legible)
    (around : List String) (name : String) :
    (shapeOfName schema scalars around name).value.Legible :=
  (unfolds_shapeOfName schema scalars around name).legible hschema hscalars

theorem legible_shapeOfType (hschema : schema.WellNamed) (hscalars : scalars.Legible)
    (type : TypeRef) : (shapeOfType schema scalars type).value.Legible := by
  rw [shapeOfType, value_throughWrappers]
  exact (legible_shapeOfName hschema hscalars _ _).wrap _ _

end

/-! ### Answers -/

/-- The selections are as they are read from a text. -/
def SelectionsRead (p : Description → Prop) (selections : List Selection) : Prop :=
  ∃ room, ∀ selection ∈ selections, selection.Fits p room

section

variable {p : Description → Prop} {selections : List Selection}

theorem SelectionsFit.read {room : Nat} (h : SelectionsFit p room selections) :
    SelectionsRead p selections := by
  cases room with
  | zero => exact h.elim
  | succ room => exact ⟨room, h⟩

theorem SelectionsRead.isName_responseKey (h : SelectionsRead p selections) {head : FieldHead}
    {inner : Option (List Selection)} (hmem : .field head inner ∈ selections) :
    IsName head.responseKey := by
  obtain ⟨room, hfits⟩ := h
  have hhead : ∃ room, head.Fits p room := by
    cases hfits _ hmem with
    | leaf hhead => exact ⟨_, hhead⟩
    | field hhead _ => exact ⟨_, hhead⟩
  obtain ⟨room, hhead⟩ := hhead
  rw [FieldHead.responseKey]
  cases halias : head.aliasName with
  | none => exact hhead.name
  | some key => exact hhead.aliasName key halias

theorem SelectionsRead.inner (h : SelectionsRead p selections) {head : FieldHead}
    {inner : List Selection} (hmem : .field head (some inner) ∈ selections) :
    SelectionsRead p inner := by
  obtain ⟨room, hfits⟩ := h
  cases hfits _ hmem with
  | field _ hinner => exact ⟨_, hinner⟩

theorem SelectionsRead.inline (h : SelectionsRead p selections) {condition : Option String}
    {directives : List Directive} {inner : List Selection}
    (hmem : .inline condition directives inner ∈ selections) : SelectionsRead p inner := by
  obtain ⟨room, hfits⟩ := h
  cases hfits _ hmem with
  | inline _ _ hinner => exact ⟨_, hinner⟩

/-- Everything that a shape is made of besides the selections can be written. -/
structure SelectionContext.Legible (p : Description → Prop) (context : SelectionContext) :
    Prop where
  schema : context.schema.WellNamed
  scalars : context.scalars.Legible
  fragments : ∀ fragment ∈ context.fragments, SelectionsRead p fragment.selections

variable {context : SelectionContext}

theorem legible_selectedCore (hcontext : context.Legible p) (expanding : List String)
    {inner : Option (List Selection)} {name : String}
    (hplain : ∀ type, context.schema.get? name = some type → type.isComposite = true →
      inner = none) : (selectedCore context expanding inner name).value.Legible := by
  rw [selectedCore]
  cases hget : context.schema.get? name with
  | none => exact Shape.legible_any
  | some type =>
      cases hcomposite : type.isComposite with
      | true =>
          obtain rfl := hplain type hget hcomposite
          simpa [hcomposite] using Shape.legible_any
      | false =>
          simpa [hcomposite] using legible_shapeOfName hcontext.schema hcontext.scalars _ _

/-- The entries that selections make are legible. -/
theorem Projected.legible (hcontext : context.Legible p) {set : SelectionSet} {entry : Entry Shape}
    (h : Projected context set entry) (hread : SelectionsRead p set.selections) :
    entry.Legible := by
  induction h with
  | internal hmem _ => exact ⟨hread.isName_responseKey hmem, Shape.legible_any⟩
  | plain expanding hmem _ _ hplain =>
      exact ⟨hread.isName_responseKey hmem,
        (legible_selectedCore hcontext expanding hplain).wrap _ _⟩
  | composite hmem _ _ _ _ _ ih =>
      refine ⟨hread.isName_responseKey hmem, Shape.Legible.wrap ?_ _ _⟩
      exact Shape.legible_object_iff.mpr fun entry hentry => ih entry hentry (hread.inner hmem)
  | behind hopens _ ih =>
      rw [Entry.Legible, Guard.name_weaken, Guard.type_weaken]
      cases hopens with
      | group hmem => exact ih (hread.inline hmem)
      | inline hmem _ => exact ih (hread.inline hmem)
      | spread _ hfound _ =>
          exact ih (hcontext.fragments _ (FragmentTable.mem_of_get? hfound))
  | merge _ _ _ ihLeft ihRight =>
      exact ⟨(ihRight hread).1, (ihLeft hread).2.merge (ihRight hread).2⟩

theorem legible_dataShape (hcontext : context.Legible p) {definition : Executable}
    (hread : SelectionsRead p definition.selections) :
    (dataShape context definition).value.Legible := by
  cases hroot : rootType? context.schema definition with
  | none =>
      rw [dataShape_of_no_root _ hroot]
      exact Shape.legible_any
  | some root =>
      rw [dataShape_of_root _ hroot, Projection.value_map, selectedEntries, Projection.value_map]
      split
      · exact Shape.legible_any
      · refine Shape.legible_object_iff.mpr fun entry hentry => ?_
        exact Projected.legible hcontext (Projected.mergeEntries
          (contributions_projected context _ root definition.selections) entry hentry) hread

theorem legible_responseShape (hcontext : context.Legible p) {definition : Executable}
    (hread : SelectionsRead p definition.selections) :
    (responseShape context definition).value.Legible := by
  rw [responseShape, Projection.value_map, answerShape, Shape.legible_object_iff]
  simp only [List.mem_cons, List.not_mem_nil, or_false, forall_eq_or_imp, forall_eq]
  have hdata : IsName "data" := by decide
  have herrors : IsName "errors" := by decide
  exact ⟨⟨hdata, legible_dataShape hcontext hread⟩, herrors, Shape.legible_any⟩

end

/-! ### Variables -/

theorem Entry.mem_set {entries : List (Entry Shape)} {entry found : Entry Shape}
    (h : found ∈ Entry.set entries entry) : found = entry ∨ found ∈ entries := by
  rw [Entry.set] at h
  split at h
  · obtain ⟨known, hknown, rfl⟩ := List.mem_map.mp h
    split
    · exact .inl rfl
    · exact .inr hknown
  · exact (List.mem_append.mp h).symm.imp_left List.mem_singleton.mp

theorem Entry.mem_foldl_set {entries others : List (Entry Shape)} {found : Entry Shape}
    (h : found ∈ others.foldl Entry.set entries) : found ∈ others ∨ found ∈ entries := by
  induction others generalizing entries with
  | nil => exact .inr h
  | cons entry others ih =>
      rcases ih h with h | h
      · exact .inl (List.mem_cons_of_mem _ h)
      · exact (Entry.mem_set h).imp_left fun hentry => List.mem_cons.mpr (.inl hentry)

theorem legible_variablesShape {schema : Schema} {scalars : ScalarTable}
    (hschema : schema.WellNamed) (hscalars : scalars.Legible) {operation : Operation}
    (hnames : ∀ definition ∈ operation.variableDefinitions, IsName definition.name) :
    (variablesShape schema scalars operation).value.Legible := by
  rw [variablesShape, Projection.value_bind, Projection.value_bind, Projection.value_mapM,
    Projection.value_pure, Shape.legible_object_iff]
  intro entry hentry
  have hmade := (Entry.mem_foldl_set hentry).resolve_right List.not_mem_nil
  obtain ⟨made, hmade, hid⟩ := List.mem_filterMap.mp hmade
  obtain ⟨definition, hdefinition, rfl⟩ := List.mem_map.mp hmade
  rw [id, variableEntry] at hid
  split at hid
  · obtain rfl := Option.some.inj hid
    exact ⟨hnames definition hdefinition, legible_shapeOfType hschema hscalars _⟩
  · cases hid

/-! ### Signatures -/

theorem Shape.Legible.readsType_signature {shape : Shape} (h : shape.Legible) {text : String}
    (htext : shape.signature = .ok text) : ReadsType text.toList := by
  rw [signature] at htext
  split at htext
  · obtain rfl := Except.ok.inj htext
    rw [Shape.text, String.toList_ofList]
    exact h.readsType 0
  · cases htext

theorem Shape.Legible.readsType_variablesSignature {shape : Shape} (h : shape.Legible)
    {text : String} (htext : variablesSignature shape = .ok text) : ReadsType text.toList := by
  unfold variablesSignature at htext
  split at htext
  · obtain rfl := Except.ok.inj htext
    exact (ReadsCode.literal rfl).readsType
  · exact h.readsType_signature htext

end OperationLibrary
