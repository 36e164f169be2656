import Mathlib.Data.List.Flatten
import OperationLibrary.Proofs.AnnotatedText
import OperationLibrary.Schema.Files
import OperationLibrary.Shape.FullType

/-!
The fields of a type have different names in every schema that is read. Definitions that repeat a
field are refused, and in an answer of a server the last one of a name stands for all.
-/

namespace OperationLibrary

open Syntax

/-- No field of an object, interface or input type has the name of another one. -/
def NamedType.FieldsDistinct (type : NamedType) : Prop :=
  ∀ fields ∈ type.unfoldedFields?, (fields.map Prod.fst).Nodup

def Schema.FieldsDistinct (schema : Schema) : Prop :=
  ∀ type ∈ schema.types, type.FieldsDistinct

theorem NamedType.fieldsDistinct_of_names {type : NamedType} {names : List String}
    (hnames : ∀ fields ∈ type.unfoldedFields?, fields.map Prod.fst = names)
    (hnodup : names.Nodup) : type.FieldsDistinct :=
  fun fields hfields => (hnames fields hfields).symm ▸ hnodup

theorem fieldsDistinct_of_reservedType? {name : String} {type : NamedType}
    (h : reservedType? name = some type) : type.FieldsDistinct := by
  have hall : ∀ type ∈ standardScalars.map NamedType.scalar ++ introspectionTypes,
      type.FieldsDistinct := by
    simp [standardScalars, introspectionTypes, NamedType.scalar, NamedType.FieldsDistinct,
      NamedType.unfoldedFields?]
  exact hall type (List.mem_of_find?_eq_some h)

theorem NamedType.FieldsDistinct.scalar (name : String) :
    (NamedType.scalar name).FieldsDistinct := by
  simp [NamedType.scalar, NamedType.FieldsDistinct, NamedType.unfoldedFields?]

theorem eq_ok_of_mapError {ε ε₁ α : Type} {read : Except ε α} {f : ε → ε₁} {a : α}
    (h : read.mapError f = .ok a) : read = .ok a := by
  cases read with
  | error fault => simp [Except.mapError] at h
  | ok b => exact congrArg Except.ok (Except.ok.inj h)

/-! ### Definitions -/

section

variable {document : Document} {definition : TypeDefinition}

/-- The names of the fields that a definition and its extensions give. -/
theorem nodup_fieldNames (h : document.definesOnce = true)
    (hdef : definition ∈ document.typeDefinitions) :
    ((document.bodiesOf definition).flatMap fun body => body.fields.map FieldDefinition.name ++
      body.inputFields.map InputValueDefinition.name).Nodup := by
  have hunique : uniqueByPart (fun body => body.fields.map FieldDefinition.name ++
      body.inputFields.map InputValueDefinition.name) document.typeParts = true := by
    simp only [Document.definesOnce, Bool.and_eq_true] at h
    exact h.1.1.1.2
  have hparts := List.all_eq_true.mp hunique definition (List.mem_append_left _ hdef)
  have hsub : (document.partsOf definition).Sublist
      (document.typeParts.filter (·.name == definition.name)) := by
    rw [Document.typeParts, List.filter_append]
    have hfirst : definition ∈ document.typeDefinitions.filter (·.name == definition.name) :=
      List.mem_filter.mpr ⟨hdef, by simp⟩
    exact (List.singleton_sublist.mpr hfirst).append (.refl _)
  rw [Document.bodiesOf, List.flatMap_map]
  exact (of_decide_eq_true hparts).sublist (hsub.flatMap _)

theorem fieldsDistinct_typeOf (source : String) (h : document.definesOnce = true)
    (hdef : definition ∈ document.typeDefinitions) :
    (Schema.typeOf source document definition).FieldsDistinct := by
  have hnames := nodup_fieldNames h hdef
  have houtput : (((document.bodiesOf definition).flatMap TypeBody.fields).map
      FieldDefinition.name).Nodup := by
    rw [List.map_flatMap]
    exact hnames.sublist (.flatMap_right _ fun _ _ => List.sublist_append_left _ _)
  have hinput : (((document.bodiesOf definition).flatMap TypeBody.inputFields).map
      InputValueDefinition.name).Nodup := by
    rw [List.map_flatMap]
    exact hnames.sublist (.flatMap_right _ fun _ _ => List.sublist_append_right _ _)
  rw [Schema.typeOf]
  cases hreserved : reservedType? definition.name with
  | some type => exact fieldsDistinct_of_reservedType? hreserved
  | none =>
      rw [Option.getD_none, NamedType.FieldsDistinct, NamedType.unfoldedFields?, Schema.contentOf]
      cases definition.body <;>
        simp only [Option.mem_def, Option.some.injEq, forall_eq', reduceCtorEq, false_implies,
          implies_true, List.map_map]
      · exact houtput
      · exact houtput
      · exact hinput

end

/-- A text that repeats a field in a type and its extensions gives no schema. -/
theorem fieldsDistinct_parse {source : String} {schema : Schema}
    (h : Schema.parse source = .ok schema) : schema.FieldsDistinct := by
  rw [Schema.parse] at h
  split at h
  case h_1 => simp at h
  case h_2 document hdocument =>
    split at h
    case isFalse => simp at h
    case isTrue hvalid =>
      split at h
      case h_1 => simp at h
      case h_2 =>
        obtain rfl := Except.ok.inj h
        have honce : document.definesOnce = true := by
          simp only [Document.isValidTypeSystem, Bool.and_eq_true] at hvalid
          exact hvalid.1.1.1.1
        intro type htype
        rw [Schema.ofDefinitions, Schema.withStandardScalars] at htype
        rcases List.mem_append.mp htype with htype | htype
        · obtain ⟨definition, hdef, rfl⟩ := List.mem_map.mp htype
          exact fieldsDistinct_typeOf source honce hdef
        · obtain ⟨name, -, rfl⟩ := List.mem_map.mp htype
          exact .scalar name

/-! ### Answers of servers -/

namespace Introspection

section

variable {α β : Type}

theorem bind_eq_ok {read : Read α} {next : α → Read β} {b : β} :
    (read >>= next) = .ok b ↔ ∃ a, read = .ok a ∧ next a = .ok b :=
  ⟨exists_of_bind_ok, by rintro ⟨a, rfl, h⟩; exact h⟩

theorem pure_eq_ok {a b : α} : (pure a : Read α) = .ok b ↔ a = b :=
  Except.ok.injEq a b ▸ .rfl

theorem map_eq_ok {read : Read α} {f : α → β} {b : β} :
    read.map f = .ok b ↔ ∃ a, read = .ok a ∧ f a = b :=
  ⟨exists_of_map_ok, by rintro ⟨a, rfl, rfl⟩; rfl⟩

theorem throw_ne_ok {fault : IntrospectionFault} {a : α} : (throw fault : Read α) ≠ .ok a :=
  nofun

theorem mem_of_mapM {f : α → Read β} {as : List α} {bs : List β} (h : as.mapM f = .ok bs) :
    ∀ b ∈ bs, ∃ a ∈ as, f a = .ok b := by
  induction as generalizing bs with
  | nil =>
      obtain rfl := Except.ok.inj h
      simp
  | cons first rest ih =>
      rw [List.mapM_cons] at h
      obtain ⟨b, hfirst, h⟩ := exists_of_bind_ok h
      obtain ⟨others, hrest, h⟩ := exists_of_bind_ok h
      obtain rfl := Except.ok.inj h
      refine List.forall_mem_cons.mpr ⟨⟨first, List.mem_cons_self, hfirst⟩, fun other hother => ?_⟩
      obtain ⟨a, ha, hf⟩ := ih hrest other hother
      exact ⟨a, List.mem_cons_of_mem _ ha, hf⟩

theorem exists_of_namedParts {part : List (String × Json) → Read α} {entries : Json}
    {parts : List (Json × α)} (h : namedParts part entries = .ok parts) :
    ∀ named ∈ parts, ∃ ms, part ms = .ok named.2 := by
  obtain ⟨listed, -, h⟩ := exists_of_bind_ok h
  intro named hnamed
  obtain ⟨entry, -, h⟩ := mem_of_mapM h named hnamed
  obtain ⟨ms, -, h⟩ := exists_of_bind_ok h
  obtain ⟨name, -, h⟩ := exists_of_bind_ok h
  obtain ⟨value, hvalue, h⟩ := exists_of_bind_ok h
  refine ⟨ms, hvalue.trans (congrArg _ ?_)⟩
  split at h
  · exact absurd h throw_ne_ok
  · exact absurd h throw_ne_ok
  · exact congrArg Prod.snd (Except.ok.inj h)

/-- Parts under their names have different names, and each one is there. -/
theorem nodup_of_withNames {fault? : String → Option NameFault} {parts : List (Json × α)}
    {named : List (String × α)} (h : withNames fault? parts = .ok named) :
    (named.map Prod.fst).Nodup ∧ ∀ entry ∈ named, ∃ part ∈ parts, part.2 = entry.2 := by
  obtain ⟨all, hall, h⟩ := exists_of_bind_ok h
  obtain rfl := Except.ok.inj h
  refine ⟨Keyed.nodup_ofList all, fun entry hentry => ?_⟩
  obtain ⟨part, hpart, h⟩ := mem_of_mapM hall entry (Keyed.mem_ofList hentry)
  obtain ⟨name, -, h⟩ := exists_of_bind_ok h
  exact ⟨part, hpart, congrArg Prod.snd (Except.ok.inj h)⟩

/-- Fields that take the names they stand under have different names. -/
theorem nodup_fields {type : String} {part : List (String × Json) → Read (String → α)}
    {nameOf : α → String}
    (hname : ∀ ms make, part ms = .ok make → ∀ name, nameOf (make name) = name)
    {entries : Json} {result : List α} (h : fields type part entries = .ok result) :
    (result.map nameOf).Nodup := by
  obtain ⟨parts, hparts, h⟩ := exists_of_bind_ok h
  obtain ⟨named, hnamed, h⟩ := exists_of_bind_ok h
  obtain rfl := Except.ok.inj h
  obtain ⟨hnodup, hmem⟩ := nodup_of_withNames hnamed
  have hnames : (named.map fun entry => entry.2 entry.1).map nameOf = named.map Prod.fst := by
    rw [List.map_map]
    refine List.map_congr_left fun entry hentry => ?_
    obtain ⟨part, hpart, hsame⟩ := hmem entry hentry
    obtain ⟨ms, hms⟩ := exists_of_namedParts (eq_ok_of_mapError hparts) part hpart
    exact hname ms entry.2 (hsame ▸ hms) entry.1
  exact hnames ▸ hnodup

end

theorem name_of_inputPart {listed : List NamedType} {ms : List (String × Json)}
    {make : String → InputField} (h : inputPart listed ms = .ok make) (name : String) :
    (make name).name = name := by
  obtain ⟨type, -, h⟩ := exists_of_bind_ok h
  obtain ⟨⟨ref, named⟩, -, h⟩ := exists_of_bind_ok h
  dsimp only at h
  split at h
  · obtain ⟨-, -, h⟩ := exists_of_bind_ok h
    obtain rfl := Except.ok.inj h
    rfl
  · exact absurd h throw_ne_ok

theorem name_of_outputPart {listed : List NamedType} {ms : List (String × Json)}
    {make : String → OutputField} (h : outputPart listed ms = .ok make) (name : String) :
    (make name).name = name := by
  obtain ⟨type, -, h⟩ := exists_of_bind_ok h
  obtain ⟨⟨ref, named⟩, -, h⟩ := exists_of_bind_ok h
  dsimp only at h
  split at h
  · obtain ⟨args, -, h⟩ := exists_of_bind_ok h
    obtain ⟨arguments, -, h⟩ := exists_of_bind_ok h
    obtain rfl := Except.ok.inj h
    rfl
  · exact absurd h throw_ne_ok

/-- The outline of a type has no fields yet. -/
theorem fieldsDistinct_outline {entry : Json} {name : String} {type : NamedType}
    (h : outline entry = .ok (name, type)) : type.FieldsDistinct := by
  obtain ⟨ms, -, h⟩ := exists_of_bind_ok h
  obtain ⟨text, -, h⟩ := exists_of_bind_ok h
  -- a reserved name stands for its own type, whatever the entry says
  have hreserved : ∀ {type}, text.string?.bind reservedType? = some type → type.FieldsDistinct := by
    intro type htype
    obtain ⟨name, -, hname⟩ := Option.bind_eq_some_iff.mp htype
    exact fieldsDistinct_of_reservedType? hname
  dsimp only at h
  split at h
  case h_1 htype | h_2 htype =>
    simp only [bind_eq_ok, pure_eq_ok, Prod.mk.injEq] at h
    obtain ⟨_, rfl, -, rfl⟩ := h
    exact hreserved htype
  case h_3 | h_4 | h_5 =>
    simp only [bind_eq_ok, pure_eq_ok, map_eq_ok, Prod.mk.injEq] at h
    obtain ⟨_, ⟨_, -, rfl⟩, -, rfl⟩ := h
    simp [NamedType.FieldsDistinct, NamedType.unfoldedFields?]
  case h_6 | h_8 =>
    simp only [bind_eq_ok, pure_eq_ok, map_eq_ok, Prod.mk.injEq] at h
    obtain ⟨_, -, _, ⟨_, -, rfl⟩, -, rfl⟩ := h
    simp [NamedType.FieldsDistinct, NamedType.unfoldedFields?]
  case h_7 =>
    obtain ⟨entries, -, h⟩ := exists_of_bind_ok h
    split at h
    case h_1 htype =>
      simp only [bind_eq_ok, pure_eq_ok, Prod.mk.injEq] at h
      obtain ⟨_, rfl, -, rfl⟩ := h
      exact hreserved htype
    case h_2 =>
      simp only [bind_eq_ok, pure_eq_ok, map_eq_ok, Prod.mk.injEq] at h
      obtain ⟨_, -, _, -, _, -, _, rfl, -, rfl⟩ := h
      simp [NamedType.FieldsDistinct, NamedType.unfoldedFields?]
  case h_9 =>
    obtain ⟨_, h, -⟩ := exists_of_bind_ok h
    exact absurd h throw_ne_ok

theorem fieldsDistinct_complete {listed : List NamedType} {entry : Json}
    {type completed : NamedType} (houtline : type.FieldsDistinct)
    (h : complete listed entry type = .ok completed) : completed.FieldsDistinct := by
  unfold complete at h
  split at h
  · exact pure_eq_ok.mp h ▸ houtline
  obtain ⟨ms, -, h⟩ := exists_of_bind_ok h
  dsimp only at h
  split at h <;> simp only [bind_eq_ok, pure_eq_ok] at h
  case h_1 | h_2 =>
    obtain ⟨_, -, fields, hfields, _, rfl, rfl⟩ := h
    refine NamedType.fieldsDistinct_of_names ?_
      (nodup_fields (fun _ _ => name_of_outputPart) hfields)
    rintro _ ⟨⟩
    exact List.map_map
  case h_3 =>
    obtain ⟨_, -, _, -, _, rfl, rfl⟩ := h
    simp [NamedType.FieldsDistinct, NamedType.unfoldedFields?]
  case h_4 =>
    obtain ⟨fields, hfields, _, rfl, rfl⟩ := h
    refine NamedType.fieldsDistinct_of_names ?_
      (nodup_fields (fun _ _ => name_of_inputPart) hfields)
    rintro _ ⟨⟩
    exact List.map_map
  case h_5 =>
    obtain ⟨_, rfl, rfl⟩ := h
    exact houtline

end Introspection

open Introspection in
/-- An answer of a server gives a schema whose types name each field once. -/
theorem fieldsDistinct_ofIntrospection {answer : Json} {schema : Schema}
    (h : Schema.ofIntrospection answer = .ok schema) : schema.FieldsDistinct := by
  simp only [Schema.ofIntrospection, bind_eq_ok, pure_eq_ok] at h
  obtain ⟨_, -, _, -, _, -, _, -, _, -, outlines, houtlines, _, -, _, -, _, -, _, -, types, htypes,
    rfl⟩ := h
  have houtlined : ∀ listed ∈ outlines, listed.2.2.FieldsDistinct := by
    intro listed hlisted
    obtain ⟨entry, -, h⟩ := mem_of_mapM houtlines listed hlisted
    obtain ⟨_, houtline, h⟩ := exists_of_bind_ok h
    obtain rfl := pure_eq_ok.mp h
    exact fieldsDistinct_outline houtline
  intro type htype
  rcases List.mem_append.mp htype with htype | htype
  · obtain ⟨_, hmem, hcomplete⟩ := mem_of_mapM htypes type htype
    obtain ⟨listed, hlisted, rfl⟩ := List.mem_map.mp hmem
    exact fieldsDistinct_complete (houtlined listed (Keyed.mem_ofList hlisted)) hcomplete
  · obtain ⟨name, -, rfl⟩ := List.mem_map.mp htype
    exact .scalar name

/-! ### Files -/

theorem fieldsDistinct_schemaOfDefinitions {texts : List String} {schema : Schema}
    (h : schemaOfDefinitions texts = .ok schema) : schema.FieldsDistinct :=
  fieldsDistinct_parse (eq_ok_of_mapError h)

theorem fieldsDistinct_schemaOfIntrospection {text : String} {schema : Schema}
    (h : schemaOfIntrospection text = .ok schema) : schema.FieldsDistinct := by
  rw [schemaOfIntrospection] at h
  split at h
  · simp at h
  · simp at h
  · exact fieldsDistinct_ofIntrospection (eq_ok_of_mapError h)

/-- **Schemas name fields once.** Whatever files a schema is read from, no type of it has two fields
of one name. -/
theorem fieldsDistinct_loadSchema {workspace : Workspace} {path : String} {schema : Schema}
    (h : (loadSchema workspace path).value = .ok schema) : schema.FieldsDistinct := by
  have hdefinitions : ∀ {read : Except LoadFault (List String)},
      read.bind schemaOfDefinitions = .ok schema → schema.FieldsDistinct := by
    rintro (fault | texts) hread
    · simp [Except.bind] at hread
    · exact fieldsDistinct_schemaOfDefinitions hread
  unfold loadSchema at h
  split at h
  · simp at h
  · split at h
    · split at h
      · simp at h
      · exact fieldsDistinct_schemaOfIntrospection h
    · exact hdefinitions h
  · exact hdefinitions h

end OperationLibrary
