import OperationLibrary.Proofs.FullShape
import OperationLibrary.Proofs.ProjectedEntries

/-!
Full shapes are unfoldings. A type is unfolded into its fields exactly if it is none of the types
that are being unfolded around it; what is unfolded next to it does not count. So the unfolding of a
type is finite in every schema, the full shape of the type is its only unfolding, and fields that
are declared in another order make entries in another order and nothing else.
-/

namespace OperationLibrary

open Syntax

/-! ### Unfolding -/

mutual

/-- The shape that a name unfolds to inside the types `around`, the ones that are being unfolded on
the way to it. -/
inductive Unfolds (schema : Schema) (scalars : ScalarTable) : List String → String → Shape → Prop
  | unknown {around : List String} {name : String} (unknown : schema.get? name = none) :
      Unfolds schema scalars around name .any
  | scalar {around : List String} {name : String} {type : NamedType}
      (found : schema.get? name = some type) (content : type.content = .scalar) :
      Unfolds schema scalars around name (scalars.shape name)
  | enum {around : List String} {name : String} {type : NamedType} {values : List String}
      {flaw : Option SchemaFlaw} (found : schema.get? name = some type)
      (content : type.content = .enum values flaw) :
      Unfolds schema scalars around name (.enum values type.description)
  | union {around : List String} {name : String} {type : NamedType} {members : List String}
      (found : schema.get? name = some type) (content : type.content = .union members) :
      Unfolds schema scalars around name .any
  | expanded {around : List String} {name : String} {type : NamedType}
      {fields : List (String × Option Explanation × TypeRef)} {entries : List (Entry Shape)}
      (found : schema.get? name = some type) (declared : type.unfoldedFields? = some fields)
      (fresh : name ∉ around)
      (inside : FieldsUnfold schema scalars (name :: around) fields entries) :
      Unfolds schema scalars around name (.object entries type.description)
  | cut {around : List String} {name : String} {type : NamedType}
      {fields : List (String × Option Explanation × TypeRef)}
      (found : schema.get? name = some type) (declared : type.unfoldedFields? = some fields)
      (again : name ∈ around) : Unfolds schema scalars around name .any

/-- The entries that fields unfold to, each by itself. -/
inductive FieldsUnfold (schema : Schema) (scalars : ScalarTable) :
    List String → List (String × Option Explanation × TypeRef) → List (Entry Shape) → Prop
  | nil {around : List String} : FieldsUnfold schema scalars around [] []
  | cons {around : List String} {name : String} {description : Option Explanation}
      {type : TypeRef} {core : Shape} {fields : List (String × Option Explanation × TypeRef)}
      {entries : List (Entry Shape)} (first : Unfolds schema scalars around type.base core)
      (rest : FieldsUnfold schema scalars around fields entries) :
      FieldsUnfold schema scalars around ((name, description, type) :: fields)
        (⟨name, core.wrap 0 type, !type.isNonNull, description⟩ :: entries)

end

theorem Projection.fault_mapM_eq_none_iff {α β : Type} {f : α → Projection β} {xs : List α} :
    (xs.mapM f).fault = none ↔ ∀ x ∈ xs, (f x).fault = none := by
  induction xs with
  | nil => simp
  | cons x xs ih =>
      rw [List.mapM_cons, fault_bind, List.forall_mem_cons, ← ih, Option.or_eq_none_iff, fault_bind]
      simp

section

variable {schema : Schema} {scalars : ScalarTable} {around : List String} {name : String}

theorem value_unfoldedEntry (field : String × Option Explanation × TypeRef) :
    (unfoldedEntry schema scalars around field).value =
      ⟨field.1, (shapeOfName schema scalars around field.2.2.base).value.wrap 0 field.2.2,
        !field.2.2.isNonNull, field.2.1⟩ := by
  rw [unfoldedEntry, Projection.value_bind, value_throughWrappers]
  rfl

theorem value_shapeOfName_unfold {type : NamedType}
    {fields : List (String × Option Explanation × TypeRef)} (hget : schema.get? name = some type)
    (hfields : type.unfoldedFields? = some fields) (hfresh : name ∉ around) :
    (shapeOfName schema scalars around name).value =
      .object (fields.map fun field =>
        (unfoldedEntry schema scalars (name :: around) field).value) type.description := by
  rw [shapeOfName_unfold hget hfields hfresh, Projection.value_bind, Projection.value_mapM]
  rfl

theorem value_shapeOfName_seen {type : NamedType}
    {fields : List (String × Option Explanation × TypeRef)} (hget : schema.get? name = some type)
    (hfields : type.unfoldedFields? = some fields) (hseen : name ∈ around) :
    (shapeOfName schema scalars around name).value = .any := by
  rw [shapeOfName_seen hget hfields hseen]
  rfl

/-- The shape of a type without fields. -/
theorem value_shapeOfName_plain {type : NamedType} (hget : schema.get? name = some type)
    (hfields : type.unfoldedFields? = none) :
    (shapeOfName schema scalars around name).value = match type.content with
      | .scalar => scalars.shape name
      | .enum values _ => .enum values type.description
      | _ => .any := by
  rw [shapeOfName]
  split <;> simp_all
  split <;> simp_all

theorem value_shapeOfName_unknown (hget : schema.get? name = none) :
    (shapeOfName schema scalars around name).value = .any := by
  rw [shapeOfName]
  split <;> simp_all

theorem fieldsUnfold_of_forall {fields : List (String × Option Explanation × TypeRef)}
    (h : ∀ field ∈ fields, Unfolds schema scalars around field.2.2.base
      (shapeOfName schema scalars around field.2.2.base).value) :
    FieldsUnfold schema scalars around fields
      (fields.map fun field => (unfoldedEntry schema scalars around field).value) := by
  induction fields with
  | nil => exact .nil
  | cons field fields ih =>
      rw [List.map_cons, value_unfoldedEntry]
      exact .cons (h field List.mem_cons_self) (ih fun other hother =>
        h other (List.mem_cons_of_mem _ hother))

/-- Every name unfolds, in every schema and inside whatever types. -/
theorem unfolds_shapeOfName (schema : Schema) (scalars : ScalarTable) (around : List String)
    (name : String) :
    Unfolds schema scalars around name (shapeOfName schema scalars around name).value := by
  refine shapeOfName.induct schema (fun around name =>
    Unfolds schema scalars around name (shapeOfName schema scalars around name).value)
    ?unknown ?scalar ?enum ?union ?seen ?unfold around name
  case unknown =>
    intro around name hnone
    rw [value_shapeOfName_unknown hnone]
    exact .unknown hnone
  case scalar =>
    intro around name type hget hcontent
    rw [value_shapeOfName_plain hget (by simp [NamedType.unfoldedFields?, hcontent]), hcontent]
    exact .scalar hget hcontent
  case enum =>
    intro around name type hget values flaw hcontent
    rw [value_shapeOfName_plain hget (by simp [NamedType.unfoldedFields?, hcontent]), hcontent]
    exact .enum hget hcontent
  case union =>
    intro around name type hget hfields hscalar henum
    -- what has no fields and is no scalar and no enum is a union
    obtain ⟨members, hcontent⟩ : ∃ members, type.content = .union members := by
      cases hcontent : type.content with
      | union members => exact ⟨members, rfl⟩
      | scalar => exact absurd hcontent hscalar
      | enum values flaw => exact absurd hcontent (henum values flaw)
      | object | interface | input => simp [NamedType.unfoldedFields?, hcontent] at hfields
    rw [value_shapeOfName_plain hget hfields, hcontent]
    exact .union hget hcontent
  case seen =>
    intro around name type hget fields hfields hseen _ _
    rw [value_shapeOfName_seen hget hfields hseen]
    exact .cut hget hfields hseen
  case unfold =>
    intro around name type hget fields hfields hfresh _ _ ih
    rw [value_shapeOfName_unfold hget hfields hfresh]
    exact .expanded hget hfields hfresh (fieldsUnfold_of_forall fun field hfield => ih _)

/-- There is no other unfolding. -/
theorem Unfolds.shape_eq {shape : Shape} (h : Unfolds schema scalars around name shape) :
    shape = (shapeOfName schema scalars around name).value := by
  refine @Unfolds.rec schema scalars
    (fun around name shape _ => shape = (shapeOfName schema scalars around name).value)
    (fun around fields entries _ =>
      entries = fields.map fun field => (unfoldedEntry schema scalars around field).value)
    ?unknown ?scalar ?enum ?union ?expanded ?cut ?nil ?cons around name shape h
  case unknown =>
    intro around name hnone
    exact (value_shapeOfName_unknown hnone).symm
  case scalar =>
    intro around name type hget hcontent
    rw [value_shapeOfName_plain hget (by simp [NamedType.unfoldedFields?, hcontent]), hcontent]
  case enum =>
    intro around name type values flaw hget hcontent
    rw [value_shapeOfName_plain hget (by simp [NamedType.unfoldedFields?, hcontent]), hcontent]
  case union =>
    intro around name type members hget hcontent
    rw [value_shapeOfName_plain hget (by simp [NamedType.unfoldedFields?, hcontent]), hcontent]
  case expanded =>
    intro around name type fields entries hget hfields hfresh _ ih
    rw [value_shapeOfName_unfold hget hfields hfresh, ih]
  case cut =>
    intro around name type fields hget hfields hseen
    exact (value_shapeOfName_seen hget hfields hseen).symm
  case nil =>
    intro around
    rfl
  case cons =>
    intro around name description type core fields entries _ _ ihFirst ihRest
    rw [List.map_cons, value_unfoldedEntry, ihFirst, ihRest]

theorem unfolds_iff {shape : Shape} :
    Unfolds schema scalars around name shape ↔
      shape = (shapeOfName schema scalars around name).value := by
  constructor
  · exact Unfolds.shape_eq
  · rintro rfl
    exact unfolds_shapeOfName schema scalars around name

/-- Only the values of an enum can have a flaw that a full shape meets. -/
theorem fault_shapeOfName (hflawless : ∀ type ∈ schema.types, type.valuesFlaw? = none) :
    (shapeOfName schema scalars around name).fault = none := by
  refine shapeOfName.induct schema (fun around name =>
    (shapeOfName schema scalars around name).fault = none)
    ?unknown ?scalar ?enum ?union ?seen ?unfold around name
  case unknown =>
    intro around name hnone
    rw [shapeOfName]
    split <;> simp_all
  case scalar =>
    intro around name type hget hcontent
    rw [shapeOfName]
    split <;> simp_all
  case enum =>
    intro around name type hget values flaw hcontent
    have hflaw := hflawless type (List.mem_of_find?_eq_some hget)
    rw [NamedType.valuesFlaw?, hcontent] at hflaw
    rw [shapeOfName]
    split <;> simp_all
  case union =>
    intro around name type hget hfields hscalar henum
    rw [shapeOfName]
    split <;> simp_all
  case seen =>
    intro around name type hget fields hfields hseen _ _
    rw [shapeOfName_seen hget hfields hseen]
    rfl
  case unfold =>
    intro around name type hget fields hfields hfresh _ _ ih
    have hentries : (fields.mapM (unfoldedEntry schema scalars (name :: around))).fault = none := by
      refine Projection.fault_mapM_eq_none_iff.mpr fun field _ => ?_
      rw [unfoldedEntry, Projection.fault_bind, fault_throughWrappers _ _ _ _ (ih _)]
      rfl
    rw [shapeOfName_unfold hget hfields hfresh, Projection.fault_bind, hentries]
    rfl

end

/-! ### The order of fields -/

/-- The same content, with the fields in any order. -/
inductive TypeContent.Reordered : TypeContent → TypeContent → Prop
  | same (content : TypeContent) : Reordered content content
  | object (interfaces : List String) {fields others : List OutputField}
      (perm : fields.Perm others) :
      Reordered (.object interfaces fields) (.object interfaces others)
  | interface (interfaces : List String) {fields others : List OutputField}
      (perm : fields.Perm others) :
      Reordered (.interface interfaces fields) (.interface interfaces others)
  | input {fields others : List InputField} (perm : fields.Perm others) :
      Reordered (.input fields) (.input others)

structure NamedType.Reordered (type other : NamedType) : Prop where
  description : other.description = type.description
  content : type.content.Reordered other.content

/-- Under every name the schemas have the same type, with the fields in any order. -/
def Schema.Reordered (schema other : Schema) : Prop :=
  ∀ name, Option.Rel NamedType.Reordered (schema.get? name) (other.get? name)

/-- Fields may be reordered type by type. -/
theorem Schema.Reordered.of_types {schema other : Schema}
    (h : List.Forall₂ (fun type same => same.name = type.name ∧ type.Reordered same)
      schema.types other.types) : schema.Reordered other := by
  intro name
  rw [Schema.get?, Schema.get?]
  generalize schema.types = types, other.types = others at h
  induction h with
  | nil => exact .none
  | cons hfirst _ ih =>
      obtain ⟨hname, hsame⟩ := hfirst
      rw [List.find?_cons, List.find?_cons, hname]
      split
      · exact .some hsame
      · exact ih

mutual

/-- The same shape, with the entries of objects in any order. -/
inductive Shape.Rearranged : Shape → Shape → Prop
  | scalar (type : String) (description : Option Explanation) :
      Shape.Rearranged (.scalar type description) (.scalar type description)
  | enum (values : List String) (description : Option Explanation) :
      Shape.Rearranged (.enum values description) (.enum values description)
  | list {item other : Shape} (description : Option Explanation)
      (items : Shape.Rearranged item other) :
      Shape.Rearranged (.list item description) (.list other description)
  | object {entries others arranged : List (Entry Shape)} (description : Option Explanation)
      (types : EntriesRearranged entries others) (perm : others.Perm arranged) :
      Shape.Rearranged (.object entries description) (.object arranged description)

/-- The same entries in the same order, with rearranged types. -/
inductive EntriesRearranged : List (Entry Shape) → List (Entry Shape) → Prop
  | nil : EntriesRearranged [] []
  | cons {entry : Entry Shape} {type : Shape} {entries others : List (Entry Shape)}
      (first : Shape.Rearranged entry.type type) (rest : EntriesRearranged entries others) :
      EntriesRearranged (entry :: entries) ({ entry with type := type } :: others)

end

theorem Shape.Rearranged.refl (shape : Shape) : shape.Rearranged shape := by
  induction shape using Shape.entries_induction with
  | scalar type description => exact .scalar type description
  | enum values description => exact .enum values description
  | list item description ih => exact .list description ih
  | object entries description ih =>
      have hentries : EntriesRearranged entries entries := by
        induction entries with
        | nil => exact .nil
        | cons entry entries ihEntries =>
            exact .cons (ih entry List.mem_cons_self) (ihEntries fun other hother =>
              ih other (List.mem_cons_of_mem _ hother))
      exact .object description hentries (.refl _)

theorem Shape.Rearranged.wrap {core other : Shape} (h : core.Rearranged other) (depth : Nat)
    (type : TypeRef) : (core.wrap depth type).Rearranged (other.wrap depth type) := by
  induction type generalizing depth with
  | named name => exact h
  | list item ih =>
      rw [Shape.wrap, Shape.wrap]
      split
      · exact .scalar _ _
      · exact .list none (ih _)
  | nonNull inner ih =>
      rw [Shape.wrap, Shape.wrap]
      split
      · exact .scalar _ _
      · exact ih _

namespace NamedType.Reordered

variable {type other : NamedType}

theorem unfoldedFields? (h : type.Reordered other) :
    Option.Rel List.Perm type.unfoldedFields? other.unfoldedFields? := by
  obtain ⟨name, description, content⟩ := type
  obtain ⟨otherName, otherDescription, otherContent⟩ := other
  cases h.content with
  | same =>
      cases content with
      | scalar | union | enum => exact .none
      | object | interface | input => exact .some (.refl _)
  | object interfaces perm | interface interfaces perm => exact .some (perm.map _)
  | input perm => exact .some (perm.map _)

/-- A type without fields is the same type. -/
theorem content_eq (h : type.Reordered other) (hfields : type.unfoldedFields? = none) :
    other.content = type.content := by
  obtain ⟨name, description, content⟩ := type
  obtain ⟨otherName, otherDescription, otherContent⟩ := other
  cases h.content with
  | same => rfl
  | object | interface | input => cases hfields

end NamedType.Reordered

section

variable {schema other : Schema} {scalars : ScalarTable}

theorem entriesRearranged_of_forall {fields : List (String × Option Explanation × TypeRef)}
    {around : List String} (h : ∀ field ∈ fields,
      (shapeOfName schema scalars around field.2.2.base).value.Rearranged
        (shapeOfName other scalars around field.2.2.base).value) :
    EntriesRearranged
      (fields.map fun field => (unfoldedEntry schema scalars around field).value)
      (fields.map fun field => (unfoldedEntry other scalars around field).value) := by
  induction fields with
  | nil => exact .nil
  | cons field fields ih =>
      rw [List.map_cons, List.map_cons, value_unfoldedEntry, value_unfoldedEntry]
      exact .cons ((h field List.mem_cons_self).wrap 0 _) (ih fun other hother =>
        h other (List.mem_cons_of_mem _ hother))

theorem Schema.Reordered.get?_eq_none {name : String} (h : schema.Reordered other)
    (hget : schema.get? name = none) : other.get? name = none := by
  have hname := h name
  rw [hget] at hname
  cases hother : other.get? name with
  | none => rfl
  | some type => rw [hother] at hname; exact nomatch hname

theorem Schema.Reordered.exists_get? {name : String} {type : NamedType} (h : schema.Reordered other)
    (hget : schema.get? name = some type) :
    ∃ same, other.get? name = some same ∧ type.Reordered same := by
  have hname := h name
  rw [hget] at hname
  cases hother : other.get? name with
  | none => rw [hother] at hname; exact nomatch hname
  | some same =>
      rw [hother] at hname
      cases hname with
      | some hsame => exact ⟨same, rfl, hsame⟩

theorem Schema.Reordered.exists_unfoldedFields? {name : String} {type : NamedType}
    {fields : List (String × Option Explanation × TypeRef)} (h : schema.Reordered other)
    (hget : schema.get? name = some type) (hfields : type.unfoldedFields? = some fields) :
    ∃ same reordered, other.get? name = some same ∧ same.description = type.description ∧
      same.unfoldedFields? = some reordered ∧ fields.Perm reordered := by
  obtain ⟨same, hother, hsame⟩ := h.exists_get? hget
  have hperm := hsame.unfoldedFields?
  rw [hfields] at hperm
  cases hreordered : same.unfoldedFields? with
  | none => rw [hreordered] at hperm; exact nomatch hperm
  | some reordered =>
      rw [hreordered] at hperm
      cases hperm with
      | some hperm => exact ⟨same, reordered, hother, hsame.description, hreordered, hperm⟩

theorem Schema.Reordered.shapeOfName_plain {name : String} {type : NamedType}
    (h : schema.Reordered other) (hget : schema.get? name = some type)
    (hfields : type.unfoldedFields? = none) (around : List String) :
    (shapeOfName other scalars around name).value =
      (shapeOfName schema scalars around name).value := by
  obtain ⟨same, hother, hsame⟩ := h.exists_get? hget
  have hcontent := hsame.content_eq hfields
  have hplain : same.unfoldedFields? = none := by
    rw [NamedType.unfoldedFields?, hcontent]
    exact hfields
  rw [value_shapeOfName_plain hget hfields, value_shapeOfName_plain hother hplain, hcontent,
    hsame.description]

/-- Fields in another order make entries in another order. -/
theorem Schema.Reordered.shapeOfName (h : schema.Reordered other) (scalars : ScalarTable)
    (around : List String) (name : String) :
    (shapeOfName schema scalars around name).value.Rearranged
      (shapeOfName other scalars around name).value := by
  -- a type without fields has nothing to reorder
  have hplain : ∀ around name type, schema.get? name = some type → type.unfoldedFields? = none →
      (OperationLibrary.shapeOfName schema scalars around name).value.Rearranged
        (OperationLibrary.shapeOfName other scalars around name).value := by
    intro around name type hget hfields
    rw [h.shapeOfName_plain hget hfields]
    exact .refl _
  refine shapeOfName.induct schema (fun around name =>
    (OperationLibrary.shapeOfName schema scalars around name).value.Rearranged
      (OperationLibrary.shapeOfName other scalars around name).value)
    ?unknown ?scalar ?enum ?union ?seen ?unfold around name
  case unknown =>
    intro around name hnone
    rw [value_shapeOfName_unknown hnone, value_shapeOfName_unknown (h.get?_eq_none hnone)]
    exact .refl _
  case scalar =>
    intro around name type hget hcontent
    exact hplain _ _ _ hget (by simp [NamedType.unfoldedFields?, hcontent])
  case enum =>
    intro around name type hget values flaw hcontent
    exact hplain _ _ _ hget (by simp [NamedType.unfoldedFields?, hcontent])
  case union =>
    intro around name type hget hfields _ _
    exact hplain _ _ _ hget hfields
  case seen =>
    intro around name type hget fields hfields hseen _ _
    obtain ⟨same, reordered, hother, -, hreordered, -⟩ := h.exists_unfoldedFields? hget hfields
    rw [value_shapeOfName_seen hget hfields hseen, value_shapeOfName_seen hother hreordered hseen]
    exact .refl _
  case unfold =>
    intro around name type hget fields hfields hfresh _ _ ih
    obtain ⟨same, reordered, hother, hdescription, hreordered, hperm⟩ :=
      h.exists_unfoldedFields? hget hfields
    rw [value_shapeOfName_unfold hget hfields hfresh,
      value_shapeOfName_unfold hother hreordered hfresh, hdescription]
    exact .object _ (entriesRearranged_of_forall fun field _ => ih _) (hperm.map _)

end

/-- **Full shapes are unfoldings.** In every schema, whatever cycles its types form, a type has one
unfolding, and that is its full shape: a type with fields is unfolded exactly where it is none of
the types that are being unfolded around it. Nothing is a fault unless an enum is flawed. Declaring
the fields of types in another order does no more than to put entries in another order. -/
theorem full_shape_unfolds (schema : Schema) (scalars : ScalarTable) (type : TypeRef) :
    (∀ shape, (∃ core, Unfolds schema scalars [] type.base core ∧ shape = core.wrap 0 type) ↔
      shape = (shapeOfType schema scalars type).value) ∧
    ((∀ type ∈ schema.types, type.valuesFlaw? = none) →
      (shapeOfType schema scalars type).fault = none) ∧
    ∀ other, schema.Reordered other →
      (shapeOfType schema scalars type).value.Rearranged
        (shapeOfType other scalars type).value := by
  have hvalue : ∀ schema, (shapeOfType schema scalars type).value =
      (shapeOfName schema scalars [] type.base).value.wrap 0 type :=
    fun schema => value_throughWrappers _ _ _ _
  refine ⟨fun shape => ?_, fun hflawless => ?_, fun other hother => ?_⟩
  · simp only [unfolds_iff, exists_eq_left, hvalue]
  · exact fault_throughWrappers _ _ _ _ (fault_shapeOfName hflawless)
  · rw [hvalue, hvalue]
    exact (hother.shapeOfName scalars [] type.base).wrap 0 type

namespace PeopleAndPlaces

def name : OutputField := ⟨"name", none, [], .nonNull (.named "String")⟩

def home : OutputField := ⟨"home", none, [], .named "Place"⟩

def work : OutputField := ⟨"work", none, [], .named "Place"⟩

def owner : OutputField := ⟨"owner", none, [], .nonNull (.named "Person")⟩

def nearby : OutputField := ⟨"nearby", none, [], .list (.named "Place")⟩

/-- People and places lead to one another, and places to places. -/
def schema (person place : List OutputField) : Schema :=
  ⟨[⟨"Person", none, .object [] person⟩, ⟨"Place", none, .object [] place⟩, .scalar "String"],
    none, none, none, []⟩

/-- A place inside a person. -/
def place : Shape :=
  .object [⟨"owner", .any, false, none⟩, ⟨"nearby", .list .any none, true, none⟩] none

/-- Both places of a person are unfolded. -/
def person : Shape :=
  .object [⟨"name", .scalar "string" none, false, none⟩, ⟨"home", place, true, none⟩,
    ⟨"work", place, true, none⟩] none

theorem shapeOfType_person :
    (shapeOfType (schema [name, home, work] [owner, nearby]) .standard (.named "Person")).value =
      person := by
  with_unfolding_all rfl

theorem reordered : (schema [name, home, work] [owner, nearby]).Reordered
    (schema [work, name, home] [nearby, owner]) := by
  refine .of_types (.cons ⟨rfl, rfl, .object [] ?_⟩ (.cons ⟨rfl, rfl, .object [] (.swap _ _ _)⟩
    (.cons ⟨rfl, rfl, .same _⟩ .nil)))
  exact @List.perm_append_comm _ [name, home] [work]

/-- A person unfolds, the places of the person next to each other, and nothing again inside itself;
with the fields in another order there are the same entries in another order. -/
theorem person_unfolds :
    (∀ type ∈ (schema [name, home, work] [owner, nearby]).types, type.valuesFlaw? = none) ∧
      (schema [name, home, work] [owner, nearby]).Reordered
        (schema [work, name, home] [nearby, owner]) ∧
      Unfolds (schema [name, home, work] [owner, nearby]) .standard [] "Person" person ∧
      (shapeOfType (schema [name, home, work] [owner, nearby]) .standard
        (.named "Person")).fault = none ∧
      person.Rearranged
        (shapeOfType (schema [work, name, home] [nearby, owner]) .standard
          (.named "Person")).value := by
  have hflawless : ∀ type ∈ (schema [name, home, work] [owner, nearby]).types,
      type.valuesFlaw? = none := by decide
  obtain ⟨hshape, hfault, hrearranged⟩ := full_shape_unfolds
    (schema [name, home, work] [owner, nearby]) .standard (.named "Person")
  obtain ⟨core, hcore, hperson⟩ := (hshape person).mpr shapeOfType_person.symm
  refine ⟨hflawless, reordered, ?_, hfault hflawless, ?_⟩
  · rw [hperson]
    exact hcore
  · rw [← shapeOfType_person]
    exact hrearranged _ reordered

end PeopleAndPlaces

end OperationLibrary
