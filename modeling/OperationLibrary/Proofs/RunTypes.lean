import OperationLibrary.Proofs.Validity

/-!
Types along a run. In a valid schema a field of an object has a type that may stand for the type
the same field has on any interface of the object. So every selection set that a run applies to a
value is written on a type that the value belongs to, and fields that are collected under one key
are one field of the value.
-/

namespace OperationLibrary

open Syntax

section

variable {schema : Schema}

theorem Schema.knows_of_get? {name : String} {type : NamedType}
    (h : schema.get? name = some type) : schema.Knows type := by
  rw [Schema.Knows, Schema.name_of_get? h, h]

theorem Schema.Knows.eq_of_name_eq {type other : NamedType} (htype : schema.Knows type)
    (hother : schema.Knows other) (hname : type.name = other.name) : type = other := by
  rw [Schema.Knows, hname, hother, Option.some.injEq] at htype
  exact htype.symm

/-- Operations start from object types of the schema. -/
theorem Schema.Valid.start (hvalid : schema.Valid) {kind : OperationKind} {start : NamedType}
    (h : schema.root? kind = some start) : schema.Knows start ∧ start.isObject = true := by
  obtain ⟨name, -, hget⟩ := Option.bind_eq_some_iff.mp h
  exact ⟨Schema.knows_of_get? hget, hvalid.roots kind start h⟩

/-! ### What belongs to a type -/

theorem NamedType.includes_self {type : NamedType} (h : type.isObject = true) :
    type.includes type = true := by
  rw [NamedType.isObject] at h
  rw [NamedType.includes]
  split at h <;> simp_all

theorem NamedType.isAbstract_of_isObject {type : NamedType} (h : type.isObject = true) :
    type.isAbstract = false := by
  rw [NamedType.isObject] at h
  rw [NamedType.isAbstract]
  split at h <;> simp_all

theorem NamedType.isComposite_of_includes {type object : NamedType}
    (h : type.includes object = true) : type.isComposite = true := by
  cases hcontent : type.content with
  | object | interface | union =>
      simp [NamedType.isComposite, NamedType.isObject, NamedType.isAbstract, hcontent]
  | scalar | enum | input => simp [NamedType.includes, hcontent] at h

/-- A type that is not abstract includes one object only. -/
theorem Schema.Knows.eq_of_includes {type object : NamedType} (htype : schema.Knows type)
    (hobject : schema.Knows object) (habstract : type.isAbstract = false)
    (h : type.includes object = true) : type = object := by
  cases hcontent : type.content with
  | object interfaces fields =>
      rw [NamedType.includes, hcontent] at h
      exact htype.eq_of_name_eq hobject (by simpa using h)
  | interface | union => simp [NamedType.isAbstract, hcontent] at habstract
  | scalar | enum | input => simp [NamedType.includes, hcontent] at h

theorem Schema.Subtype.refl (type : TypeRef) : schema.Subtype type type := by
  induction type with
  | named name => exact .same name
  | list item ih => exact .list ih
  | nonNull inner ih => exact .nonNull ih

theorem Schema.Subtype.isNonNull {type other : TypeRef} (h : schema.Subtype type other)
    (hother : other.isNonNull = true) : type.isNonNull = true := by
  cases h with
  | nonNull | stricter => rfl
  | same | implements | member | list => exact absurd hother (by simp [TypeRef.isNonNull])

/-- The objects of a type are objects of every type that it may stand for. -/
theorem Schema.Subtype.includes {type other : TypeRef} (hvalid : schema.Valid)
    (h : schema.Subtype type other) {core otherCore object : NamedType}
    (hcore : schema.get? type.base = some core) (hother : schema.get? other.base = some otherCore)
    (hobject : schema.Knows object) (hincludes : core.includes object = true) :
    otherCore.includes object = true := by
  induction h with
  | same name =>
      have hsame : core = otherCore := Option.some.inj (hcore.symm.trans hother)
      exact hsame ▸ hincludes
  | @implements name interface type known declares =>
      have hsame : core = type := Option.some.inj (hcore.symm.trans known)
      subst hsame
      obtain ⟨found, hfound, ⟨⟨interfaces, fields, hcontent⟩, -, -⟩⟩ :=
        hvalid.interfaces core (Schema.knows_of_get? hcore) interface declares
      have hsame : otherCore = found := Option.some.inj (hother.symm.trans hfound)
      subst hsame
      have hname : otherCore.name = interface := Schema.name_of_get? hother
      have hdeclares : interface ∈ object.declaredInterfaces := by
        cases hcore' : core.content with
        | object =>
            have habstract : core.isAbstract = false := by simp [NamedType.isAbstract, hcore']
            rw [← (Schema.knows_of_get? hcore).eq_of_includes hobject habstract hincludes]
            exact declares
        | interface =>
            rw [NamedType.includes, hcore', List.contains_iff_mem] at hincludes
            -- objects declare the interfaces of their interfaces too
            obtain ⟨own, hown, hkeeps⟩ := hvalid.interfaces object hobject core.name hincludes
            have hsame : own = core :=
              Option.some.inj (hown.symm.trans (Schema.knows_of_get? hcore))
            exact hkeeps.interfaces interface (hsame ▸ declares)
        | union | scalar | enum | input => simp [NamedType.declaredInterfaces, hcore'] at declares
      rw [NamedType.includes, hcontent, List.contains_iff_mem, hname]
      exact hdeclares
  | @member name union type members known content mem =>
      have hsame : otherCore = type := Option.some.inj (hother.symm.trans known)
      subst hsame
      obtain ⟨member, hmember, hisObject⟩ :=
        hvalid.members otherCore members (Schema.knows_of_get? hother) content name mem
      have hsame : core = member := Option.some.inj (hcore.symm.trans hmember)
      subst hsame
      have hsame := (Schema.knows_of_get? hcore).eq_of_includes hobject
        (NamedType.isAbstract_of_isObject hisObject) hincludes
      rw [NamedType.includes, content, List.contains_iff_mem, ← hsame, Schema.name_of_get? hcore]
      exact mem
  | list _ ih | nonNull _ ih | stricter _ ih => exact ih hcore hother

/-- A field of a type is a field of all objects of the type, with a type that may stand for the
promised one. -/
theorem Schema.Valid.field?_of_includes (hvalid : schema.Valid) {type object : NamedType}
    (htype : schema.Knows type) (hobject : schema.Knows object)
    (hincludes : type.includes object = true) {name : String} {declared : OutputField}
    (hfound : type.field? name = some declared) :
    ∃ own, object.field? name = some own ∧ schema.Subtype own.type declared.type := by
  cases hcontent : type.content with
  | object =>
      have habstract : type.isAbstract = false := by simp [NamedType.isAbstract, hcontent]
      rw [← htype.eq_of_includes hobject habstract hincludes]
      exact ⟨declared, hfound, .refl _⟩
  | interface =>
      rw [NamedType.includes, hcontent, List.contains_iff_mem] at hincludes
      obtain ⟨own, hown, hkeeps⟩ := hvalid.interfaces object hobject type.name hincludes
      have hsame : own = type := Option.some.inj (hown.symm.trans htype)
      exact hkeeps.fields name declared (hsame ▸ hfound)
  | union | scalar | enum | input =>
      simp [NamedType.field?, NamedType.outputFields?, hcontent] at hfound

/-! ### What applies to a value -/

variable {context : SelectionContext} {root : SelectionSet} {given : String → Bool}

theorem Opens.knows {outer inner : SelectionSet} {guard : Guard}
    (h : Opens context outer guard inner) (houter : context.schema.Knows outer.parent) :
    context.schema.Knows inner.parent := by
  cases h with
  | group => exact houter
  | inline mem resolved | spread mem found resolved => exact Schema.knows_of_get? resolved

theorem Opens.includes {outer inner : SelectionSet} {guard : Guard} {object : NamedType}
    (h : Opens context outer guard inner) (hadmits : guard.admits given object = true)
    (houter : outer.parent.includes object = true) : inner.parent.includes object = true := by
  rw [Guard.admits, Bool.and_eq_true] at hadmits
  cases h with
  | group => exact houter
  | inline | spread => exact hadmits.2

theorem Selects.knows {set : SelectionSet} {guards : List Guard} {field : SelectedField}
    (h : Selects context set guards field) (hset : context.schema.Knows set.parent) :
    context.schema.Knows field.parent := by
  induction h with
  | field mem => exact hset
  | behind opens _ ih => exact ih (opens.knows hset)

theorem Selects.includes {set : SelectionSet} {guards : List Guard} {field : SelectedField}
    {object : NamedType} (h : Selects context set guards field)
    (hguards : ∀ guard ∈ guards, guard.admits given object = true)
    (hset : set.parent.includes object = true) : field.parent.includes object = true := by
  induction h with
  | field mem => exact hset
  | behind opens _ ih =>
      refine ih (fun guard hmem => hguards guard (List.mem_cons_of_mem _ hmem)) ?_
      exact opens.includes (hguards _ List.mem_cons_self) hset

theorem Nested.knows {set : SelectionSet} {path : List String}
    (h : Nested context root path set) (hroot : context.schema.Knows root.parent) :
    context.schema.Knows set.parent := by
  induction h with
  | here set => exact hroot
  | field _ inner _ ih =>
      obtain ⟨declared, -, hget, -⟩ := SelectedField.innerSet?_eq_some.mp inner
      exact ih (Schema.knows_of_get? hget)

/-- What a run applies to a value: selection sets on types that the value belongs to, any two of
which are merged. -/
structure Applies (context : SelectionContext) (root : SelectionSet) (object : NamedType)
    (sets : Set SelectionSet) : Prop where
  known : context.schema.Knows object
  isObject : object.isObject = true
  knows : ∀ set ∈ sets, context.schema.Knows set.parent
  includes : ∀ set ∈ sets, set.parent.includes object = true
  merged : ∀ left ∈ sets, ∀ right ∈ sets, Merged context root left right

namespace Applies

variable {object : NamedType} {sets : Set SelectionSet} {field other : SelectedField}

theorem parent (h : Applies context root object sets)
    (hfield : Collects context given object sets field) :
    context.schema.Knows field.parent ∧ field.parent.includes object = true := by
  obtain ⟨set, hset, guards, hselects, hguards, -⟩ := hfield
  exact ⟨hselects.knows (h.knows set hset), hselects.includes hguards (h.includes set hset)⟩

/-- Two types that one object belongs to may meet. -/
theorem mayMeet (h : Applies context root object sets)
    (hfield : Collects context given object sets field)
    (hother : Collects context given object sets other) : MayMeet field other := by
  obtain ⟨hknown, hincludes⟩ := h.parent hfield
  obtain ⟨hknown', hincludes'⟩ := h.parent hother
  cases hleft : field.parent.isObject with
  | false => exact .inr (.inl hleft)
  | true =>
      cases hright : other.parent.isObject with
      | false => exact .inr (.inr hright)
      | true =>
          left
          rw [hknown.eq_of_includes h.known (NamedType.isAbstract_of_isObject hleft) hincludes,
            hknown'.eq_of_includes h.known (NamedType.isAbstract_of_isObject hright) hincludes']

/-- Fields that are collected under one key are one field of the value. -/
theorem name_eq (h : Applies context root object sets) (hselections : ValidSelections context root)
    (hfield : Collects context given object sets field)
    (hother : Collects context given object sets other) (hkey : field.key = other.key) :
    field.head.name = other.head.name := by
  have hmeet := h.mayMeet hfield hother
  obtain ⟨left, hleft, leftGuards, hselects, -⟩ := hfield
  obtain ⟨right, hright, rightGuards, hselects', -⟩ := hother
  exact hselections.names left right leftGuards rightGuards field other
    (h.merged left hleft right hright) hselects hselects' hkey hmeet

/-- A collected field is a field of the value, with a type that may stand for the type it has where
it is written. -/
theorem fieldType? (h : Applies context root object sets) (hschema : context.schema.Valid)
    (hfield : Collects context given object sets field) {type : TypeRef}
    (htype : field.type? = some type) :
    ∃ own, object.fieldType? field.head.name = some own ∧ context.schema.Subtype own type := by
  obtain ⟨hknown, hincludes⟩ := h.parent hfield
  rw [SelectedField.type?, NamedType.fieldType?] at htype
  rw [NamedType.fieldType?]
  cases hinternal : OperationLibrary.isInternal field.head.name with
  | true =>
      rw [if_pos hinternal] at htype
      exact ⟨type, htype, .refl type⟩
  | false =>
      rw [if_neg (by simp [hinternal])] at htype
      obtain ⟨declared, hfound, rfl⟩ := Option.map_eq_some_iff.mp htype
      obtain ⟨own, hown, hsub⟩ := hschema.field?_of_includes hknown h.known hincludes hfound
      exact ⟨own.type, by simp [hown], hsub⟩

end Applies

/-- Every run applies to its values what is written on their types. -/
theorem Executes.applies (hschema : context.schema.Valid)
    (hselections : ValidSelections context root) (hroot : context.schema.Knows root.parent)
    (hisObject : root.parent.isObject = true) {path : List String} {object : NamedType}
    {sets : Set SelectionSet} (h : Executes context given root path object sets) :
    Applies context root object sets := by
  induction h with
  | root =>
      refine ⟨hroot, hisObject, ?_, ?_, ?_⟩
      · rintro set rfl
        exact hroot
      · rintro set rfl
        exact NamedType.includes_self hisObject
      · rintro left rfl right rfl
        exact .root
  | @field path object type value sets field declared _ collected found resolved known isObject
      possible ih =>
      refine ⟨known, isObject, ?_, ?_, ?_⟩
      · rintro set ⟨other, -, -, hinner⟩
        obtain ⟨_, -, hget, -⟩ := SelectedField.innerSet?_eq_some.mp hinner
        exact Schema.knows_of_get? hget
      · rintro set ⟨other, hother, hkey, hinner⟩
        obtain ⟨promised, hpromised, hget, -⟩ := SelectedField.innerSet?_eq_some.mp hinner
        obtain ⟨hknown, hincludes⟩ := ih.parent hother
        obtain ⟨own, hown, hsub⟩ :=
          hschema.field?_of_includes hknown ih.known hincludes hpromised
        -- the set may come from another field than the one followed, but of the same name
        rw [ih.name_eq hselections hother collected hkey, found, Option.some.injEq] at hown
        subst hown
        exact hsub.includes hschema resolved hget known possible
      · rintro left ⟨leftField, hleft, hleftKey, hleftInner⟩ right
          ⟨rightField, hright, hrightKey, hrightInner⟩
        have hmeet := ih.mayMeet hleft hright
        obtain ⟨leftSet, hleftSet, leftGuards, hselects, -⟩ := hleft
        obtain ⟨rightSet, hrightSet, rightGuards, hselects', -⟩ := hright
        exact .field (ih.merged leftSet hleftSet rightSet hrightSet) hselects hselects'
          (hleftKey.trans hrightKey.symm) hmeet hleftInner hrightInner

/-- Something is selected on every value that a run comes to. -/
theorem Executes.nonempty (hschema : context.schema.Valid)
    (hselections : ValidSelections context root) (hroot : context.schema.Knows root.parent)
    (hisObject : root.parent.isObject = true) {path : List String} {object : NamedType}
    {sets : Set SelectionSet} (h : Executes context given root path object sets) :
    sets.Nonempty := by
  cases h with
  | root => exact ⟨root, rfl⟩
  | @field path object type value sets field declared reached collected found resolved known
      isObject possible =>
      have happlies := reached.applies hschema hselections hroot hisObject
      obtain ⟨hknown, hincludes⟩ := happlies.parent collected
      have hordinary : field.isInternal = false :=
        hschema.fieldNames object field.head.name declared happlies.known found
      obtain ⟨promised, core, hpromised, hcore, hinner⟩ :=
        (hselections.fields _ field (reached.occurs collected)).of_ordinary hordinary
      obtain ⟨own, hown, hsub⟩ :=
        hschema.field?_of_includes hknown happlies.known hincludes hpromised
      rw [found, Option.some.injEq] at hown
      subst hown
      have hcomposite := NamedType.isComposite_of_includes
        (hsub.includes hschema resolved hcore known possible)
      obtain ⟨inner, hinner⟩ := Option.isSome_iff_exists.mp (hinner.trans hcomposite)
      exact ⟨⟨core, inner⟩, field, collected, rfl,
        SelectedField.innerSet?_eq_some.mpr ⟨promised, hpromised, hcore, hinner⟩⟩

end

end OperationLibrary
