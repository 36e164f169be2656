import Mathlib.Data.List.Nodup
import OperationLibrary.Proofs.FullShape
import OperationLibrary.Proofs.ProjectedEntries

/-!
Selecting everything. Where no object or interface type leads back to itself, all fields of a type
can be selected, with all fields of the types that they have. The entries that such selections make
are the entries of the full shape of the type.
-/

namespace OperationLibrary

open Syntax Relation

/-! ### Selections of everything -/

/-- The type with the one name leads to the object or interface type with the other name, which
has these fields. -/
def Schema.LeadsTo (schema : Schema) (name inner : String) (fields : List OutputField) : Prop :=
  ReflTransGen schema.Mentions name inner ∧
    ∃ type, schema.get? inner = some type ∧ type.outputFields? = some fields

/-- All that a type leads to can be selected: no object or interface type leads back to itself, and
its fields have names of their own, which are not those of fields that describe the schema. -/
structure Schema.FullySelectable (schema : Schema) (name : String) : Prop where
  acyclic : ∀ inner fields, schema.LeadsTo name inner fields →
    ¬ TransGen schema.Mentions inner inner
  distinct : ∀ inner fields, schema.LeadsTo name inner fields →
    (fields.map OutputField.name).Nodup
  ordinary : ∀ inner fields, schema.LeadsTo name inner fields →
    ∀ field ∈ fields, isInternal field.name = false

/-- Every field is selected, in the order of their declaration, with every field of its type where
that is an object or interface type. -/
inductive SelectsAll (schema : Schema) : List OutputField → List Selection → Prop
  | nil : SelectsAll schema [] []
  | leaf {field : OutputField} {fields : List OutputField} {selections : List Selection}
      (plain : ∀ type, schema.get? field.type.base = some type → type.outputFields? = none)
      (rest : SelectsAll schema fields selections) :
      SelectsAll schema (field :: fields) (.field ⟨none, field.name, [], []⟩ none :: selections)
  | nested {field : OutputField} {fields inner : List OutputField} {type : NamedType}
      {within selections : List Selection} (found : schema.get? field.type.base = some type)
      (declared : type.outputFields? = some inner) (all : SelectsAll schema inner within)
      (rest : SelectsAll schema fields selections) :
      SelectsAll schema (field :: fields)
        (.field ⟨none, field.name, [], []⟩ (some within) :: selections)

section

variable {schema : Schema} {name : String} {type : NamedType} {fields : List OutputField}

theorem Schema.FullySelectable.of_mentions {inner : String} (h : schema.FullySelectable name)
    (hmentions : schema.Mentions name inner) : schema.FullySelectable inner where
  acyclic := fun found fields hleads => h.acyclic found fields ⟨hleads.1.head hmentions, hleads.2⟩
  distinct := fun found fields hleads =>
    h.distinct found fields ⟨hleads.1.head hmentions, hleads.2⟩
  ordinary := fun found fields hleads =>
    h.ordinary found fields ⟨hleads.1.head hmentions, hleads.2⟩

theorem SelectsAll.unique {selections others : List Selection}
    (h : SelectsAll schema fields selections) (hothers : SelectsAll schema fields others) :
    selections = others := by
  induction h generalizing others with
  | nil =>
      cases hothers
      rfl
  | leaf plain rest ih =>
      cases hothers with
      | leaf _ others => rw [ih others]
      | nested found declared => simp [plain _ found] at declared
  | nested found declared all rest ihAll ihRest =>
      cases hothers with
      | leaf plain => simp [plain _ found] at declared
      | nested found' declared' all' rest' =>
          obtain rfl := Option.some.inj (found.symm.trans found')
          obtain rfl := Option.some.inj (declared.symm.trans declared')
          rw [ihAll all', ihRest rest']

theorem SelectsAll.exists_of_forall {fields : List OutputField}
    (h : ∀ field ∈ fields, ∀ type inner, schema.get? field.type.base = some type →
      type.outputFields? = some inner → ∃ within, SelectsAll schema inner within) :
    ∃ selections, SelectsAll schema fields selections := by
  induction fields with
  | nil => exact ⟨[], .nil⟩
  | cons field fields ih =>
      obtain ⟨selections, hrest⟩ := ih fun other hother => h other (List.mem_cons_of_mem _ hother)
      by_cases hnested : ∃ type inner, schema.get? field.type.base = some type ∧
          type.outputFields? = some inner
      · obtain ⟨type, inner, hget, hinner⟩ := hnested
        obtain ⟨within, hall⟩ := h field List.mem_cons_self type inner hget hinner
        exact ⟨_, .nested hget hinner hall hrest⟩
      · refine ⟨_, .leaf (fun type hget => ?_) hrest⟩
        exact Option.eq_none_iff_forall_ne_some.mpr fun inner hinner =>
          hnested ⟨type, inner, hget, hinner⟩

/-- What can be selected altogether is finite: a type inside another one is not yet among those
around it. -/
theorem Schema.FullySelectable.exists_selections (h : schema.FullySelectable name)
    (hget : schema.get? name = some type) (hfields : type.outputFields? = some fields) :
    ∃ selections, SelectsAll schema fields selections := by
  have hinside : ∀ n around name type fields, schema.unseen around = n →
      (∀ outer ∈ around, TransGen schema.Mentions outer name) → schema.FullySelectable name →
      schema.get? name = some type → type.outputFields? = some fields →
      ∃ selections, SelectsAll schema fields selections := by
    intro n
    induction n using Nat.strong_induction_on with
    | _ n ih =>
        intro around name type fields hn haround h hget hfields
        have hfresh : name ∉ around := fun hmem =>
          h.acyclic name fields ⟨.refl, type, hget, hfields⟩ (haround name hmem)
        have hless : schema.unseen (name :: around) < n := hn ▸ Schema.unseen_cons_lt hget hfresh
        apply SelectsAll.exists_of_forall
        intro field hfield type' inner hget' hinner
        have hmentions := Schema.mentions_of_mem hget hfields hfield
        refine ih _ hless (name :: around) _ type' inner rfl ?_ (h.of_mentions hmentions) hget'
          hinner
        intro outer houter
        rcases List.mem_cons.mp houter with rfl | houter
        · exact .single hmentions
        · exact (haround outer houter).tail hmentions
  exact hinside _ [] name type fields rfl (by simp) h hget hfields

end

/-! ### What selecting everything makes -/

/-- Entries of different names are not merged. -/
theorem mergeEntries_of_nodup {known entries : List (Entry Shape)}
    (h : ((known ++ entries).map Entry.name).Nodup) :
    mergeEntries known entries = known ++ entries := by
  induction entries generalizing known with
  | nil => rw [mergeEntries_nil, List.append_nil]
  | cons entry entries ih =>
      have hfresh : known.any (·.name == entry.name) = false := by
        rw [List.any_eq_false]
        intro other hother hname
        rw [List.map_append, List.nodup_append] at h
        exact h.2.2 _ (List.mem_map_of_mem hother) _ (List.mem_map_of_mem List.mem_cons_self)
          (beq_iff_eq.mp hname)
      have hadd : addEntry known entry = known ++ [entry] := by
        rw [addEntry, hfresh]
        rfl
      rw [mergeEntries_cons, hadd, ih (by simpa using h), List.append_assoc]
      rfl

theorem NamedType.field?_of_nodup {type : NamedType} {fields : List OutputField}
    (hfields : type.outputFields? = some fields) (hnodup : (fields.map OutputField.name).Nodup)
    {field : OutputField} (hfield : field ∈ fields) : type.field? field.name = some field := by
  rw [NamedType.field?, hfields, Option.getD_some]
  cases hfound : fields.find? (·.name == field.name) with
  | none => simpa using List.find?_eq_none.mp hfound field hfield
  | some found =>
      have hname : found.name = field.name := by simpa using List.find?_some hfound
      rw [List.inj_on_of_nodup_map hnodup (List.mem_of_find?_eq_some hfound) hfield hname]

section

variable {context : SelectionContext} {expanding : List String}

/-- A field that is selected makes the entry that it makes in the full shape, if that is so of the
core of its type. -/
theorem contribution_agrees {parent : NamedType} {field : OutputField}
    {inner : Option (List Selection)} (hfound : parent.field? field.name = some field)
    (hordinary : isInternal field.name = false)
    (hcore : (selectedCore context expanding inner field.type.base).Agrees
      (shapeOfName context.schema context.scalars [] field.type.base)) :
    (contribution context expanding parent (.field ⟨none, field.name, [], []⟩ inner)).Agrees
      ((fun entry => [entry]) <$> declaredEntry context.schema context.scalars field) := by
  have hshape : (throughWrappers .selections (selectedCore context expanding inner) 0
      field.type).Agrees
        (throughWrappers .types (shapeOfName context.schema context.scalars []) 0 field.type) :=
    throughWrappers_agrees hcore 0
  rw [contribution_field _ _ _ _ hordinary]
  constructor
  · simp [value_selectedField, hfound, declaredEntry, unfoldedEntry, hshape.1,
      FieldHead.responseKey]
  · simp [value_selectedField, hfound, declaredEntry, unfoldedEntry, hshape.2]

theorem contributions_cons_agrees {parent : NamedType} {field : OutputField}
    {fields : List OutputField} {selection : Selection} {selections : List Selection}
    (hfirst : (contribution context expanding parent selection).Agrees
      ((fun entry => [entry]) <$> declaredEntry context.schema context.scalars field))
    (hrest : (contributions context expanding parent selections).Agrees
      (fields.mapM (declaredEntry context.schema context.scalars))) :
    (contributions context expanding parent (selection :: selections)).Agrees
      ((field :: fields).mapM (declaredEntry context.schema context.scalars)) := by
  rw [contributions, List.mapM_cons]
  constructor
  · simp [hfirst.1, hrest.1]
  · simp [hfirst.2, hrest.2]

theorem NamedType.isComposite_of_outputFields? {type : NamedType} {fields : List OutputField}
    (h : type.outputFields? = some fields) : type.isComposite = true := by
  rw [NamedType.outputFields?] at h
  split at h
  all_goals first
    | contradiction
    | (rename_i hcontent; simp [isComposite, isObject, isAbstract, hcontent])

/-- Nothing is selected on a type that is neither an object nor an interface type. -/
theorem selectedCore_leaf_agrees {name : String}
    (h : ∀ type, context.schema.get? name = some type → type.outputFields? = none) :
    (selectedCore context expanding none name).Agrees
      (shapeOfName context.schema context.scalars [] name) := by
  rw [selectedCore]
  cases hget : context.schema.get? name with
  | none =>
      have hany : shapeOfName context.schema context.scalars [] name = pure .any := by
        rw [shapeOfName]
        split <;> simp_all
      rw [hany]
      exact .refl _
  | some type =>
      have hfields := h type hget
      cases hcontent : type.content with
      | object | interface => simp [NamedType.outputFields?, hcontent] at hfields
      | union members =>
          have hany : shapeOfName context.schema context.scalars [] name = pure .any := by
            rw [shapeOfName]
            split <;> simp_all [NamedType.unfoldedFields?]
          simp only [NamedType.isComposite, NamedType.isObject, NamedType.isAbstract, hcontent,
            Bool.or_true, if_true, hany]
          exact ⟨rfl, rfl⟩
      | scalar | enum | input =>
          simp only [NamedType.isComposite, NamedType.isObject, NamedType.isAbstract, hcontent,
            Bool.or_false, Bool.false_eq_true, if_false]
          exact .refl _

/-- What is known of the fields of a type that can be selected altogether. -/
theorem Schema.FullySelectable.fields {schema : Schema} {name : String} {type : NamedType}
    {fields : List OutputField} (h : schema.FullySelectable name)
    (hget : schema.get? name = some type) (hfields : type.outputFields? = some fields) :
    ∀ field ∈ fields, type.field? field.name = some field ∧ isInternal field.name = false ∧
      schema.FullySelectable field.type.base := by
  have hleads : schema.LeadsTo name name fields := ⟨.refl, type, hget, hfields⟩
  intro field hfield
  exact ⟨NamedType.field?_of_nodup hfields (h.distinct name fields hleads) hfield,
    h.ordinary name fields hleads field hfield,
    h.of_mentions (Schema.mentions_of_mem hget hfields hfield)⟩

/-- The entries of the full shape of a type are not merged. -/
theorem mergeEntries_declared {schema : Schema} {scalars : ScalarTable} {fields : List OutputField}
    (hnodup : (fields.map OutputField.name).Nodup) :
    mergeEntries [] (fields.mapM (declaredEntry schema scalars)).value =
      (fields.mapM (declaredEntry schema scalars)).value := by
  apply mergeEntries_of_nodup
  rw [List.nil_append, Projection.value_mapM, List.map_map]
  exact hnodup

theorem object_agrees {name : String} {type : NamedType} {fields : List OutputField}
    {within : List Selection} (h : context.schema.FullySelectable name)
    (hget : context.schema.get? name = some type) (hfields : type.outputFields? = some fields)
    (hentries : (contributions context expanding type within).Agrees
      (fields.mapM (declaredEntry context.schema context.scalars))) :
    ((fun entries => Shape.object (mergeEntries [] entries) type.description) <$>
      contributions context expanding type within).Agrees
        (shapeOfName context.schema context.scalars [] name) := by
  have hleads : context.schema.LeadsTo name name fields := ⟨.refl, type, hget, hfields⟩
  have hshape : (shapeOfName context.schema context.scalars [] name).Agrees (do
      let entries ← fields.mapM (declaredEntry context.schema context.scalars)
      return .object entries type.description) :=
    shapeOfName_fields hget hfields (h.acyclic name fields hleads)
  have hmerged : mergeEntries [] (fields.mapM
      (declaredEntry context.schema context.scalars)).value = _ :=
    mergeEntries_declared (h.distinct name fields hleads)
  constructor
  · rw [hshape.1, Projection.value_map, hentries.1, hmerged]
    rfl
  · rw [hshape.2, Projection.fault_map, hentries.2]
    simp

/-- All fields of a type, selected on it, make the entries that they make in its full shape. -/
theorem contributions_agrees {fields : List OutputField} {selections : List Selection}
    (h : SelectsAll context.schema fields selections) {parent : NamedType}
    (hfields : ∀ field ∈ fields, parent.field? field.name = some field ∧
      isInternal field.name = false ∧ context.schema.FullySelectable field.type.base) :
    (contributions context expanding parent selections).Agrees
      (fields.mapM (declaredEntry context.schema context.scalars)) := by
  induction h generalizing parent with
  | nil =>
      rw [contributions]
      exact .refl _
  | @leaf field fields selections plain rest ih =>
      obtain ⟨hfound, hordinary, -⟩ := hfields field List.mem_cons_self
      apply contributions_cons_agrees
      · exact contribution_agrees hfound hordinary (selectedCore_leaf_agrees plain)
      · exact ih fun other hother => hfields other (List.mem_cons_of_mem _ hother)
  | @nested field fields inner type within selections found declared all rest ihAll ihRest =>
      obtain ⟨hfound, hordinary, hselectable⟩ := hfields field List.mem_cons_self
      have hcore : selectedCore context expanding (some within) field.type.base =
          (fun entries => Shape.object (mergeEntries [] entries) type.description) <$>
            contributions context expanding type within := by
        rw [selectedCore, found]
        simp only [NamedType.isComposite_of_outputFields? declared, if_true]
        rfl
      apply contributions_cons_agrees
      · apply contribution_agrees hfound hordinary
        rw [hcore]
        exact object_agrees hselectable found declared (ihAll (hselectable.fields found declared))
      · exact ihRest fun other hother => hfields other (List.mem_cons_of_mem _ hother)

/-- **Selecting everything.** Where all fields of an object or interface type can be selected, with
all that their types have, there is one way to do so, and the object that it makes is the full shape
of the type: the same names in the same order, with the same shapes, marks and descriptions. -/
theorem selecting_all_projects_full_type {context : SelectionContext} {name : String}
    {type : NamedType} {fields : List OutputField} (hget : context.schema.get? name = some type)
    (hfields : type.outputFields? = some fields) (h : context.schema.FullySelectable name) :
    ∃ selections, SelectsAll context.schema fields selections ∧
      (∀ other, SelectsAll context.schema fields other → other = selections) ∧
      ∀ expanding,
        (shapeOfTypeNamed context.schema context.scalars name).value =
          .object (selectedEntries context expanding type selections).value type.description ∧
        (shapeOfTypeNamed context.schema context.scalars name).fault =
          (selectedEntries context expanding type selections).fault := by
  obtain ⟨selections, hall⟩ := h.exists_selections hget hfields
  refine ⟨selections, hall, fun other hother => hother.unique hall, fun expanding => ?_⟩
  have hentries : (contributions context expanding type selections).Agrees
      (fields.mapM (declaredEntry context.schema context.scalars)) :=
    contributions_agrees hall (h.fields hget hfields)
  obtain ⟨hvalue, hfault⟩ := object_agrees h hget hfields hentries
  rw [shapeOfTypeNamed, hget]
  refine ⟨?_, ?_⟩
  · rw [← hvalue]
    rfl
  · rw [← hfault]
    rfl

end

/-- Types that can be put in an order in which fields lead downwards can be selected altogether. -/
theorem Schema.FullySelectable.of_rank {schema : Schema} (rank : String → Nat)
    (hrank : ∀ type ∈ schema.types, ∀ field ∈ type.unfoldedFields?.getD [],
      rank field.2.2.base < rank type.name)
    (hdistinct : ∀ type ∈ schema.types,
      ((type.outputFields?.getD []).map OutputField.name).Nodup)
    (hordinary : ∀ type ∈ schema.types, ∀ field ∈ type.outputFields?.getD [],
      isInternal field.name = false) (name : String) : schema.FullySelectable name := by
  have hmentions : ∀ outer inner, schema.Mentions outer inner → rank inner < rank outer := by
    rintro outer inner ⟨type, fields, hget, hfields, field, hfield, rfl⟩
    rw [← Schema.name_of_get? hget]
    exact hrank type (List.mem_of_find?_eq_some hget) field (by simpa [hfields] using hfield)
  have hreach : ∀ outer inner, TransGen schema.Mentions outer inner → rank inner < rank outer := by
    intro outer inner h
    induction h with
    | single h => exact hmentions _ _ h
    | tail _ h ih => exact lt_trans (hmentions _ _ h) ih
  have hdeclared : ∀ inner fields, schema.LeadsTo name inner fields →
      ∃ type ∈ schema.types, type.outputFields?.getD [] = fields := by
    rintro inner fields ⟨-, type, hget, hfields⟩
    exact ⟨type, List.mem_of_find?_eq_some hget, by rw [hfields, Option.getD_some]⟩
  refine ⟨fun inner _ _ hcycle => lt_irrefl _ (hreach inner inner hcycle), ?_, ?_⟩
  · intro inner fields hleads
    obtain ⟨type, hmem, rfl⟩ := hdeclared inner fields hleads
    exact hdistinct type hmem
  · intro inner fields hleads
    obtain ⟨type, hmem, rfl⟩ := hdeclared inner fields hleads
    exact hordinary type hmem

namespace SelectedPerson

def names : OutputField := ⟨"names", some (.text "All of them"), [], .list (.named "String")⟩

def home : OutputField := ⟨"home", none, [], .list (.nonNull (.named "Place"))⟩

def city : OutputField := ⟨"city", none, [], .nonNull (.named "String")⟩

def person : NamedType := ⟨"Person", none, .object [] [names, home]⟩

def place : NamedType := ⟨"Place", some (.text "Somewhere"), .interface [] [city]⟩

def context : SelectionContext :=
  ⟨⟨[person, place, .scalar "String"], some "Person", none, none, []⟩, [], .standard⟩

/-- All of a person. -/
def selections : List Selection :=
  [.field ⟨none, "names", [], []⟩ none,
    .field ⟨none, "home", [], []⟩ (some [.field ⟨none, "city", [], []⟩ none])]

theorem selectsAll : SelectsAll context.schema [names, home] selections := by
  have hstring : ∀ type, context.schema.get? "String" = some type → type.outputFields? = none := by
    intro type hget
    obtain rfl := Option.some.inj hget
    rfl
  have hplace : context.schema.get? "Place" = some place := rfl
  exact .leaf hstring (.nested hplace rfl (.leaf hstring .nil) .nil)

/-- Persons have places, and places no persons. -/
theorem fullySelectable : context.schema.FullySelectable "Person" := by
  apply Schema.FullySelectable.of_rank fun name =>
    if name = "Person" then 2 else if name = "Place" then 1 else 0
  · decide
  · decide
  · simp [context, person, place, NamedType.scalar, NamedType.outputFields?, names, home, city,
      isInternal]

/-- All of a person makes the full shape of a person. -/
theorem projects_person :
    context.schema.FullySelectable "Person" ∧
      SelectsAll context.schema [names, home] selections ∧
      (shapeOfTypeNamed context.schema context.scalars "Person").value =
        .object (selectedEntries context [] person selections).value none := by
  obtain ⟨found, -, hunique, hshape⟩ :=
    @selecting_all_projects_full_type context "Person" person [names, home] rfl rfl fullySelectable
  obtain rfl := hunique selections selectsAll
  exact ⟨fullySelectable, selectsAll, (hshape []).1⟩

end SelectedPerson

end OperationLibrary
