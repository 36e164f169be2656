import OperationLibrary.Proofs.RunWays
import OperationLibrary.Proofs.ValidProjection
import OperationLibrary.Proofs.ValidityCheck

/-!
Keys that are never absent. An entry that is not nullable comes from a selection set that selects
its key whatever the object is: no guard inside the set narrows the objects down. So the key is
there in every run that applies such a set. Merging forgets the guards before the fields around the
set; a run may fail to apply it only if one of these narrows, and the objects that go other ways
along the path do not pass it. The type of the field is not nullable, unless the field looks up a
type by name.
-/

namespace OperationLibrary

open Syntax

section

variable {context : SelectionContext} {root : SelectionSet}

/-! ### Selections that always apply -/

/-- The projection lets a field never be absent. -/
def SelectedField.isRequired (field : SelectedField) : Bool :=
  field.isInternal || (field.parent.field? field.head.name).any (·.type.isNonNull)

/-- A selection set selects a field that is never absent, for every object. -/
def AlwaysSelects (context : SelectionContext) (set : SelectionSet) (field : SelectedField) :
    Prop :=
  ∃ guards, Selects context set guards field ∧ field.isRequired = true ∧
    ∀ guard ∈ guards, guard.narrows = false

/-- A selection set selects a key with a field that is never absent, for every object. -/
def SelectsAlways (context : SelectionContext) (set : SelectionSet) (key : String) : Prop :=
  ∃ field, AlwaysSelects context set field ∧ field.key = key

/-- If an entry is never absent, its key is selected by a set that lies along its path. -/
def Entry.Backed (context : SelectionContext) (set : SelectionSet) (path : List String)
    (entry : Entry Shape) : Prop :=
  entry.nullable = false → ∃ last, Nested context set path last ∧
    SelectsAlways context last entry.name

theorem Entry.Backed.merge {set : SelectionSet} {path : List String} {known entry : Entry Shape}
    (hknown : known.Backed context set path) (hentry : entry.Backed context set path)
    (hname : known.name = entry.name) : (known.merge entry).Backed context set path := by
  intro hnullable
  rw [Entry.merge, Bool.and_eq_false_iff] at hnullable
  rcases hnullable with h | h
  · exact hname ▸ hknown h
  · exact hentry h

theorem Nested.opens {outer inner last : SelectionSet} {guard : Guard} {key : String}
    {path : List String} (h : Nested context inner (key :: path) last)
    (hopens : Opens context outer guard inner) : Nested context outer (key :: path) last := by
  cases h with
  | field selects inner nested => exact .field (.behind hopens selects) inner nested

theorem SelectsAlways.opens {outer inner : SelectionSet} {guard : Guard} {key : String}
    (h : SelectsAlways context inner key) (hopens : Opens context outer guard inner)
    (hnarrows : guard.narrows = false) : SelectsAlways context outer key := by
  obtain ⟨field, ⟨guards, hselects, hrequired, hguards⟩, hkey⟩ := h
  exact ⟨field, ⟨guard :: guards, .behind hopens hselects, hrequired,
    List.forall_mem_cons.mpr ⟨hnarrows, hguards⟩⟩, hkey⟩

/-- Behind a guard that narrows, entries may be absent; behind another one they are backed as
before. -/
theorem Entry.Throughout.backed_weaken {outer inner : SelectionSet} {guard : Guard}
    {entry : Entry Shape} (h : entry.Throughout (Entry.Backed context inner) [])
    (hopens : Opens context outer guard inner) :
    (guard.weaken entry).Throughout (Entry.Backed context outer) [] := by
  refine ⟨fun hnullable => ?_, ?_⟩
  · cases hnarrows : guard.narrows with
    | true => simp [Guard.weaken, hnarrows] at hnullable
    | false =>
        simp only [Guard.weaken, hnarrows, Bool.false_eq_true, if_false] at hnullable ⊢
        obtain ⟨last, hnested, halways⟩ := h.1 hnullable
        cases hnested
        exact ⟨outer, .here outer, halways.opens hopens hnarrows⟩
  · rw [Guard.type_weaken, Guard.name_weaken]
    refine h.2.imp fun path other hbacked hnullable => ?_
    obtain ⟨last, hnested, halways⟩ := hbacked hnullable
    exact ⟨last, hnested.opens hopens, halways⟩

/-- Where a field does not select anything of a composite type, its shape has no entries. -/
theorem entries_selectedCore_plain (hschema : context.schema.Valid) {parent : NamedType}
    (hknown : context.schema.Knows parent) {name : String} {declared : OutputField}
    (hfound : parent.field? name = some declared) {expanding : List String}
    {inner : Option (List Selection)}
    (hplain : ∀ type, context.schema.get? declared.type.base = some type →
      type.isComposite = true → inner = none) :
    (selectedCore context expanding inner declared.type.base).value.entries = [] := by
  obtain ⟨type, hget, houtput⟩ := hschema.fieldTypes parent name declared hknown hfound
  cases hcomposite : type.isComposite with
  | false => exact (value_selectedCore_leaf hschema expanding inner hget houtput
      hcomposite).entries_eq_nil
  | true =>
      rw [hplain type hget hcomposite, selectedCore, hget]
      simp only [hcomposite, if_true]
      rfl

/-- Every entry that comes from a selection set is backed, and so is every entry inside it. -/
theorem Projected.backed (hschema : context.schema.Valid) {set : SelectionSet}
    {entry : Entry Shape} (h : Projected context set entry)
    (hknown : context.schema.Knows set.parent) :
    entry.Throughout (Entry.Backed context set) [] := by
  induction h with
  | @internal parent selections head inner mem internal =>
      refine ⟨fun _ => ⟨_, .here _, _, ⟨[], .field mem, ?_, by simp⟩, rfl⟩, ?_⟩
      · rw [SelectedField.isRequired, SelectedField.isInternal, internal, Bool.true_or]
      · exact Shape.throughout_iff.mpr (by simp [internalEntry, Shape.any, Shape.entries])
  | @plain parent selections head inner declared expanding mem ordinary found plain =>
      refine ⟨fun hnullable => ⟨_, .here _, _, ⟨[], .field mem, ?_, by simp⟩, rfl⟩, ?_⟩
      · simpa [SelectedField.isRequired, found] using Or.inr hnullable
      · rw [Shape.throughout_iff]
        intro entry hmem
        have hmem := Shape.mem_entries_of_mem_wrap hmem
        rw [entries_selectedCore_plain hschema hknown found plain] at hmem
        exact absurd hmem List.not_mem_nil
  | @composite parent type selections inner head declared entries mem ordinary found resolved
      composite projected ih =>
      refine ⟨fun hnullable => ⟨_, .here _, _, ⟨[], .field mem, ?_, by simp⟩, rfl⟩, ?_⟩
      · simpa [SelectedField.isRequired, found] using Or.inr hnullable
      · rw [Shape.throughout_iff]
        intro entry hmem
        -- paths inside the field begin with its key
        have hinner := ih entry (Shape.mem_entries_of_mem_wrap hmem) (Schema.knows_of_get? resolved)
        refine hinner.imp fun path other hbacked hnullable => ?_
        obtain ⟨last, hnested, halways⟩ := hbacked hnullable
        refine ⟨last, .field (.field mem) ?_ hnested, halways⟩
        exact SelectedField.innerSet?_eq_some.mpr ⟨declared, found, resolved, rfl⟩
  | behind opens projected ih => exact (ih (opens.knows hknown)).backed_weaken opens
  | merge left right name ihLeft ihRight =>
      exact Entry.Throughout.merge (fun _ _ _ hknown hentry => hknown.merge hentry) name
        (ihLeft hknown) (ihRight hknown)

/-! ### Runs -/

variable {given : String → Bool} {object : NamedType} {sets : Set SelectionSet}

/-- A field that a set always selects is collected wherever the set applies. -/
theorem AlwaysSelects.collects (hplain : PlainSelections context root)
    (hselections : ValidSelections context root) (happlies : Applies context root object sets)
    {path : List String} (hnested : ∀ set ∈ sets, Nested context root path set)
    {set : SelectionSet} (hset : set ∈ sets) {field : SelectedField}
    (h : AlwaysSelects context set field) : Collects context given object sets field := by
  obtain ⟨guards, hselects, -, hnarrows⟩ := h
  refine (happlies.collects_iff hplain hselections hnested).mpr ⟨set, hset, guards, hselects, ?_⟩
  intro guard hmem hguard
  exact absurd hguard (by simp [hnarrows guard hmem])

/-- A required field has a type that is never null, but for the field that looks up a type by
name. -/
theorem SelectedField.Valid.isNonNull {schema : Schema} {field : SelectedField}
    (h : field.Valid schema) (hrequired : field.isRequired = true)
    (hname : field.head.name ≠ "__type") :
    ∃ type, field.type? = some type ∧ type.isNonNull = true := by
  cases h with
  | @ordinary declared core name found =>
      refine ⟨declared.type, SelectedField.type?_of_ordinary name found, ?_⟩
      simpa [SelectedField.isRequired, name, found] using hrequired
  | typeName name => exact ⟨_, SelectedField.type?_of_typeName name, rfl⟩
  | introspection name =>
      refine ⟨.nonNull (.named "__Schema"), ?_, rfl⟩
      rw [SelectedField.type?, name.resolve_right hname, NamedType.fieldType?,
        if_pos isInternal_schema]
      rfl

theorem isNonNull_of_sameWrappers {type other : TypeRef} (h : type.sameWrappers other = true)
    (htype : type.isNonNull = true) : other.isNonNull = true := by
  cases type with
  | named | list => exact absurd htype (by simp [TypeRef.isNonNull])
  | nonNull inner =>
      cases other with
      | nonNull => rfl
      | named | list => simp [TypeRef.sameWrappers] at h

/-- Where some field has a type that is never null, every field that is collected there has such a
type on its object. -/
theorem Applies.isNonNull (happlies : Applies context root object sets)
    (hschema : context.schema.Valid) (hselections : ValidSelections context root)
    {location : List String} {field other : SelectedField} {type : TypeRef}
    (hoccurs : Occurs context root location field) (htype : field.type? = some type)
    (hnonNull : type.isNonNull = true) (hother : Occurs context root location other)
    (hcollects : Collects context given object sets other) :
    ∃ type, object.fieldType? other.head.name = some type ∧ type.isNonNull = true := by
  obtain ⟨left, right, hleft, hright, hsame, -⟩ :=
    hselections.forms location field other hoccurs hother
  rw [htype, Option.some.injEq] at hleft
  obtain ⟨own, hown, hsub⟩ := happlies.fieldType? hschema hcollects hright
  exact ⟨own, hown, hsub.isNonNull (isNonNull_of_sameWrappers hsame (hleft ▸ hnonNull))⟩

/-! ### What the entries promise -/

/-- Whatever objects go some way along a path, they go a way to a set that always selects the key:
each guard that narrows there is passed by those that come along the path at all. -/
def Unavoidable (context : SelectionContext) (root : SelectionSet) (path : List String)
    (key : String) : Prop :=
  ∀ objects : List NamedType,
    (∀ object ∈ objects, context.schema.Knows object ∧ object.isObject = true) →
      (∃ way set, Way context root path way set ∧ PassedBy objects way) →
        ∃ way set, Way context root path way set ∧ PassedBy objects way ∧
          SelectsAlways context set key

/-- What is true of a key whose entry is never absent. -/
structure Guaranteed (context : SelectionContext) (root : SelectionSet) (path : List String)
    (key : String) : Prop where
  /-- Some set along the path selects the key for every object. -/
  selected : ∃ way set, Way context root path way set ∧ SelectsAlways context set key
  /-- In every run that applies such a set its field is collected, and no other field has the
  key. -/
  collected : ∀ given object sets, Executes context given root path object sets →
    ∀ set ∈ sets, ∀ field, AlwaysSelects context set field → field.key = key →
      Collects context given object sets field ∧
        ∀ other, Collects context given object sets other → other.key = key →
          other.head.name = field.head.name
  /-- Every run applies such a set if no objects can avoid all of them. -/
  applied : Unavoidable context root path key →
    ∀ given object sets, Executes context given root path object sets →
      ∃ set ∈ sets, SelectsAlways context set key
  /-- None can if no guard on the way to one of them narrows. -/
  unavoidable : ∀ way set, Way context root path way set → SelectsAlways context set key →
    (∀ guards ∈ way, ∀ guard ∈ guards, guard.narrows = false) → Unavoidable context root path key
  /-- Whatever field of the key is collected, its type is never null, unless the type of a name is
  looked up there. -/
  nonNull : ∀ set field, Nested context root path set → AlwaysSelects context set field →
    field.key = key → field.head.name ≠ "__type" →
      ∀ given object sets, Executes context given root path object sets →
        ∀ other, Collects context given object sets other → other.key = key →
          ∃ type, object.fieldType? other.head.name = some type ∧ type.isNonNull = true

/-- No objects avoid a set behind guards that do not narrow. -/
theorem Way.unavoidable {path : List String} {way : List (List Guard)} {set : SelectionSet}
    {key : String} (h : Way context root path way set) (halways : SelectsAlways context set key)
    (hplain : ∀ guards ∈ way, ∀ guard ∈ guards, guard.narrows = false) :
    Unavoidable context root path key := by
  rintro objects - ⟨other, _, hother, hpassed⟩
  have hlength : objects.length = path.length := hpassed.length_eq.trans hother.length_eq
  exact ⟨way, set, h, h.passedBy hplain hlength, halways⟩

/-- A key is guaranteed where some set along the path always selects it. -/
theorem Nested.guaranteed (hschema : context.schema.Valid)
    (hselections : ValidSelections context root) (hplain : PlainSelections context root)
    (hknown : context.schema.Knows root.parent) (hisObject : root.parent.isObject = true)
    {path : List String} {set : SelectionSet} {key : String}
    (h : Nested context root path set) (halways : SelectsAlways context set key) :
    Guaranteed context root path key := by
  obtain ⟨way, hway⟩ := Way.of_nested h
  refine ⟨⟨way, set, hway, halways⟩, ?collected, ?applied, fun _ _ => Way.unavoidable, ?nonNull⟩
  case collected =>
    rintro given object sets hruns set hset field hfield rfl
    have happlies := hruns.applies hschema hselections hknown hisObject
    have hcollects : Collects context given object sets field :=
      hfield.collects hplain hselections happlies hruns.nested hset
    exact ⟨hcollects, fun other hother => happlies.name_eq hselections hother hcollects⟩
  case applied =>
    intro hunavoidable given object sets hruns
    obtain ⟨objects, hobjects, hsets⟩ :=
      hruns.exists_objects hschema hselections hplain hknown hisObject
    -- something is selected on the object, so its way is passed
    obtain ⟨other, hother⟩ := hruns.nonempty hschema hselections hknown hisObject
    obtain ⟨way, hway, hpassed⟩ := (hsets other).mp hother
    obtain ⟨way, set, hway, hpassed, halways⟩ :=
      hunavoidable objects hobjects ⟨way, other, hway, hpassed⟩
    exact ⟨set, (hsets set).mpr ⟨way, hway, hpassed⟩, halways⟩
  case nonNull =>
    rintro set field hset ⟨guards, hselects, hrequired, -⟩ rfl hname given object sets hruns other
      hcollects hkey
    have hoccurs := hset.occurs hselects
    obtain ⟨type, htype, hnonNull⟩ :=
      (hselections.fields _ field hoccurs).isNonNull hrequired hname
    exact (hruns.applies hschema hselections hknown hisObject).isNonNull hschema hselections
      hoccurs htype hnonNull (hkey ▸ hruns.occurs hcollects) hcollects

end

/-- **Keys that are never absent.** Over a valid schema, take a valid operation that does not skip
or include anything on conditions. Where the shape of its data has an entry that is never absent,
its key is guaranteed: some selection set along the path selects it for every object, and every run
that applies such a set collects it. That is every run, unless a guard that narrows stands before a
field around each of these sets and objects that come along the path another way do not pass it.
And the type of what is collected is never null, unless a type is looked up by name there. -/
theorem required_keys_collected (context : SelectionContext) (operation : Operation)
    (start : NamedType) (hschema : context.schema.Valid)
    (hoperation : ValidOperation context operation start)
    (hplain : PlainSelections context ⟨start, operation.selections⟩) :
    ∃ data notices,
      responseShape context (.operation operation) = ⟨answerShape data, notices, none⟩ ∧
        ∀ path key, data.Requires path key →
          Guaranteed context ⟨start, operation.selections⟩ path key := by
  obtain ⟨data, notices, hresponse, hentries⟩ := responseShape_operation hschema hoperation.root
  refine ⟨data, notices, hresponse, fun path key hrequires => ?_⟩
  obtain ⟨hknown, hisObject⟩ := hschema.start hoperation.root
  have hbacked : data.Throughout (Entry.Backed context ⟨start, operation.selections⟩) [] := by
    rw [Shape.throughout_iff, hentries]
    refine Entry.Throughout.mergeEntries (fun _ _ _ hknown hentry => hknown.merge hentry) ?_
    intro entry hmem
    have hprojected := contributions_projected context [] start operation.selections entry hmem
    exact hprojected.backed hschema hknown
  obtain ⟨outer, entry, houter, hmem, rfl, hnullable⟩ := hrequires
  obtain ⟨set, hnested, halways⟩ := hbacked path outer entry houter hmem hnullable
  exact hnested.guaranteed hschema hoperation.selections hplain hknown hisObject halways

namespace PageSchema

theorem plainSelections : PlainSelections context root := by
  have hcheck : ((occurrences schema [] query operation.selections).all fun occurrence =>
      occurrence.field.head.directives.isEmpty &&
        occurrence.guards.all (·.directives.isEmpty)) = true := by decide
  simp only [List.all_eq_true, Bool.and_eq_true, List.isEmpty_iff] at hcheck
  intro path set guards field hnested hselects
  obtain ⟨hfield, hguards⟩ := hcheck _ (hnested.mem_occurrences rfl hselects)
  refine ⟨fun directive hmem => ?_, fun guard hguard directive hmem => ?_⟩
  · exact absurd (hfield ▸ hmem) List.not_mem_nil
  · exact absurd (hguards guard hguard ▸ hmem) List.not_mem_nil

/-- The keys that are never absent from the answers about pages and their owners. -/
theorem operation_keys_collected :
    ∃ data notices,
      responseShape context (.operation operation) = ⟨answerShape data, notices, none⟩ ∧
        ∀ path key, data.Requires path key → Guaranteed context root path key :=
  required_keys_collected context operation query schema_valid validOperation plainSelections

/-- The mail of the owner is selected for pages only, but it is said to be never absent: merging
takes it into the object that all nodes have. And the type that is looked up by name is said to be
never null. -/
theorem mail_and_type_required :
    schema.Valid ∧ ValidOperation context operation query ∧ PlainSelections context root ∧
      responseShape context (.operation operation) = ⟨answerShape data, [], none⟩ ∧
      (data.Requires ["node", "owner"] "mail" ∧
        ∃ object sets, Executes context given root ["node", "owner"] object sets ∧
          ∀ field, Collects context given object sets field → field.key ≠ "mail") ∧
      data.Requires [] "__type" ∧
        ∃ object sets field, Executes context given root [] object sets ∧
          Collects context given object sets field ∧ field.key = "__type" ∧
            object.fieldType? field.head.name = some (.named "__Type") := by
  have hrequires : data.Requires ["node", "owner"] "mail" := by
    refine ⟨.object [text "name", text "mail"] none, text "mail", ?_, ?_, rfl, rfl⟩
    · simp [data, Shape.entries]
    · simp [Shape.entries]
  have hquery : Executes context given root ["node"] query nodeSets := executes_node rfl rfl rfl
  have howner : Collects context given query nodeSets ⟨node, head "owner", some names⟩ :=
    ⟨_, mem_nodeSets, [], .field List.mem_cons_self, by simp, rfl⟩
  have hexecutes : Executes context given root ["node", "owner"] owner
      (collectedSets context given query nodeSets "owner") :=
    .field hquery howner rfl rfl rfl rfl rfl
  -- the sets that the query applies to its owner select no mail
  have hcheck : ((occurrences schema [] query operation.selections).all fun outer =>
      outer.location != ["node"] || (outer.field.innerSet? schema).all fun set =>
        (occurrences schema [] set.parent set.selections).all fun middle =>
          middle.location != ["owner"] || !middle.guards.all (·.admits given query) ||
            (middle.field.innerSet? schema).all fun set =>
              (occurrences schema [] set.parent set.selections).all fun inner =>
                inner.location != ["mail"]) = true := by decide
  simp only [List.all_eq_true, Bool.or_eq_true, Option.all_eq_true, bne_iff_ne, ne_eq,
    Bool.not_eq_true'] at hcheck
  refine ⟨schema_valid, validOperation, plainSelections, responseShape_eq,
    ⟨hrequires, owner, _, hexecutes, ?_⟩, ?_⟩
  · rintro field ⟨set, ⟨middle, ⟨nodeSet, ⟨outer, ⟨_, rfl, outerGuards, houter, -⟩, houterKey,
      hnodeSet⟩, middleGuards, hmiddle, hadmits, -⟩, hmiddleKey, hset⟩, guards, hselects, -⟩ hkey
    have hmiddleCheck := (hcheck _ ((Nested.here root).mem_occurrences rfl houter)).resolve_left
      (by simp [houterKey]) nodeSet hnodeSet _ ((Nested.here nodeSet).mem_occurrences rfl hmiddle)
    have hadmitted : middleGuards.all (·.admits given query) ≠ false := by
      simpa [List.all_eq_true] using hadmits
    have hinner := hmiddleCheck.resolve_left (by simp [hmiddleKey, hadmitted]) set hset _
      ((Nested.here set).mem_occurrences rfl hselects)
    exact hinner (by simp [hkey])
  · refine ⟨?_, query, {root}, ⟨query, ⟨none, "__type", [⟨"name", .string "Owner" false⟩], []⟩,
      some names⟩, .root, ?_, rfl, ?_⟩
    · exact ⟨data, internalEntry "__type", .here _, by simp [data, Shape.entries], rfl, rfl⟩
    · exact ⟨root, rfl, [], .field (List.mem_cons_of_mem _ List.mem_cons_self), by simp, rfl⟩
    · rw [NamedType.fieldType?, if_pos isInternal_type]
      rfl

end PageSchema

end OperationLibrary
