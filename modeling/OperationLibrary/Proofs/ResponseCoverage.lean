import Mathlib.Data.List.Infix
import OperationLibrary.Proofs.ValidProjection
import OperationLibrary.Proofs.ValidityCheck

/-!
The projected data covers every response. Fields that are selected at one location have one form,
and merging keeps it, so whatever execution collects has a place in the shape of the data, with
lists, objects and leaves where they belong. Only where a field that describes the schema selects
something, the shape is open and merging may drop what other fields select there.
-/

namespace OperationLibrary

open Syntax

section

variable {context : SelectionContext} {root : SelectionSet}

/-- What it takes for selections to be covered: the schema and the selections are valid, no field
has too many wrappers, and no fragment leads back to itself. -/
structure Coverable (context : SelectionContext) (root : SelectionSet) : Prop where
  schema : context.schema.Valid
  wrappers : context.schema.WrappersWithin wrapperLimit
  known : context.schema.Knows root.parent
  selections : ValidSelections context root
  acyclic : context.fragments.Acyclic

/-! ### Forms of locations -/

/-- A field that describes the schema selects something at a location. -/
def Opened (context : SelectionContext) (root : SelectionSet) (location : List String) : Prop :=
  ∃ field, Occurs context root location field ∧ field.isInternal = true ∧
    field.inner.isSome = true

/-- A field at a location that is not open answers with values of some form. -/
def FormAt (context : SelectionContext) (root : SelectionSet) (location : List String)
    (composite : Bool) (type : TypeRef) : Prop :=
  ¬ Opened context root location ∧
    ∃ field, Occurs context root location field ∧ field.type? = some type ∧
      field.inner.isSome = composite

theorem Shape.HasForm.of_sameWrappers {composite : Bool} {type other : TypeRef} {shape : Shape}
    (h : shape.HasForm composite type) (hsame : type.sameWrappers other = true) :
    shape.HasForm composite other := by
  induction type generalizing other shape with
  | named name =>
      cases other with
      | named => cases shape <;> exact h
      | list | nonNull => simp [TypeRef.sameWrappers] at hsame
  | list item ih =>
      cases other with
      | list other =>
          cases shape with
          | list shape _ => exact @ih other shape h hsame
          | scalar | enum | object => exact h.elim
      | named | nonNull => simp [TypeRef.sameWrappers] at hsame
  | nonNull inner ih =>
      cases other with
      | nonNull other => exact @ih other shape h hsame
      | named | list => simp [TypeRef.sameWrappers] at hsame

/-- A type that may stand for another one gives the same form. -/
theorem Shape.HasForm.of_subtype {schema : Schema} {composite : Bool} {type other : TypeRef}
    {shape : Shape} (h : shape.HasForm composite other) (hsub : schema.Subtype type other) :
    shape.HasForm composite type := by
  induction hsub generalizing shape with
  | same | implements | member => cases shape <;> exact h
  | list _ ih =>
      cases shape with
      | list shape _ => exact ih h
      | scalar | enum | object => exact h.elim
  | nonNull _ ih => exact ih h
  | stricter _ ih => exact ih h

/-- One field of a location decides about the forms there, for all its fields have one form. -/
theorem Occurs.formed (hselections : ValidSelections context root) {location : List String}
    {field : SelectedField} (hoccurs : Occurs context root location field) {shape : Shape}
    (h : ¬ Opened context root location →
      ∃ type, field.type? = some type ∧ shape.HasForm field.inner.isSome type) :
    shape.Formed (FormAt context root) location := by
  rintro composite type ⟨hclosed, other, hother, htype, rfl⟩
  obtain ⟨own, hown, hform⟩ := h hclosed
  obtain ⟨left, right, hleft, hright, hsame, hinner, -⟩ :=
    hselections.forms location field other hoccurs hother
  rw [hown, Option.some.injEq] at hleft
  rw [htype, Option.some.injEq] at hright
  subst hleft hright
  exact hinner ▸ hform.of_sameWrappers hsame

/-! ### Selections at a path -/

/-- What a selection set selects occurs at the keys behind a path. -/
def SelectsAt (context : SelectionContext) (root : SelectionSet) (path : List String)
    (set : SelectionSet) : Prop :=
  ∀ guards field, Selects context set guards field →
    Occurs context root (path ++ [field.key]) field

theorem Nested.selectsAt {path : List String} {set : SelectionSet}
    (h : Nested context root path set) : SelectsAt context root path set :=
  fun _ _ hselects => h.occurs hselects

theorem SelectsAt.opens {path : List String} {outer inner : SelectionSet} {guard : Guard}
    (h : SelectsAt context root path outer) (hopens : Opens context outer guard inner) :
    SelectsAt context root path inner :=
  fun guards field hselects => h (guard :: guards) field (.behind hopens hselects)

/-- What a field selects occurs behind its key. -/
theorem Occurs.selectsAt {location : List String} {field : SelectedField} {set : SelectionSet}
    (h : Occurs context root location field) (hinner : field.innerSet? context.schema = some set) :
    SelectsAt context root location set := by
  obtain ⟨path, outer, guards, rfl, hnested, hselects⟩ := h
  exact (hnested.concat hselects hinner).selectsAt

theorem Occurs.knows {location : List String} {field : SelectedField}
    (h : Occurs context root location field) (hroot : context.schema.Knows root.parent) :
    context.schema.Knows field.parent := by
  obtain ⟨path, outer, guards, -, hnested, hselects⟩ := h
  exact hselects.knows (hnested.knows hroot)

/-! ### Every entry fits its location -/

/-- An entry has the form of its location, and it is open if only fields that describe the schema
are selected there. -/
def Entry.Fits (context : SelectionContext) (root : SelectionSet) (path : List String)
    (entry : Entry Shape) : Prop :=
  entry.Formed (FormAt context root) path ∧
    ((∀ field, Occurs context root (path ++ [entry.name]) field → field.isInternal = true) →
      entry.type = .any)

theorem Entry.Fits.merge {path : List String} {known entry : Entry Shape}
    (hknown : known.Fits context root path) (hentry : entry.Fits context root path)
    (hname : known.name = entry.name) : (known.merge entry).Fits context root path := by
  refine ⟨hknown.1.merge hentry.1 hname, fun hinternal => ?_⟩
  rw [Entry.merge, hentry.2 hinternal, Shape.any, Shape.merge]
  exact hknown.2 (hname ▸ hinternal)

theorem Entry.Throughout.weaken {path : List String} {entry : Entry Shape} (guard : Guard)
    (h : entry.Throughout (Entry.Fits context root) path) :
    (guard.weaken entry).Throughout (Entry.Fits context root) path := by
  simpa [Entry.Throughout, Entry.Fits, Entry.Formed] using h

/-- A field that describes the schema gives an open shape, which has the form of the field unless
the field selects something. -/
theorem Occurs.formed_any (hselections : ValidSelections context root) {location : List String}
    {field : SelectedField} (hoccurs : Occurs context root location field)
    (hinternal : field.isInternal = true) :
    Shape.any.Formed (FormAt context root) location := by
  refine hoccurs.formed hselections fun hclosed => ?_
  cases hselections.fields location field hoccurs with
  | ordinary name => simp [hinternal] at name
  | typeName name inner =>
      rw [inner]
      exact ⟨_, SelectedField.type?_of_typeName name, rfl⟩
  | introspection _ _ inner => exact absurd ⟨field, hoccurs, hinternal, inner⟩ hclosed

/-- The entry that an ordinary field makes fits if the shape at the core has the form of the field
and what is inside fits. -/
theorem Occurs.fits (hselections : ValidSelections context root) {path : List String}
    {field : SelectedField} (hoccurs : Occurs context root (path ++ [field.key]) field)
    {declared : OutputField} (hordinary : field.isInternal = false)
    (hfound : field.parent.field? field.head.name = some declared)
    (hlimit : declared.type.wrappers ≤ wrapperLimit) {core : Shape}
    (hcore : core.HasForm field.inner.isSome (.named declared.type.base))
    (hentries : ∀ entry ∈ core.entries,
      entry.Throughout (Entry.Fits context root) (path ++ [field.key])) :
    Entry.Throughout (Entry.Fits context root) path
      ⟨field.key, core.wrap 0 declared.type, !declared.type.isNonNull, declared.description⟩ := by
  refine ⟨⟨hoccurs.formed hselections fun _ => ?_, fun hinternal => ?_⟩, ?_⟩
  · exact ⟨_, SelectedField.type?_of_ordinary hordinary hfound, hcore.wrap hlimit⟩
  · exact absurd (hinternal field hoccurs) (by simp [hordinary])
  · rw [Shape.throughout_iff]
    exact fun entry hmem => hentries entry (Shape.mem_entries_of_mem_wrap hmem)

/-- Every entry that comes from a selection set fits its location, and so does every entry inside
it. -/
theorem Projected.fits (hvalid : Coverable context root) {set : SelectionSet}
    {entry : Entry Shape} (h : Projected context set entry) {path : List String}
    (hat : SelectsAt context root path set) :
    entry.Throughout (Entry.Fits context root) path := by
  induction h generalizing path with
  | @internal parent selections head inner mem internal =>
      have hoccurs := hat [] ⟨parent, head, inner⟩ (.field mem)
      refine ⟨⟨hoccurs.formed_any hvalid.selections internal, fun _ => rfl⟩, ?_⟩
      exact Shape.throughout_iff.mpr (by simp [internalEntry, Shape.any, Shape.entries])
  | @plain parent selections head inner declared expanding mem ordinary found plain =>
      have hoccurs := hat [] ⟨parent, head, inner⟩ (.field mem)
      have hknown := hoccurs.knows hvalid.known
      obtain ⟨type, hget, houtput⟩ :=
        hvalid.schema.fieldTypes parent head.name declared hknown found
      -- of a composite type something would be selected
      obtain ⟨hcomposite, hinner⟩ : type.isComposite = false ∧ inner.isSome = false := by
        have hisSome :=
          (hvalid.selections.fields _ _ hoccurs).inner_isSome ordinary found hget
        cases hcomposite : type.isComposite with
        | false => exact ⟨rfl, hisSome.trans hcomposite⟩
        | true => simp [plain type hget hcomposite, hcomposite] at hisSome
      have hcore := value_selectedCore_leaf hvalid.schema expanding inner hget houtput hcomposite
      refine Occurs.fits hvalid.selections hoccurs ordinary found
        (hvalid.wrappers parent head.name declared hknown found) (hinner ▸ hcore) ?_
      simp [hcore.entries_eq_nil]
  | @composite parent type selections inner head declared entries mem ordinary found resolved
      composite projected ih =>
      have hoccurs := hat [] ⟨parent, head, some inner⟩ (.field mem)
      have hset : SelectedField.innerSet? context.schema ⟨parent, head, some inner⟩ =
          some ⟨type, inner⟩ :=
        SelectedField.innerSet?_eq_some.mpr ⟨declared, found, resolved, rfl⟩
      refine Occurs.fits hvalid.selections hoccurs ordinary found
        (hvalid.wrappers parent head.name declared (hoccurs.knows hvalid.known) found) rfl ?_
      exact fun entry hmem => ih entry hmem (hoccurs.selectsAt hset)
  | behind opens projected ih => exact (ih (hat.opens opens)).weaken _
  | merge left right name ihLeft ihRight =>
      exact Entry.Throughout.merge (fun _ _ _ hknown hentry => hknown.merge hentry) name
        (ihLeft hat) (ihRight hat)

/-! ### Every selected key has a place -/

theorem Carries.mono {entries others : List (Entry Shape)} {path : List String}
    (h : Carries entries path) (hsub : ∀ entry ∈ entries, entry ∈ others) :
    Carries others path := by
  cases path with
  | nil => trivial
  | cons key path =>
      obtain ⟨entry, hmem, hentry⟩ := h
      exact ⟨entry, hsub entry hmem, hentry⟩

theorem Carries.weaken {entries : List (Entry Shape)} {path : List String} (guard : Guard)
    (h : Carries entries path) : Carries (entries.map guard.weaken) path := by
  cases path with
  | nil => trivial
  | cons key path =>
      obtain ⟨entry, hmem, hentry⟩ := h
      exact ⟨guard.weaken entry, List.mem_map_of_mem hmem, by simpa using hentry⟩

theorem Nested.exists_occurs {set last : SelectionSet} {start path : List String}
    (h : Nested context set path last) (hset : Nested context root start set)
    {outer rest : List String} (hpath : path = outer ++ rest) (houter : outer ≠ []) :
    ∃ field next, Occurs context root (start ++ outer) field ∧
      field.innerSet? context.schema = some next := by
  induction h generalizing start outer with
  | here => simp_all
  | @field set next last guards field path selects inner nested ih =>
      cases outer with
      | nil => contradiction
      | cons key outer =>
          rw [List.cons_append, List.cons.injEq] at hpath
          obtain ⟨rfl, hpath⟩ := hpath
          cases outer with
          | nil => exact ⟨field, next, hset.occurs selects, inner⟩
          | cons key' outer =>
              simpa using ih (hset.concat selects inner) hpath (by simp)

section

variable (hvalid : Coverable context root)

include hvalid

theorem contributions_formed (expanding : List String) {set : SelectionSet} {path : List String}
    (hat : SelectsAt context root path set) :
    ∀ entry ∈ (contributions context expanding set.parent set.selections).value,
      entry.Throughout (Entry.Formed (FormAt context root)) path := by
  intro entry hmem
  have hprojected := contributions_projected context expanding set.parent set.selections entry hmem
  exact (hprojected.fits hvalid hat).imp fun _ _ h => h.1

theorem contributions_carries_merged (expanding : List String) {set : SelectionSet}
    {start path : List String} (hat : SelectsAt context root start set)
    (hpath : ObjectsAlong (FormAt context root) start path)
    (h : Carries (contributions context expanding set.parent set.selections).value path) :
    Carries (mergeEntries [] (contributions context expanding set.parent set.selections).value)
      path :=
  Carries.mergeEntries (by simp)
    (contributions_formed hvalid expanding hat) hpath (.inr h)

/-- What the entry of a field carries, the projection of a selection set carries that selects the
field. -/
theorem Selects.carries {set : SelectionSet} {guards : List Guard} {field : SelectedField}
    (h : Selects context set guards field) {expanding : List String}
    (hexpand : MayExpand context.fragments expanding set.selections) {start path : List String}
    (hat : SelectsAt context root start set)
    (hpath : ObjectsAlong (FormAt context root) start path)
    (hown : ∀ inside, MayExpand context.fragments inside (field.inner.getD []) →
      Carries (contribution context inside field.parent (.field field.head field.inner)).value
        path) :
    Carries (contributions context expanding set.parent set.selections).value path := by
  induction h generalizing expanding with
  | @field parent selections head inner mem =>
      have hinner : MayExpand context.fragments expanding (inner.getD []) := by
        refine hexpand.mono fun name hname => mem_spreadNames_of_mem mem ?_
        cases inner with
        | none => simp [spreadNames] at hname
        | some inner => exact hname
      exact (hown expanding hinner).mono fun entry => mem_contributions mem
  | @behind outer inner guard guards field opens selects ih =>
      obtain ⟨inside, selection, hmem, hinside, hvalue⟩ :=
        opens.exists_contribution hvalid.acyclic hexpand
      -- the entries of the fragment are merged with one another before those around it
      have hat := hat.opens opens
      have hmerged := contributions_carries_merged hvalid inside hat
        hpath (ih hinside hat hown)
      have hcarries := hmerged.weaken guard
      rw [← hvalue] at hcarries
      exact hcarries.mono fun entry => mem_contributions hmem

/-- A field makes an entry with its key. -/
theorem Occurs.carries_key {location : List String} {field : SelectedField}
    (h : Occurs context root location field) (expanding : List String) :
    Carries (contribution context expanding field.parent (.field field.head field.inner)).value
      [field.key] := by
  cases hinternal : field.isInternal with
  | true =>
      rw [contribution_internal _ _ _ _ hinternal]
      exact ⟨internalEntry field.key, List.mem_singleton_self _, rfl, _, .here _⟩
  | false =>
      obtain ⟨declared, -, hfound, -⟩ :=
        (hvalid.selections.fields location field h).of_ordinary hinternal
      rw [value_contribution_field _ _ hinternal hfound]
      exact ⟨_, List.mem_singleton_self _, rfl, _, .here _⟩

/-- Selections carry every path that fields select one inside the other. -/
theorem Nested.carries {set last : SelectionSet} {path : List String} {guards : List Guard}
    {field : SelectedField} (h : Nested context set path last)
    (hselects : Selects context last guards field) {expanding : List String}
    (hexpand : MayExpand context.fragments expanding set.selections) {start : List String}
    (hat : SelectsAt context root start set)
    (hpath : ObjectsAlong (FormAt context root) start (path ++ [field.key])) :
    Carries (contributions context expanding set.parent set.selections).value
      (path ++ [field.key]) := by
  induction h generalizing start expanding with
  | here set =>
      refine hselects.carries hvalid hexpand hat hpath ?_
      exact fun inside _ => (hat guards field hselects).carries_key hvalid inside
  | @field set next last outerGuards outer path selects inner nested ih =>
      refine selects.carries hvalid hexpand hat hpath ?_
      intro inside hinside
      have hoccurs := hat outerGuards outer selects
      obtain ⟨declared, hfound, hget, hinner⟩ := SelectedField.innerSet?_eq_some.mp inner
      -- a field that describes the schema would open the place
      have hordinary : outer.isInternal = false := by
        obtain ⟨_, hclosed, -⟩ := hpath [outer.key] (path ++ [field.key]) rfl (by simp) (by simp)
        by_contra hinternal
        exact hclosed ⟨outer, hoccurs, by simpa using hinternal, by simp [hinner]⟩
      have hcomposite : next.parent.isComposite = true := by
        rw [← (hvalid.selections.fields _ _ hoccurs).inner_isSome hordinary hfound hget, hinner]
        rfl
      have hlimit := hvalid.wrappers outer.parent outer.head.name declared
        (hoccurs.knows hvalid.known) hfound
      rw [hinner] at hinside
      rw [value_contribution_field _ _ hordinary hfound, hinner,
        value_selectedCore_composite _ _ hget hcomposite]
      refine ⟨_, List.mem_singleton_self _, rfl, Shape.exists_leads_iff.mpr ?_⟩
      rw [Shape.entries_wrap hlimit]
      have hat := hoccurs.selectsAt inner
      exact contributions_carries_merged hvalid inside hat hpath.tail
        (ih hselects hinside hat hpath.tail)

end

end

/-! ### Responses -/

/-- What the shape of the data says about a field that is collected on an object at the end of a
path: it has a place for the key, if the places around it are not open; the place has the form of
the field, if it is not open; and where only fields that describe the schema have the key, its shape
is that of anything. -/
structure Covers (context : SelectionContext) (root : SelectionSet) (data : Shape)
    (path : List String) (object : NamedType) (field : SelectedField) : Prop where
  place : (∀ outer, outer <+: path → outer ≠ [] → ¬ Opened context root outer) →
    ∃ shape, data.Leads (path ++ [field.key]) shape
  form : ∀ shape, data.Leads (path ++ [field.key]) shape →
    ¬ Opened context root (path ++ [field.key]) →
      ∃ type, object.fieldType? field.head.name = some type ∧
        shape.HasForm field.inner.isSome type
  any : ∀ shape, data.Leads (path ++ [field.key]) shape →
    (∀ other, Occurs context root (path ++ [field.key]) other → other.isInternal = true) →
      shape = .any

/-- Every path that selections go along without coming to an open place goes through objects. -/
theorem Nested.objectsAlong {context : SelectionContext} {root set : SelectionSet}
    {path : List String} (h : Nested context root path set) (key : String)
    (hclosed : ∀ outer, outer <+: path → outer ≠ [] → ¬ Opened context root outer) :
    ObjectsAlong (FormAt context root) [] (path ++ [key]) := by
  intro outer rest hpath houter hrest
  obtain ⟨rest, last, rfl⟩ := (List.eq_nil_or_concat rest).resolve_left hrest
  rw [List.concat_eq_append, ← List.append_assoc] at hpath
  -- the key at the end is not gone through
  have hpath := (List.append_inj' hpath rfl).1
  obtain ⟨field, next, hoccurs, hnext⟩ := h.exists_occurs (.here root) hpath houter
  obtain ⟨declared, hfound, -, hinner⟩ := SelectedField.innerSet?_eq_some.mp hnext
  have hopen := hclosed outer ⟨rest, hpath.symm⟩ houter
  cases hinternal : field.isInternal with
  | true => exact absurd ⟨field, hoccurs, hinternal, by simp [hinner]⟩ hopen
  | false =>
      exact ⟨declared.type, hopen, field, hoccurs,
        SelectedField.type?_of_ordinary hinternal hfound, by simp [hinner]⟩

/-- **The projected data covers every response.** Over a valid schema whose fields have no more
wrappers than a projection goes through, a valid operation has a shape for its answers, and whatever
a run of the operation collects is covered by the shape of the data. -/
theorem responseShape_covers (context : SelectionContext) (operation : Operation)
    (start : NamedType) (hschema : context.schema.Valid)
    (hwrappers : context.schema.WrappersWithin wrapperLimit)
    (hoperation : ValidOperation context operation start) :
    ∃ data notices,
      responseShape context (.operation operation) = ⟨answerShape data, notices, none⟩ ∧
        ∀ given path object sets field,
          Executes context given ⟨start, operation.selections⟩ path object sets →
            Collects context given object sets field →
              Covers context ⟨start, operation.selections⟩ data path object field := by
  obtain ⟨data, notices, hresponse, hentries⟩ := responseShape_operation hschema hoperation.root
  refine ⟨data, notices, hresponse, fun given path object sets field hruns hcollects => ?_⟩
  obtain ⟨hknown, hisObject⟩ := hschema.start hoperation.root
  have hvalid : Coverable context ⟨start, operation.selections⟩ :=
    ⟨hschema, hwrappers, hknown, hoperation.selections, hoperation.acyclic⟩
  have hat : SelectsAt context ⟨start, operation.selections⟩ [] ⟨start, operation.selections⟩ :=
    (Nested.here _).selectsAt
  have happlies := hruns.applies hschema hoperation.selections hknown hisObject
  have ⟨set, hset, guards, hselects, _⟩ := hcollects
  have hnested := hruns.nested set hset
  have hoccurs := hnested.occurs hselects
  have hfits : data.Throughout (Entry.Fits context ⟨start, operation.selections⟩) [] := by
    rw [Shape.throughout_iff, hentries]
    refine Entry.Throughout.mergeEntries (fun _ _ _ hknown hentry => hknown.merge hentry) ?_
    intro entry hmem
    exact (contributions_projected context [] start operation.selections entry hmem).fits hvalid hat
  refine ⟨fun hclosed => ?_, fun shape hleads hclosed => ?_, fun shape hleads hinternal => ?_⟩
  · have hpath := hnested.objectsAlong field.key hclosed
    rw [Shape.exists_leads_iff, hentries]
    exact contributions_carries_merged hvalid [] hat hpath
      (hnested.carries hvalid hselects (fun _ _ => List.not_mem_nil) hat hpath)
  · obtain ⟨outer, entry, houter, hmem, hname, rfl⟩ := Shape.leads_concat_iff.mp hleads
    obtain ⟨type, -, htype, -⟩ := hoperation.selections.forms _ field field hoccurs hoccurs
    obtain ⟨own, hown, hsub⟩ := happlies.fieldType? hschema hcollects htype
    have hform := (hfits path outer entry houter hmem).1 field.inner.isSome type
      ⟨by rwa [List.nil_append, hname], field, by rwa [List.nil_append, hname], htype, rfl⟩
    exact ⟨own, hown, hform.of_subtype hsub⟩
  · obtain ⟨outer, entry, houter, hmem, hname, rfl⟩ := Shape.leads_concat_iff.mp hleads
    exact (hfits path outer entry houter hmem).2 (by rwa [List.nil_append, hname])

namespace PageSchema

/-- The projection covers the operation on pages and their owners. -/
theorem operation_covered :
    ∃ data notices,
      responseShape context (.operation operation) = ⟨answerShape data, notices, none⟩ ∧
        ∀ given path object sets field, Executes context given root path object sets →
          Collects context given object sets field → Covers context root data path object field :=
  responseShape_covers context operation query schema_valid schema_wrappersWithin validOperation

/-- On pages the operation collects the mail of the owner under the key `x`, where a query would
describe the schema. The projection has no place for it, though no shape around it is open. -/
theorem mail_not_covered :
    schema.Valid ∧ schema.WrappersWithin wrapperLimit ∧ ValidOperation context operation query ∧
      responseShape context (.operation operation) = ⟨answerShape data, [], none⟩ ∧
      (∃ object sets field, Executes context given root ["node", "x"] object sets ∧
        Collects context given object sets field ∧
          ∀ shape, ¬ data.Leads (["node", "x"] ++ [field.key]) shape) ∧
      ∀ outer shape, outer <+: ["node", "x"] → data.Leads outer shape → shape ≠ .any := by
  have hpage : Executes context given root ["node"] page nodeSets := executes_node rfl rfl rfl
  have hname : Collects context given page nodeSets ⟨page, aliased "x" "owner", some names⟩ := by
    refine ⟨_, mem_nodeSets, [⟨node, some page, []⟩], ?_, List.forall_mem_singleton.mpr rfl, rfl⟩
    exact .behind (.inline (List.mem_cons_of_mem _ List.mem_cons_self) rfl)
      (.field (List.mem_cons_of_mem _ List.mem_cons_self))
  have hmail : Collects context given page nodeSets ⟨page, aliased "x" "owner", some mails⟩ := by
    refine ⟨_, mem_nodeSets, [⟨node, some node, []⟩, ⟨node, some page, []⟩], ?_,
      List.forall_mem_cons.mpr ⟨rfl, List.forall_mem_singleton.mpr rfl⟩, rfl⟩
    have hnode : Opens context ⟨node, nodeSelections⟩ ⟨node, some node, []⟩ _ :=
      .inline (List.mem_cons_of_mem _ (List.mem_cons_of_mem _ List.mem_cons_self)) rfl
    exact .behind hnode (.behind (.inline (List.mem_cons_of_mem _ List.mem_cons_self) rfl)
      (.field List.mem_cons_self))
  have hexecutes : Executes context given root ["node", "x"] owner
      (collectedSets context given page nodeSets "x") := .field hpage hname rfl rfl rfl rfl rfl
  have hcollects : Collects context given owner (collectedSets context given page nodeSets "x")
      ⟨owner, head "mail", none⟩ :=
    ⟨⟨owner, mails⟩, ⟨_, hmail, rfl, rfl⟩, [], .field List.mem_cons_self, by simp, rfl⟩
  refine ⟨schema_valid, schema_wrappersWithin, validOperation, responseShape_eq,
    ⟨owner, _, _, hexecutes, hcollects, fun shape hleads => ?_⟩,
    fun outer shape hprefix hleads => ?_⟩
  · simp [data, text, internalEntry, Shape.entries, SelectedField.key, head,
      FieldHead.responseKey] at hleads
  · rw [← List.mem_inits] at hprefix
    rcases (by simpa using hprefix : outer = [] ∨ outer = ["node"] ∨ outer = ["node", "x"]) with
      rfl | rfl | rfl
    all_goals
      simp [data, text, internalEntry, Shape.entries] at hleads
      simp [hleads, Shape.any]

end PageSchema

end OperationLibrary
