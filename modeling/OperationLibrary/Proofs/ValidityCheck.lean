import OperationLibrary.Proofs.FragmentExpansion
import OperationLibrary.Proofs.RunTypes

/-!
Deciding validity. The rules for schemas are checked type by type; the rules for selections are
checked on the list of all places where fields are selected, which is finite for selections that
spread no fragments.
-/

namespace OperationLibrary

open Syntax

/-! ### Schemas -/

theorem NamedType.mem_of_field? {type : NamedType} {name : String} {field : OutputField}
    (h : type.field? name = some field) :
    field ∈ type.outputFields?.getD [] ∧ field.name = name :=
  ⟨List.mem_of_find?_eq_some h, by simpa using List.find?_some h⟩

namespace Schema

variable {schema : Schema}

/-- Whether a type may stand where another one is promised. -/
def subtype (schema : Schema) : TypeRef → TypeRef → Bool
  | .named name, .named other =>
    name == other || (schema.get? name).any (·.declaredInterfaces.contains other) ||
      (schema.get? other).any fun type =>
        match type.content with
        | .union members => members.contains name
        | _ => false
  | .list item, .list other => schema.subtype item other
  | .nonNull inner, .nonNull other => schema.subtype inner other
  | .nonNull inner, other => schema.subtype inner other
  | _, _ => false

theorem Subtype.of_check {type other : TypeRef} (h : schema.subtype type other = true) :
    schema.Subtype type other := by
  induction type generalizing other with
  | named name =>
      cases other with
      | list | nonNull => simp [subtype] at h
      | named other =>
          simp only [subtype, Bool.or_eq_true, beq_iff_eq, Option.any_eq_true] at h
          rcases h with (rfl | ⟨type, hget, hdeclares⟩) | ⟨type, hget, hmember⟩
          · exact .same name
          · exact .implements hget (List.contains_iff_mem.mp hdeclares)
          · split at hmember
            · exact .member hget ‹_› (List.contains_iff_mem.mp hmember)
            · contradiction
  | list item ih =>
      cases other with
      | list other => exact .list (ih h)
      | named | nonNull => simp [subtype] at h
  | nonNull inner ih =>
      cases other with
      | nonNull other => exact .nonNull (ih h)
      | named | list => exact .stricter (ih h)

/-- Whether a type gives an interface what it owes to it. -/
def keeps (schema : Schema) (type interface : NamedType) : Bool :=
  match interface.content with
  | .interface interfaces fields =>
    interfaces.all type.declaredInterfaces.contains && fields.all fun promised =>
      (type.field? promised.name).any fun own => schema.subtype own.type promised.type
  | _ => false

theorem Keeps.of_check {type interface : NamedType} (h : schema.keeps type interface = true) :
    schema.Keeps type interface := by
  rw [keeps] at h
  split at h
  case h_2 => contradiction
  case h_1 interfaces fields hcontent =>
      rw [Bool.and_eq_true, List.all_eq_true, List.all_eq_true] at h
      refine ⟨⟨interfaces, fields, hcontent⟩, fun further hfurther => ?_,
        fun name promised hpromised => ?_⟩
      · rw [NamedType.declaredInterfaces, hcontent] at hfurther
        exact List.contains_iff_mem.mp (h.1 further hfurther)
      · obtain ⟨hmem, rfl⟩ := NamedType.mem_of_field? hpromised
        rw [NamedType.outputFields?, hcontent] at hmem
        obtain ⟨own, hown, hsub⟩ := (Option.any_eq_true _ _).mp (h.2 promised hmem)
        exact ⟨own, hown, .of_check hsub⟩

/-- Whether a type of the schema keeps the rules. -/
def checkType (schema : Schema) (type : NamedType) : Bool :=
  ((type.outputFields?.getD []).all fun field =>
    !isInternal field.name && (schema.get? field.type.base).any (·.isOutput)) &&
  (type.declaredInterfaces.all fun name => (schema.get? name).any (schema.keeps type)) &&
  (match type.content with
    | .union members => members.all fun name => (schema.get? name).any (·.isObject)
    | _ => true) &&
  type.valuesFlaw?.isNone

/-- Whether a schema is valid. -/
def check (schema : Schema) : Bool :=
  ([OperationKind.query, .mutation, .subscription].all fun kind =>
    (schema.root? kind).all (·.isObject)) && schema.types.all schema.checkType

theorem Valid.of_check (h : schema.check = true) : schema.Valid := by
  rw [check, Bool.and_eq_true, List.all_eq_true, List.all_eq_true] at h
  obtain ⟨hroots, htypes⟩ := h
  have htype (type : NamedType) (hknown : schema.Knows type) := htypes type
    (List.mem_of_find?_eq_some hknown)
  simp only [checkType, Bool.and_eq_true, List.all_eq_true] at htype
  refine ⟨fun kind root hroot => ?_, fun type name field hknown hfound => ?_,
    fun type name field hknown hfound => ?_, fun type hknown name hname => ?_,
    fun type names hknown hcontent name hname => ?_, fun type hknown => ?_⟩
  · have hkind := hroots kind (by cases kind <;> simp)
    rwa [hroot, Option.all_some] at hkind
  · obtain ⟨hmem, rfl⟩ := NamedType.mem_of_field? hfound
    simpa using ((htype type hknown).1.1.1 field hmem).1
  · obtain ⟨hmem, rfl⟩ := NamedType.mem_of_field? hfound
    exact (Option.any_eq_true _ _).mp ((htype type hknown).1.1.1 field hmem).2
  · obtain ⟨interface, hget, hkeeps⟩ :=
      (Option.any_eq_true _ _).mp ((htype type hknown).1.1.2 name hname)
    exact ⟨interface, hget, .of_check hkeeps⟩
  · have hmembers := (htype type hknown).1.2
    rw [hcontent, List.all_eq_true] at hmembers
    exact (Option.any_eq_true _ _).mp (hmembers name hname)
  · exact Option.isNone_iff_eq_none.mp (htype type hknown).2

/-- Whether no field has more wrappers than `limit`. -/
def checkWrappers (schema : Schema) (limit : Nat) : Bool :=
  schema.types.all fun type =>
    (type.outputFields?.getD []).all fun field => decide (field.type.wrappers ≤ limit)

theorem WrappersWithin.of_check {limit : Nat} (h : schema.checkWrappers limit = true) :
    schema.WrappersWithin limit := by
  intro type name field hknown hfound
  rw [checkWrappers, List.all_eq_true] at h
  have hfields := h type (List.mem_of_find?_eq_some hknown)
  rw [List.all_eq_true] at hfields
  simpa using hfields field (NamedType.mem_of_field? hfound).1

end Schema

/-! ### Selections -/

/-- A field where it is selected: the keys on the way to it, its own among them, and the guards
around it in its selection set. -/
structure Occurrence where
  location : List String
  guards : List Guard
  field : SelectedField

mutual

/-- What a selection on `parent` selects at any depth, behind guards. -/
def selectionOccurrences (schema : Schema) (guards : List Guard) (parent : NamedType) :
    Selection → List Occurrence
  | .field head none => [⟨[head.responseKey], guards, ⟨parent, head, none⟩⟩]
  | .field head (some inner) =>
    ⟨[head.responseKey], guards, ⟨parent, head, some inner⟩⟩ ::
      match (parent.field? head.name).bind (fun declared => schema.get? declared.type.base) with
      | none => []
      | some type => (occurrences schema [] type inner).map fun occurrence =>
        { occurrence with location := head.responseKey :: occurrence.location }
  | .spread .. => []
  | .inline none directives inner =>
    occurrences schema (guards ++ [⟨parent, none, directives⟩]) parent inner
  | .inline (some name) directives inner =>
    match schema.get? name with
    | none => []
    | some condition =>
      occurrences schema (guards ++ [⟨parent, some condition, directives⟩]) condition inner

/-- What selections on `parent` select at any depth, behind guards. -/
def occurrences (schema : Schema) (guards : List Guard) (parent : NamedType) :
    List Selection → List Occurrence
  | [] => []
  | selection :: rest =>
    selectionOccurrences schema guards parent selection ++ occurrences schema guards parent rest

end

section

variable {context : SelectionContext} {set last : SelectionSet} {guards : List Guard}
  {field : SelectedField}

theorem mem_occurrences {schema : Schema} {parent : NamedType} {selection : Selection}
    {selections : List Selection} {occurrence : Occurrence} (hmem : selection ∈ selections)
    (h : occurrence ∈ selectionOccurrences schema guards parent selection) :
    occurrence ∈ occurrences schema guards parent selections := by
  induction selections with
  | nil => simp at hmem
  | cons first rest ih =>
      rw [occurrences, List.mem_append]
      rcases List.mem_cons.mp hmem with rfl | hmem
      · exact .inl h
      · exact .inr (ih hmem)

/-- The occurrences of a field are occurrences of every set that selects it. -/
theorem Selects.mem_occurrences (hfragments : context.fragments = [])
    (h : Selects context set guards field) (before : List Guard) {occurrence : Occurrence}
    (hmem : occurrence ∈ selectionOccurrences context.schema (before ++ guards) field.parent
      (.field field.head field.inner)) :
    occurrence ∈ occurrences context.schema before set.parent set.selections := by
  induction h generalizing before with
  | field mem =>
      rw [List.append_nil] at hmem
      exact OperationLibrary.mem_occurrences mem hmem
  | @behind outer inner guard guards field opens selects ih =>
      have hinner := ih (before ++ [guard]) (by simpa using hmem)
      cases opens with
      | group mem => exact OperationLibrary.mem_occurrences mem hinner
      | inline mem resolved =>
          refine OperationLibrary.mem_occurrences mem ?_
          rw [selectionOccurrences, resolved]
          exact hinner
      | spread mem found => simp [hfragments, FragmentTable.get?] at found

/-- Every selected field is found. -/
theorem Nested.mem_occurrences (hfragments : context.fragments = []) {path : List String}
    (h : Nested context set path last) (hselects : Selects context last guards field) :
    ⟨path ++ [field.key], guards, field⟩ ∈
      occurrences context.schema [] set.parent set.selections := by
  induction h with
  | here set =>
      refine hselects.mem_occurrences hfragments [] ?_
      rw [List.nil_append]
      obtain ⟨parent, head, _ | inner⟩ := field
      · exact List.mem_singleton_self _
      · exact List.mem_cons_self
  | @field set next last outerGuards outer path selects inner nested ih =>
      -- guards count inside one selection set only
      refine selects.mem_occurrences hfragments [] ?_
      obtain ⟨declared, hfound, hget, hinner⟩ := SelectedField.innerSet?_eq_some.mp inner
      rw [hinner, selectionOccurrences, hfound, Option.bind_some, hget]
      exact List.mem_cons_of_mem _ (List.mem_map_of_mem (ih hselects))

end

/-- Whether a field keeps the rules. -/
def SelectedField.check (schema : Schema) (field : SelectedField) : Bool :=
  if field.isInternal then
    (field.head.name == "__typename" && field.inner.isNone) ||
      (field.head.name == "__schema" || field.head.name == "__type") &&
        (schema.rootName? .query == some field.parent.name) && field.inner.isSome
  else
    (field.parent.field? field.head.name).any fun declared =>
      (schema.get? declared.type.base).any fun core => field.inner.isSome == core.isComposite

theorem SelectedField.Valid.of_check {schema : Schema} {field : SelectedField}
    (hparent : schema.Knows field.parent) (h : field.check schema = true) :
    field.Valid schema := by
  rw [SelectedField.check] at h
  cases hinternal : field.isInternal with
  | true =>
      simp only [hinternal, if_true, Bool.or_eq_true, Bool.and_eq_true, beq_iff_eq,
        Option.isNone_iff_eq_none] at h
      rcases h with ⟨hname, hinner⟩ | ⟨⟨hname, hroot⟩, hinner⟩
      · exact .typeName hname hinner
      · refine .introspection hname ?_ hinner
        rw [Schema.root?, hroot, Option.bind_some]
        exact hparent
  | false =>
      simp only [hinternal, Bool.false_eq_true, if_false, Option.any_eq_true, beq_iff_eq] at h
      obtain ⟨declared, hfound, core, hcore, hinner⟩ := h
      exact .ordinary hinternal hfound hcore hinner

/-- Whether a guard can let objects through. -/
def Guard.check (schema : Schema) (guard : Guard) : Bool :=
  guard.condition.all fun condition => schema.types.any fun type =>
    (schema.get? type.name).any fun object =>
      object.isObject && guard.parent.includes object && condition.includes object

theorem Guard.MayApply.of_check {schema : Schema} {guard : Guard}
    (h : guard.check schema = true) : guard.MayApply schema := by
  intro condition hcondition
  rw [Guard.check, hcondition, Option.all_some, List.any_eq_true] at h
  obtain ⟨type, -, h⟩ := h
  obtain ⟨object, hget, hobject⟩ := (Option.any_eq_true _ _).mp h
  simp only [Bool.and_eq_true] at hobject
  exact ⟨object, Schema.knows_of_get? hget, hobject.1.1, hobject.1.2, hobject.2⟩

/-- Whether two fields answer with values of one form. -/
def SelectedField.sameForm (left right : SelectedField) : Bool :=
  left.type?.any fun leftType => right.type?.any fun rightType =>
    leftType.sameWrappers rightType && left.inner.isSome == right.inner.isSome &&
      (left.inner.isSome || leftType.base == rightType.base)

theorem SameForm.of_check {left right : SelectedField} (h : left.sameForm right = true) :
    SameForm left right := by
  simp only [SelectedField.sameForm, Option.any_eq_true, Bool.and_eq_true, Bool.or_eq_true,
    beq_iff_eq] at h
  obtain ⟨leftType, hleft, rightType, hright, ⟨hsame, hinner⟩, hbase⟩ := h
  refine ⟨leftType, rightType, hleft, hright, hsame, hinner, fun hnone => ?_⟩
  exact hbase.resolve_left (by simp [hnone])

instance (left right : SelectedField) : Decidable (MayMeet left right) :=
  inferInstanceAs (Decidable (_ ∨ _ ∨ _))

/-- Whether two occurrences can stand in one operation. -/
def Occurrence.fits (left right : Occurrence) : Bool :=
  left.location != right.location || left.field.sameForm right.field &&
    (!decide (MayMeet left.field right.field) || left.field.head.name == right.field.head.name)

/-- Whether selections that spread no fragments are valid. -/
def SelectionSet.check (schema : Schema) (root : SelectionSet) : Bool :=
  let found := occurrences schema [] root.parent root.selections
  found.all fun occurrence =>
    occurrence.field.check schema && occurrence.guards.all (·.check schema) &&
      found.all occurrence.fits

theorem Merged.nested {context : SelectionContext} {root left right : SelectionSet}
    (h : Merged context root left right) :
    ∃ path, Nested context root path left ∧ Nested context root path right := by
  induction h with
  | root => exact ⟨[], .here root, .here root⟩
  | field _ selectsLeft selectsRight sameKey _ innerLeft innerRight ih =>
      obtain ⟨path, hleft, hright⟩ := ih
      exact ⟨_, hleft.concat selectsLeft innerLeft,
        sameKey ▸ hright.concat selectsRight innerRight⟩

theorem ValidSelections.of_check {context : SelectionContext} {root : SelectionSet}
    (hroot : context.schema.Knows root.parent) (hfragments : context.fragments = [])
    (h : root.check context.schema = true) : ValidSelections context root := by
  simp only [SelectionSet.check, List.all_eq_true, Bool.and_eq_true] at h
  -- two fields of one place and key have been compared by the check
  have hfits (path : List String) (left right : SelectionSet) (leftGuards rightGuards : List Guard)
      (leftField rightField : SelectedField) (hleft : Nested context root path left)
      (hright : Nested context root path right)
      (hselects : Selects context left leftGuards leftField)
      (hselects' : Selects context right rightGuards rightField)
      (hkey : leftField.key = rightField.key) :
      leftField.sameForm rightField = true ∧
        (MayMeet leftField rightField → leftField.head.name = rightField.head.name) := by
    have hfit := (h _ (hleft.mem_occurrences hfragments hselects)).2 _
      (hright.mem_occurrences hfragments hselects')
    simp only [Occurrence.fits, hkey, bne_self_eq_false, Bool.false_or, Bool.and_eq_true,
      Bool.or_eq_true, Bool.not_eq_true', decide_eq_false_iff_not, beq_iff_eq] at hfit
    exact ⟨hfit.1, fun hmeet => hfit.2.resolve_left (not_not_intro hmeet)⟩
  refine ⟨?_, ?_, ?_, ?_⟩
  · rintro location field ⟨path, set, guards, rfl, hnested, hselects⟩
    have hfield := (h _ (hnested.mem_occurrences hfragments hselects)).1.1
    exact .of_check (hselects.knows (hnested.knows hroot)) hfield
  · intro path set guards field hnested hselects guard hguard
    have hguards := (h _ (hnested.mem_occurrences hfragments hselects)).1.2
    exact .of_check (hguards guard hguard)
  · rintro location left right ⟨path, set, guards, rfl, hnested, hselects⟩
      ⟨path', set', guards', hlocation, hnested', hselects'⟩
    obtain ⟨rfl, hkey⟩ := List.append_inj' hlocation rfl
    exact .of_check (hfits path set set' guards guards' left right hnested hnested' hselects
      hselects' (by simpa using hkey)).1
  · intro left right leftGuards rightGuards leftField rightField hmerged hselects hselects' hkey
    obtain ⟨path, hleft, hright⟩ := hmerged.nested
    exact (hfits path left right leftGuards rightGuards leftField rightField hleft hright hselects
      hselects' hkey).2

/-! ### A page and its owner -/

namespace PageSchema

def query : NamedType :=
  ⟨"Query", none, .object ["Node"]
    [⟨"owner", none, [], .nonNull (.named "Owner")⟩, ⟨"node", none, [], .named "Node"⟩]⟩

def node : NamedType :=
  ⟨"Node", none, .interface [] [⟨"owner", none, [], .nonNull (.named "Owner")⟩]⟩

def page : NamedType :=
  ⟨"Page", none, .object ["Node"] [⟨"owner", none, [], .nonNull (.named "Owner")⟩]⟩

def owner : NamedType :=
  ⟨"Owner", none, .object []
    [⟨"name", none, [], .nonNull (.named "String")⟩,
      ⟨"mail", none, [], .nonNull (.named "String")⟩]⟩

/-- Queries and pages have owners, and the query knows one of them. -/
def schema : Schema :=
  ⟨[query, node, page, owner, .scalar "String", .scalar "Boolean"], some "Query", none, none, []⟩

def context : SelectionContext :=
  ⟨schema, [], .standard⟩

def head (name : String) : FieldHead :=
  ⟨none, name, [], []⟩

def aliased (key name : String) : FieldHead :=
  ⟨some key, name, [], []⟩

def names : List Selection :=
  [.field (head "name") none]

def mails : List Selection :=
  [.field (head "mail") none]

/-- What is selected on a node: the name of the owner; the mail of the owner too, for pages; and
under another key the owner of a page or the schema. -/
def nodeSelections : List Selection :=
  [.field (head "owner") (some names),
    .inline (some "Page") []
      [.field (head "owner") (some mails), .field (aliased "x" "owner") (some names)],
    .inline (some "Node") []
      [.inline (some "Query") []
          [.field (aliased "x" "__schema") (some [.field (head "description") none])],
        .inline (some "Page") [] [.field (aliased "x" "owner") (some mails)]]]

/-- Selects a node, and the name of a type. -/
def operation : Operation :=
  ⟨none, .query, none, [], [],
    [.field (head "node") (some nodeSelections),
      .field ⟨none, "__type", [⟨"name", .string "Owner" false⟩], []⟩ (some names)]⟩

def root : SelectionSet :=
  ⟨query, operation.selections⟩

theorem schema_valid : schema.Valid :=
  .of_check (by decide +kernel)

theorem schema_wrappersWithin : schema.WrappersWithin wrapperLimit :=
  .of_check (by decide)

theorem validOperation : ValidOperation context operation query where
  root := rfl
  selections := .of_check rfl rfl (by decide +kernel)
  acyclic := by
    intro name fragment h
    simp [context, FragmentTable.get?] at h

def text (name : String) : Entry Shape :=
  ⟨name, .scalar "string" none, false, none⟩

/-- The shape of what the operation answers. -/
def data : Shape :=
  .object
    [⟨"node", .object
        [⟨"owner", .object [text "name", text "mail"] none, false, none⟩,
          ⟨"x", .object [text "name"] none, true, some (.text "Internal GraphQL field")⟩] none,
        true, none⟩,
      internalEntry "__type"] none

theorem responseShape_eq :
    responseShape context (.operation operation) = ⟨answerShape data, [], none⟩ := by
  have hroot : rootType? context.schema (.operation operation) = some query := rfl
  have hrank : context.rank (rootCall (.operation operation) query) < 150 := by decide
  rw [responseShape_of_root context hroot, ← context.unrolled_eq_answer context.answer hrank]
  with_unfolding_all rfl

/-- The values of the variables, of which the operation has none. -/
def given : String → Bool :=
  fun _ => false

/-- The selection sets that apply to the node. -/
def nodeSets : Set SelectionSet :=
  collectedSets context given query {root} "node"

theorem collects_node :
    Collects context given query {root} ⟨query, head "node", some nodeSelections⟩ :=
  ⟨root, rfl, [], .field List.mem_cons_self, by simp, rfl⟩

theorem mem_nodeSets : ⟨node, nodeSelections⟩ ∈ nodeSets :=
  ⟨_, collects_node, rfl, rfl⟩

/-- The node may be a value of any object type that has an owner. -/
theorem executes_node {value : NamedType} (hknown : schema.Knows value)
    (hisObject : value.isObject = true) (hincludes : node.includes value = true) :
    Executes context given root ["node"] value nodeSets :=
  .field .root collects_node rfl rfl hknown hisObject hincludes

end PageSchema

end OperationLibrary
