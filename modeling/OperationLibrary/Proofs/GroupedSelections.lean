import OperationLibrary.Proofs.CompatibleShapes
import OperationLibrary.Proofs.SchemaFields
import OperationLibrary.Proofs.Unfolding

/-!
Selections in groups. An inline fragment without a condition, or on the type that it stands in,
groups selections and says nothing else. Its entries are merged with one another before they come to
the entries around it, which makes no difference where entries of one name have compatible shapes.
-/

namespace OperationLibrary

open Syntax

/-! ### The names of entries -/

namespace Shape

theorem WellKeyed.wrap {core : Shape} (h : core.WellKeyed) (depth : Nat) (type : TypeRef) :
    (core.wrap depth type).WellKeyed := by
  induction type generalizing depth with
  | named name => exact h
  | list item ih =>
      rw [Shape.wrap]
      split
      · exact .scalar _ _
      · exact .list _ (ih _)
  | nonNull item ih =>
      rw [Shape.wrap]
      split
      · exact .scalar _ _
      · exact ih _

end Shape

theorem ScalarTable.wellKeyed_shape (scalars : ScalarTable) (name : String) :
    (scalars.shape name).WellKeyed := by
  rw [ScalarTable.shape]
  split
  · exact .scalar _ _
  · exact .scalar _ _

section

variable {schema : Schema} {scalars : ScalarTable}

/-- Fields make entries of their own names, with types that are unfolded. -/
theorem Unfolds.wellKeyed (hschema : schema.FieldsDistinct) {around : List String} {name : String}
    {shape : Shape} (h : Unfolds schema scalars around name shape) : shape.WellKeyed := by
  refine @Unfolds.rec schema scalars
    (fun _ _ shape _ => shape.WellKeyed)
    (fun _ fields entries _ => entries.map Entry.name = fields.map Prod.fst ∧
      ∀ entry ∈ entries, entry.type.WellKeyed)
    ?unknown ?scalar ?enum ?union ?expanded ?cut ?nil ?cons around name shape h
  case unknown => exact fun _ => .scalar _ _
  case scalar => exact fun _ _ => scalars.wellKeyed_shape _
  case enum => exact fun _ _ => .enum _ _
  case union => exact fun _ _ => .scalar _ _
  case expanded =>
    intro around name type fields entries hget hfields _ _ ih
    refine .object _ ?_ ih.2
    rw [ih.1]
    exact hschema type (List.mem_of_find?_eq_some hget) fields hfields
  case cut => exact fun _ _ _ => .scalar _ _
  case nil => exact ⟨rfl, by simp⟩
  case cons =>
    intro around name description type core fields entries _ _ ihFirst ihRest
    exact ⟨by rw [List.map_cons, List.map_cons, ihRest.1],
      List.forall_mem_cons.mpr ⟨ihFirst.wrap _ _, ihRest.2⟩⟩

end

section

variable {context : SelectionContext}

theorem wellKeyed_selectedCore (hschema : context.schema.FieldsDistinct) (expanding : List String)
    {inner : Option (List Selection)} {name : String}
    (hinner : ∀ type selections, context.schema.get? name = some type → inner = some selections →
      ∀ entry ∈ (contributions context expanding type selections).value, entry.type.WellKeyed) :
    (selectedCore context expanding inner name).value.WellKeyed := by
  cases hget : context.schema.get? name with
  | none =>
      rw [selectedCore, hget]
      exact .scalar _ _
  | some type =>
      cases hcomposite : type.isComposite with
      | false =>
          rw [selectedCore, hget]
          simp only [hcomposite, Bool.false_eq_true, if_false]
          exact (unfolds_shapeOfName _ _ _ _).wellKeyed hschema
      | true =>
          cases inner with
          | none =>
              rw [selectedCore, hget]
              simp only [hcomposite, if_true]
              exact .scalar _ _
          | some selections =>
              rw [value_selectedCore_composite _ _ hget hcomposite]
              exact .object _ nodup_mergeEntries_nil
                (wellKeyed_mergeEntries (hinner type selections hget rfl))

theorem wellKeyed_optionalUnder {parent condition : NamedType} {entries : List (Entry Shape)}
    (h : ∀ entry ∈ entries, entry.type.WellKeyed) :
    ∀ entry ∈ optionalUnder parent condition (mergeEntries [] entries), entry.type.WellKeyed := by
  rw [optionalUnder_eq_map parent condition [], List.forall_mem_map]
  intro entry hentry
  rw [Guard.type_weaken]
  exact wellKeyed_mergeEntries h entry hentry

/-- Whatever is selected, objects have one entry for a name. -/
theorem wellKeyed_contributions (hschema : context.schema.FieldsDistinct) (expanding : List String)
    (parent : NamedType) (selections : List Selection) :
    ∀ entry ∈ (contributions context expanding parent selections).value,
      entry.type.WellKeyed := by
  -- entries are merged before they become those of an object
  refine (contribution.mutual_induct context
    (fun expanding parent selection =>
      ∀ entry ∈ (contribution context expanding parent selection).value, entry.type.WellKeyed)
    (fun expanding parent selections =>
      ∀ entry ∈ (contributions context expanding parent selections).value, entry.type.WellKeyed)
    ?internal ?field ?group ?unresolved ?inline ?unknown ?seen ?unconditioned ?spread ?nil
    ?cons).2 expanding parent selections
  case internal =>
    intro expanding parent head inner hinternal entry hentry
    rw [contribution_internal _ _ _ _ hinternal] at hentry
    rw [List.mem_singleton.mp hentry]
    exact .scalar _ _
  case field =>
    intro expanding parent head inner hordinary ih entry hentry
    have hordinary : isInternal head.name = false := by simpa using hordinary
    cases hfound : parent.field? head.name with
    | none =>
        rw [contribution_field _ _ _ _ hordinary] at hentry
        simp [value_selectedField, hfound] at hentry
    | some declared =>
        rw [value_contribution_field _ _ hordinary hfound, List.mem_singleton] at hentry
        rw [hentry]
        refine (wellKeyed_selectedCore hschema expanding ?_).wrap _ _
        rintro type selections - rfl
        exact ih type
  case group =>
    intro expanding parent directives inner ih entry hentry
    rw [contribution_group] at hentry
    exact wellKeyed_mergeEntries ih entry hentry
  case unresolved =>
    intro expanding parent directives inner name hnone entry hentry
    simp [contribution_inline, hnone] at hentry
  case inline =>
    intro expanding parent directives inner name type hsome ih entry hentry
    rw [contribution_inline, hsome, Projection.value_map] at hentry
    exact wellKeyed_optionalUnder ih entry hentry
  case unknown =>
    intro expanding parent name directives hnone entry hentry
    simp [contribution_spread, hnone] at hentry
  case seen =>
    intro expanding parent name directives fragment hsome hseen entry hentry
    simp [contribution_spread, hsome, hseen] at hentry
  case unconditioned =>
    intro expanding parent name directives fragment hsome hfresh hnone entry hentry
    simp [contribution_spread, hsome, hfresh, hnone] at hentry
  case spread =>
    intro expanding parent name directives fragment hsome hfresh type htype ih entry hentry
    simp only [contribution_spread, hsome, hfresh, if_false, htype, Projection.value_map] at hentry
    exact wellKeyed_optionalUnder ih entry hentry
  case nil =>
    intro expanding parent entry hentry
    simp [contributions] at hentry
  case cons =>
    intro expanding parent first rest ihFirst ihRest entry hentry
    rw [contributions] at hentry
    rcases List.mem_append.mp hentry with h | h
    · exact ihFirst entry h
    · exact ihRest entry h

end

/-! ### Groups -/

section

variable (context : SelectionContext) (expanding : List String) (parent : NamedType)

theorem contributions_append (first second : List Selection) :
    contributions context expanding parent (first ++ second) = (do
      let entries ← contributions context expanding parent first
      let others ← contributions context expanding parent second
      return entries ++ others) := by
  induction first with
  | nil =>
      rw [List.nil_append, contributions, pure_bind]
      exact (bind_pure _).symm
  | cons selection first ih =>
      rw [List.cons_append, contributions, contributions, ih]
      simp only [bind_assoc, pure_bind, List.append_assoc]

/-- A group contributes the entries of its selections, merged with one another. -/
theorem contribution_inline_self {condition : Option String} (directives : List Directive)
    (selections : List Selection)
    (hcondition : ∀ name ∈ condition, context.schema.get? name = some parent) :
    contribution context expanding parent (.inline condition directives selections) =
      mergeEntries [] <$> contributions context expanding parent selections := by
  cases condition with
  | none => exact contribution_group _ _ _ _ _
  | some name =>
      have hself (entries : List (Entry Shape)) :
          optionalUnder parent parent entries = entries := by
        simp [optionalUnder]
      rw [contribution_inline, hcondition name rfl]
      simp only [hself]

end

/-- **Grouping selections is transparent.** Let types name each field once, as those of every schema
that is read do. In selections whose entries have compatible shapes wherever they share a name, some
can be put into an inline fragment that has no condition or names the type that it stands in. The
entries of the object stay the same, in their order, with their shapes, marks and descriptions, and
so does what is reported on the way to them. -/
theorem grouping_selections_transparent {context : SelectionContext}
    (hschema : context.schema.FieldsDistinct) (expanding : List String) {parent : NamedType}
    (before inside after : List Selection) {condition : Option String}
    (directives : List Directive)
    (hcondition : ∀ name ∈ condition, context.schema.get? name = some parent)
    (hcompatible : EntriesCompatible
      (contributions context expanding parent (before ++ inside ++ after)).value
      (contributions context expanding parent (before ++ inside ++ after)).value) :
    selectedEntries context expanding parent
        (before ++ [.inline condition directives inside] ++ after) =
      selectedEntries context expanding parent (before ++ inside ++ after) := by
  have hgroup : contributions context expanding parent [.inline condition directives inside] =
      mergeEntries [] <$> contributions context expanding parent inside := by
    rw [contributions, contributions, contribution_inline_self _ _ _ _ _ hcondition]
    simp
  have hkeyed := wellKeyed_contributions hschema expanding parent (before ++ inside ++ after)
  rw [contributions_append, contributions_append] at hcompatible hkeyed
  rw [selectedEntries, selectedEntries, contributions_append, contributions_append, hgroup,
    contributions_append, contributions_append]
  apply Projection.ext
  · exact (Grouped.group _ _ _).mergeEntries_eq ⟨hkeyed, hcompatible⟩
  · simp
  · simp

namespace FriendsInParts

def name : OutputField := ⟨"name", some (.text "In full"), [], .nonNull (.named "String")⟩

def friends : OutputField := ⟨"friends", none, [], .list (.named "Person")⟩

def person : NamedType := ⟨"Person", none, .object [] [name, friends]⟩

def context : SelectionContext :=
  ⟨⟨[person, .scalar "String"], some "Person", none, none, []⟩, [], .standard⟩

def selectName : Selection := .field ⟨none, "name", [], []⟩ none

def selectFriends (selections : List Selection) : Selection :=
  .field ⟨none, "friends", [], []⟩ (some selections)

def nameEntry : Entry Shape := ⟨"name", .scalar "string" none, false, some (.text "In full")⟩

/-- Friends with these entries. -/
def friendsEntry (entries : List (Entry Shape)) : Entry Shape :=
  ⟨"friends", .list (.object entries none) none, true, none⟩

theorem fieldsDistinct : context.schema.FieldsDistinct := by
  simp [Schema.FieldsDistinct, NamedType.FieldsDistinct, NamedType.unfoldedFields?, context, person,
    name, friends, NamedType.scalar]

theorem value_selectName :
    (contribution context [] person selectName).value = [nameEntry] := by
  have hordinary : isInternal "name" = false := by simp [isInternal]
  have hfound : person.field? "name" = some name := rfl
  have hstring : context.schema.get? "String" = some (.scalar "String") := rfl
  have hcore : (selectedCore context [] none "String").value = .scalar "string" none :=
    value_shapeOfName_plain hstring rfl
  rw [selectName, value_contribution_field _ _ hordinary hfound]
  exact congrArg
    (fun shape => [(⟨"name", shape, false, some (.text "In full")⟩ : Entry Shape)]) hcore

theorem value_selectFriends (selections : List Selection) :
    (contribution context [] person (selectFriends selections)).value =
      [friendsEntry (mergeEntries [] (contributions context [] person selections).value)] := by
  have hordinary : isInternal "friends" = false := by simp [isInternal]
  have hfound : person.field? "friends" = some friends := rfl
  have hperson : context.schema.get? "Person" = some person := rfl
  have hcore : (selectedCore context [] (some selections) "Person").value =
      .object (mergeEntries [] (contributions context [] person selections).value) none :=
    value_selectedCore_composite context [] hperson rfl
  rw [selectFriends, value_contribution_field _ _ hordinary hfound]
  exact congrArg (fun shape => [(⟨"friends", .list shape none, true, none⟩ : Entry Shape)]) hcore

theorem value_contributions :
    (contributions context [] person ([selectFriends [selectName]] ++
      [selectFriends [selectFriends [selectName]], selectName] ++ [selectName])).value =
        [friendsEntry [nameEntry], friendsEntry [friendsEntry [nameEntry]], nameEntry,
          nameEntry] := by
  have hsingle (entry : Entry Shape) : mergeEntries [] [entry] = [entry] := by
    rw [mergeEntries_cons, mergeEntries_nil]
    rfl
  simp [contributions, value_selectFriends, value_selectName, hsingle]

theorem compatible :
    EntriesCompatible
      (contributions context [] person ([selectFriends [selectName]] ++
        [selectFriends [selectFriends [selectName]], selectName] ++ [selectName])).value
      (contributions context [] person ([selectFriends [selectName]] ++
        [selectFriends [selectFriends [selectName]], selectName] ++ [selectName])).value := by
  have hleaf : (Shape.scalar "string" none).Compatible (.scalar "string" none) :=
    .leaf rfl rfl trivial
  rw [value_contributions]
  simp [EntriesCompatible, friendsEntry, nameEntry, hleaf]

/-- A part of what is selected of a person, grouped under the type of persons. -/
theorem friends_grouped :
    context.schema.FieldsDistinct ∧ context.schema.get? "Person" = some person ∧
      selectedEntries context [] person ([selectFriends [selectName]] ++
        [.inline (some "Person") [] [selectFriends [selectFriends [selectName]], selectName]] ++
          [selectName]) =
        selectedEntries context [] person ([selectFriends [selectName]] ++
          [selectFriends [selectFriends [selectName]], selectName] ++ [selectName]) := by
  have hperson : context.schema.get? "Person" = some person := rfl
  refine ⟨fieldsDistinct, hperson, ?_⟩
  apply grouping_selections_transparent fieldsDistinct
  · rintro name ⟨⟩
    exact hperson
  · exact compatible

end FriendsInParts

end OperationLibrary
