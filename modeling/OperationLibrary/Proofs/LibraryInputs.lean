import OperationLibrary.Library.Generator
import OperationLibrary.Proofs.AnnotationTables
import OperationLibrary.Proofs.FragmentClosure
import OperationLibrary.Proofs.KeyedSort
import OperationLibrary.Proofs.KeyedTables
import OperationLibrary.Proofs.SelfContained

/-!
What a library depends on. Fragment tables count only for the names that annotated definitions and
the fragments reached from them spread, and the order of a document counts only for the order of
tables that are sorted by ids anyway. So two documents with the same annotated definitions, and with
the same fragments reached from these, have the same library.
-/

namespace OperationLibrary

open Syntax

/-! ### Tables that answer alike -/

section

variable {table other : FragmentTable}

theorem reachAtOnce_cons_none {found : List Fragment} {name : String} {rest : List String}
    (hnew : name ∉ found.map Fragment.name) (hget : table.get? name = none) :
    reachAtOnce table found (name :: rest) =
      (do
        Logged.warn .documents
          ("Could not find fragment definition for referenced fragment: " ++ name)
        reachAtOnce table found rest) := by
  rw [reachAtOnce_cons, if_neg hnew, hget]

theorem reachAtOnce_cons_some {found : List Fragment} {name : String} {rest : List String}
    {fragment : Fragment} (hnew : name ∉ found.map Fragment.name)
    (hget : table.get? name = some fragment) :
    reachAtOnce table found (name :: rest) =
      reachAtOnce table (found ++ [fragment]) (spreadNames fragment.selections ++ rest) := by
  rw [reachAtOnce_cons, if_neg hnew, hget]

/-- The walk asks a table for the names that are pending and for those that they lead to. -/
theorem reachAtOnce_congr {asked : String → Prop}
    (hagree : ∀ name, asked name → other.get? name = table.get? name)
    (hclosed : ∀ name fragment, asked name → table.get? name = some fragment →
      ∀ next ∈ spreadNames fragment.selections, asked next)
    (found : List Fragment) (pending : List String) (hpending : ∀ name ∈ pending, asked name) :
    reachAtOnce other found pending = reachAtOnce table found pending := by
  fun_induction reachAtOnce table found pending with
  | case1 found => rw [reachAtOnce]
  | case2 found name rest hseen ih =>
      rw [reachAtOnce_cons, if_pos hseen]
      exact ih fun next hnext => hpending next (List.mem_cons_of_mem _ hnext)
  | case3 found name rest hseen hnone ih =>
      have hother := (hagree name (hpending name List.mem_cons_self)).trans hnone
      rw [reachAtOnce_cons_none hseen hother,
        ih fun next hnext => hpending next (List.mem_cons_of_mem _ hnext)]
  | case4 found name rest hseen fragment hsome ih =>
      have hname := hpending name List.mem_cons_self
      have hother := (hagree name hname).trans hsome
      rw [reachAtOnce_cons_some hseen hother]
      refine ih fun next hnext => ?_
      rcases List.mem_append.mp hnext with hspread | hrest
      · exact hclosed name fragment hname hsome next hspread
      · exact hpending next (List.mem_cons_of_mem _ hrest)

/-- An operation needs the same fragments from tables that agree on what it mentions. -/
theorem neededFragments_congr {operation : Operation}
    (h : AgreeFrom table other operation.selections) :
    neededFragments other operation = neededFragments table operation := by
  refine reachAtOnce_congr h (fun name fragment hname hget next hnext => ?_) [] _
    fun name hname => .inl hname
  have hreach : Reaches table operation.selections fragment := by
    rcases hname with hname | ⟨inner, hinner, hname⟩
    · exact .direct hname hget
    · exact .through hinner hname hget
  exact .inr ⟨fragment, hreach, hnext⟩

variable (context : SelectionContext)

theorem dataShape_congr (definition : Executable)
    (h : AgreeFrom context.fragments other definition.selections) :
    dataShape { context with fragments := other } definition = dataShape context definition := by
  simp only [dataShape, selectedEntries, contributions_congr context other _ _ _ h]

theorem libraryType_congr (source : AnnotatedFragment)
    (h : AgreeFrom context.fragments other source.fragment.selections) :
    libraryType { context with fragments := other } source = libraryType context source := by
  unfold libraryType
  rw [dataShape_congr context (.fragment source.fragment) h]

theorem libraryFunction?_congr (source : AnnotatedOperation)
    (h : AgreeFrom context.fragments other source.operation.selections) :
    libraryFunction? { context with fragments := other } source =
      libraryFunction? context source := by
  have hresponse : responseShape { context with fragments := other } (.operation source.operation) =
      responseShape context (.operation source.operation) := by
    rw [responseShape, dataShape_congr context (.operation source.operation) h, responseShape]
  simp only [libraryFunction?, hresponse]

end

theorem mapM_congr {m : Type → Type} [Monad m] [LawfulMonad m] {α β : Type} {f g : α → m β}
    {xs : List α} (h : ∀ x ∈ xs, f x = g x) : xs.mapM f = xs.mapM g := by
  induction xs with
  | nil => rfl
  | cons x rest ih =>
      rw [List.mapM_cons, List.mapM_cons, h x List.mem_cons_self,
        ih fun y hy => h y (List.mem_cons_of_mem _ hy)]

/-! ### Documents with the same annotations -/

namespace Syntax.Document

/-- Every annotation gives an id, and neither operations nor fragments share one. -/
structure WellTagged (document : Document) : Prop where
  given : ∀ definition ∈ document.executables,
    definition.isAnnotated → definition.givenId?.isSome
  operations_nodup : (document.operations.filterMap fun o =>
    (Executable.operation o).givenId?).Nodup
  fragments_nodup : (document.fragments.filterMap fun f =>
    (Executable.fragment f).givenId?).Nodup

/-- Spreads lead from an annotated definition to the fragment. -/
def Needs (document : Document) (fragment : Fragment) : Prop :=
  ∃ definition ∈ document.executables, definition.isAnnotated ∧
    Reaches document.lastFragments definition.selections fragment

/-- The same definitions are annotated in both documents, and spreads lead from them to the same
fragments. -/
structure SameAnnotations (left right : Document) : Prop where
  annotated : ∀ definition, definition.isAnnotated →
    (definition ∈ left.executables ↔ definition ∈ right.executables)
  needed : ∀ fragment, left.Needs fragment ↔ right.Needs fragment

end Syntax.Document

open Syntax.Document

section

variable {left right : Document}

theorem Syntax.Document.Needs.get?_eq {document : Document} {fragment : Fragment}
    (h : document.Needs fragment) :
    document.lastFragments.get? fragment.name = some fragment := by
  obtain ⟨_, _, _, hreach⟩ := h
  exact hreach.get?_eq

/-- The fragments of both documents agree on all that an annotated definition mentions. -/
theorem Syntax.Document.SameAnnotations.agreeFrom (h : SameAnnotations left right)
    {definition : Executable} (hmem : definition ∈ left.executables)
    (hannotated : definition.isAnnotated) :
    AgreeFrom left.lastFragments right.lastFragments definition.selections := by
  intro name hmentions
  cases hget : left.lastFragments.get? name with
  | some fragment =>
      have hneeds : left.Needs fragment := by
        rcases hmentions with hname | ⟨inner, hinner, hname⟩
        · exact ⟨definition, hmem, hannotated, .direct hname hget⟩
        · exact ⟨definition, hmem, hannotated, .through hinner hname hget⟩
      rw [← FragmentTable.name_of_get? hget]
      exact ((h.needed fragment).mp hneeds).get?_eq
  | none =>
      cases hother : right.lastFragments.get? name with
      | none => rfl
      | some fragment =>
          have hneeds : right.Needs fragment := by
            rcases hmentions with hname | ⟨inner, hinner, hname⟩
            · exact ⟨definition, (h.annotated definition hannotated).mp hmem, hannotated,
                .direct hname hother⟩
            · obtain ⟨source, hsource, htagged, hreach⟩ :=
                (h.needed inner).mp ⟨definition, hmem, hannotated, hinner⟩
              exact ⟨source, hsource, htagged, .through hreach hname hother⟩
          have hknown := ((h.needed fragment).mpr hneeds).get?_eq
          rw [FragmentTable.name_of_get? hother, hget] at hknown
          contradiction

/-! ### Tables of well tagged documents -/

/-- The table that `entryOf` makes of the annotated definitions, in the order of the document. -/
def taggedEntries {α : Type} (entryOf : Tag × Executable → Option (String × α)) (topic : Topic)
    (document : Document) : List (String × α) :=
  document.executables.filterMap fun definition =>
    ((definition.givenTag? topic).map (·, definition)).bind entryOf

theorem mem_taggedEntries {α : Type} {entryOf : Tag × Executable → Option (String × α)}
    {topic : Topic} {document : Document} {entry : String × α} :
    entry ∈ taggedEntries entryOf topic document ↔
      ∃ definition ∈ document.executables, ∃ tag, definition.givenTag? topic = some tag ∧
        entryOf (tag, definition) = some entry := by
  simp [taggedEntries, List.mem_filterMap, Option.bind_eq_some_iff]

/-- The keys of the table of operations are the ids that the annotations of operations give. -/
theorem map_fst_operationEntries (topic : Topic) (document : Document) :
    (taggedEntries (operationEntryOf document) topic document).map Prod.fst =
      document.operations.filterMap fun o => (Executable.operation o).givenId? := by
  rw [taggedEntries, Document.operations, List.map_filterMap, List.filterMap_filterMap]
  refine List.filterMap_congr fun definition _ => ?_
  cases definition with
  | operation o =>
      simp only [Executable.operation?, Option.bind_some, ← Executable.id_givenTag? topic]
      cases (Executable.operation o).givenTag? topic <;> rfl
  | fragment f => cases (Executable.fragment f).givenTag? topic <;> rfl

theorem map_fst_fragmentEntries (topic : Topic) (document : Document) :
    (taggedEntries fragmentEntryOf topic document).map Prod.fst =
      document.fragments.filterMap fun f => (Executable.fragment f).givenId? := by
  rw [taggedEntries, Document.fragments, List.map_filterMap, List.filterMap_filterMap]
  refine List.filterMap_congr fun definition _ => ?_
  cases definition with
  | operation o => cases (Executable.operation o).givenTag? topic <;> rfl
  | fragment f =>
      simp only [Executable.fragment?, Option.bind_some, ← Executable.id_givenTag? topic]
      cases (Executable.fragment f).givenTag? topic <;> rfl

namespace Syntax.Document.WellTagged

variable {document : Document}

theorem nodup_operationIds (h : document.WellTagged) (topic : Topic) :
    ((taggedEntries (operationEntryOf document) topic document).map Prod.fst).Nodup := by
  rw [map_fst_operationEntries]
  exact h.operations_nodup

theorem nodup_fragmentIds (h : document.WellTagged) (topic : Topic) :
    ((taggedEntries fragmentEntryOf topic document).map Prod.fst).Nodup := by
  rw [map_fst_fragmentEntries]
  exact h.fragments_nodup

/-- A well tagged document has its annotated definitions in its tables, in their order. -/
theorem extractAnnotations_eq (h : document.WellTagged) (topic : Topic) (supply : IdSupply) :
    (extractAnnotations topic supply document).value =
      ⟨taggedEntries (operationEntryOf document) topic document,
        taggedEntries fragmentEntryOf topic document⟩ := by
  rw [value_extractAnnotations, tagged_of_given topic supply 0 h.given]
  simp only [List.filterMap_filterMap]
  exact congrArg₂ Annotations.mk (Keyed.ofList_eq_self (h.nodup_operationIds topic))
    (Keyed.ofList_eq_self (h.nodup_fragmentIds topic))

end Syntax.Document.WellTagged

/-! ### Two documents -/

namespace Syntax.Document.SameAnnotations

theorem symm (h : SameAnnotations left right) : SameAnnotations right left :=
  ⟨fun definition hannotated => (h.annotated definition hannotated).symm,
    fun fragment => (h.needed fragment).symm⟩

variable {α : Type} {entryOf otherOf : Tag × Executable → Option (String × α)}

theorem taggedEntries_subset (h : SameAnnotations left right) {topic : Topic}
    (hagree : ∀ definition ∈ left.executables, definition.isAnnotated → ∀ tag,
      otherOf (tag, definition) = entryOf (tag, definition)) :
    taggedEntries entryOf topic left ⊆ taggedEntries otherOf topic right := by
  intro entry hentry
  obtain ⟨definition, hmem, tag, htag, hentry⟩ := mem_taggedEntries.mp hentry
  have hannotated := Executable.isAnnotated_of_givenTag? htag
  rw [← hagree definition hmem hannotated] at hentry
  exact mem_taggedEntries.mpr
    ⟨definition, (h.annotated definition hannotated).mp hmem, tag, htag, hentry⟩

/-- Tables that make the same entries of the annotated definitions have the same sorted values. -/
theorem sortById_taggedEntries (h : SameAnnotations left right) (idOf : α → String) (topic : Topic)
    (hagree : ∀ definition ∈ left.executables, definition.isAnnotated → ∀ tag,
      otherOf (tag, definition) = entryOf (tag, definition))
    (hid : ∀ tagged entry, entryOf tagged = some entry → idOf entry.2 = entry.1)
    (hleft : ((taggedEntries entryOf topic left).map Prod.fst).Nodup)
    (hright : ((taggedEntries otherOf topic right).map Prod.fst).Nodup) :
    sortById idOf ((taggedEntries entryOf topic left).map Prod.snd) =
      sortById idOf ((taggedEntries otherOf topic right).map Prod.snd) := by
  have hback : taggedEntries otherOf topic right ⊆ taggedEntries entryOf topic left :=
    h.symm.taggedEntries_subset fun definition hmem hannotated tag =>
      (hagree definition ((h.annotated definition hannotated).mpr hmem) hannotated tag).symm
  have hperm : (taggedEntries entryOf topic left).Perm (taggedEntries otherOf topic right) :=
    (List.perm_ext_iff_of_nodup hleft.of_map hright.of_map).mpr fun _ =>
      ⟨fun hentry => h.taggedEntries_subset hagree hentry, fun hentry => hback hentry⟩
  have hids : ((taggedEntries entryOf topic left).map Prod.snd).map idOf =
      (taggedEntries entryOf topic left).map Prod.fst := by
    rw [List.map_map]
    refine List.map_congr_left fun entry hentry => ?_
    obtain ⟨definition, -, tag, -, hentry⟩ := mem_taggedEntries.mp hentry
    exact hid _ entry hentry
  exact sortById_eq_of_perm (hids ▸ hleft) (hperm.map Prod.snd)

/-- Both documents hold the same of an operation that is annotated. -/
theorem operationEntryOf_eq (h : SameAnnotations left right) {definition : Executable}
    (hmem : definition ∈ left.executables) (hannotated : definition.isAnnotated) (tag : Tag) :
    operationEntryOf right (tag, definition) = operationEntryOf left (tag, definition) := by
  cases definition with
  | fragment => rfl
  | operation operation =>
      have hneeded : neededFragments right.lastFragments operation =
          neededFragments left.lastFragments operation :=
        neededFragments_congr (h.agreeFrom hmem hannotated)
      simp only [operationEntryOf, annotatedOperation, persistableOperation, hneeded]

end Syntax.Document.SameAnnotations

theorem id_of_operationEntryOf {document : Document} (tagged : Tag × Executable)
    (entry : String × AnnotatedOperation) (h : operationEntryOf document tagged = some entry) :
    entry.2.tag.id = entry.1 := by
  obtain ⟨tag, _ | _⟩ := tagged
  · obtain rfl := Option.some.inj h
    rfl
  · exact nomatch h

theorem id_of_fragmentEntryOf (tagged : Tag × Executable) (entry : String × AnnotatedFragment)
    (h : fragmentEntryOf tagged = some entry) : entry.2.tag.id = entry.1 := by
  obtain ⟨tag, _ | _⟩ := tagged
  · exact nomatch h
  · obtain rfl := Option.some.inj h
    rfl

/-! ### One library -/

namespace Generator

variable (generator : Generator)

/-- What an entry of a sorted table is made of. -/
theorem exists_of_mem_sortById {α : Type} {entryOf : Tag × Executable → Option (String × α)}
    {idOf : α → String} {topic : Topic} {document : Document} {value : α}
    (h : value ∈ sortById idOf ((taggedEntries entryOf topic document).map Prod.snd)) :
    ∃ definition ∈ document.executables, definition.isAnnotated ∧
      ∃ tag id, entryOf (tag, definition) = some (id, value) := by
  obtain ⟨⟨id, value⟩, hentry, rfl⟩ := List.mem_map.mp ((List.mergeSort_perm _ _).mem_iff.mp h)
  obtain ⟨definition, hmem, tag, htag, hentry⟩ := mem_taggedEntries.mp hentry
  exact ⟨definition, hmem, Executable.isAnnotated_of_givenTag? htag, tag, id, hentry⟩

/-- The functions of the sorted operations of a document do not depend on its other fragments. -/
theorem mapM_libraryFunction?_eq (h : SameAnnotations left right) :
    let sources := (taggedEntries (operationEntryOf left) .generation left).map Prod.snd
    (sortById (·.tag.id) sources).mapM
        (libraryFunction? (generator.context right.lastFragments)) =
      (sortById (·.tag.id) sources).mapM
        (libraryFunction? (generator.context left.lastFragments)) := by
  refine mapM_congr fun source hsource => ?_
  obtain ⟨definition, hmem, hannotated, tag, id, hentry⟩ := exists_of_mem_sortById hsource
  cases definition with
  | fragment => exact nomatch hentry
  | operation operation =>
      obtain ⟨-, rfl⟩ := Prod.mk.inj (Option.some.inj hentry)
      exact libraryFunction?_congr (generator.context left.lastFragments) _
        (h.agreeFrom hmem hannotated)

theorem mapM_libraryType_eq (h : SameAnnotations left right) :
    let sources := (taggedEntries fragmentEntryOf .generation left).map Prod.snd
    (sortById (·.tag.id) sources).mapM (libraryType (generator.context right.lastFragments)) =
      (sortById (·.tag.id) sources).mapM
        (libraryType (generator.context left.lastFragments)) := by
  refine mapM_congr fun source hsource => ?_
  obtain ⟨definition, hmem, hannotated, tag, id, hentry⟩ := exists_of_mem_sortById hsource
  cases definition with
  | operation => exact nomatch hentry
  | fragment fragment =>
      obtain ⟨-, rfl⟩ := Prod.mk.inj (Option.some.inj hentry)
      exact libraryType_congr (generator.context left.lastFragments) _
        (h.agreeFrom hmem hannotated)

/-- The functions and types come from the tables, which are sorted, and from the fragments that the
sorted definitions lead to. -/
theorem libraryMembers_eq (hleft : left.WellTagged) (hright : right.WellTagged)
    (h : SameAnnotations left right) :
    libraryMembers (generator.context left.lastFragments)
        (extractAnnotations .generation generator.ids left).value =
      libraryMembers (generator.context right.lastFragments)
        (extractAnnotations .generation generator.ids right).value := by
  rw [hleft.extractAnnotations_eq, hright.extractAnnotations_eq]
  have hoperations := h.sortById_taggedEntries (·.tag.id) .generation
    (fun definition hmem hannotated tag => h.operationEntryOf_eq hmem hannotated tag)
    id_of_operationEntryOf (hleft.nodup_operationIds _) (hright.nodup_operationIds _)
  have hfragments := h.sortById_taggedEntries (·.tag.id) .generation
    (fun definition hmem hannotated tag => rfl)
    id_of_fragmentEntryOf (hleft.nodup_fragmentIds _) (hright.nodup_fragmentIds _)
  simp only [libraryMembers, ← hoperations, ← hfragments, generator.mapM_libraryFunction?_eq h,
    generator.mapM_libraryType_eq h]

/-- What becomes of the functions and types once the tables are there. -/
theorem value_run_members (document : Document) :
    (generator.members document).run.value =
      (do
        let (functions, types) ← libraryMembers (generator.context document.lastFragments)
          (extractAnnotations .generation generator.ids document).value
        let kept ← generator.hooks.select (·.kind.keyword) LibraryFunction.operationName functions
        return (kept, types) : Settled (List LibraryFunction × List LibraryType)).run.value :=
  rfl

/-- **The inputs of a library.** Documents with the same annotated definitions and the same
fragments that these lead to have the same library, or none for the same reason: the functions, the
types, the runtime and the declarations do not depend on the order of the definitions nor on any
other definition. That two fragments have the same name makes no difference. -/
theorem library_eq_of_sameAnnotations (hleft : left.WellTagged) (hright : right.WellTagged)
    (h : SameAnnotations left right) :
    (generator.library left).value = (generator.library right).value := by
  have hmembers : (generator.members left).run.value = (generator.members right).run.value := by
    rw [value_run_members, value_run_members, generator.libraryMembers_eq hleft hright h]
  rw [library, library, Logged.value_bind, Logged.value_bind, hmembers]

end Generator

/-- The needed fragments are those that the walks from the annotated definitions find. -/
theorem Syntax.Document.needs_iff {document : Document} {fragment : Fragment} :
    document.Needs fragment ↔
      ∃ definition ∈ document.executables.filter Executable.isAnnotated,
        fragment ∈ (reachAtOnce document.lastFragments []
          (spreadNames definition.selections)).value := by
  simp only [Needs, List.mem_filter, mem_reachAtOnce_iff, and_assoc]

end

namespace ReorderedDefinitions

def leaf : Selection := .field ⟨none, "a", [], []⟩ none

def identified (id : String) : Directive :=
  ⟨"netlify", [⟨"id", .string id false⟩]⟩

def operation : Operation :=
  ⟨none, .query, some "Q", [], [identified "x"], [.spread "Near" []]⟩

def other : Operation := ⟨none, .query, some "R", [], [], [.spread "Far" []]⟩

def near : Fragment := ⟨none, "Near", "Query", [identified "x"], [leaf, .spread "Next" []]⟩

def next : Fragment := ⟨none, "Next", "Query", [], [leaf]⟩

def far : Fragment := ⟨none, "Far", "Query", [], [leaf, .spread "Near" []]⟩

def schema : Schema :=
  ⟨[⟨"Query", none, .object [] [⟨"a", none, [], .named "String"⟩]⟩, .scalar "String"], some "Query",
    none, none, []⟩

def generator : Generator :=
  ⟨schema, .standard, .standard, .none, [], fun _ => ""⟩

/-- The annotated definitions and the fragments that they lead to. -/
def short : Document :=
  [.executable (.operation operation), .executable (.fragment near), .executable (.fragment next)]

/-- The same in another order, with a scalar type and with an operation and a fragment that have no
annotation. -/
def long : Document :=
  [.typeSystem (.type ⟨none, "Date", [], .scalar⟩), .executable (.fragment next),
    .executable (.fragment far), .executable (.fragment near), .executable (.operation other),
    .executable (.operation operation)]

theorem annotated_short :
    short.executables.filter Executable.isAnnotated = [.operation operation, .fragment near] := rfl

theorem annotated_long :
    long.executables.filter Executable.isAnnotated = [.fragment near, .operation operation] := rfl

theorem wellTagged_short : short.WellTagged :=
  ⟨by decide, by decide, by decide⟩

theorem wellTagged_long : long.WellTagged :=
  ⟨by decide, by decide, by decide⟩

theorem lastFragments_short : short.lastFragments = [next, near] := rfl

theorem lastFragments_long : long.lastFragments = [near, far, next] := rfl

theorem needs_short (fragment : Fragment) : short.Needs fragment ↔ fragment ∈ [near, next] := by
  have hoperation : (reachAtOnce short.lastFragments []
      (spreadNames (Executable.operation operation).selections)).value = [near, next] := by
    simp [lastFragments_short, reachAtOnce_cons, reachAtOnce, FragmentTable.get?, spreadNames,
      Selection.spreads, Executable.selections, operation, near, next, leaf]
  have hfragment : (reachAtOnce short.lastFragments []
      (spreadNames (Executable.fragment near).selections)).value = [next] := by
    simp [lastFragments_short, reachAtOnce_cons, reachAtOnce, FragmentTable.get?, spreadNames,
      Selection.spreads, Executable.selections, near, next, leaf]
  simp [needs_iff, annotated_short, hoperation, hfragment]

theorem needs_long (fragment : Fragment) : long.Needs fragment ↔ fragment ∈ [near, next] := by
  have hoperation : (reachAtOnce long.lastFragments []
      (spreadNames (Executable.operation operation).selections)).value = [near, next] := by
    simp [lastFragments_long, reachAtOnce_cons, reachAtOnce, FragmentTable.get?, spreadNames,
      Selection.spreads, Executable.selections, operation, near, next, far, leaf]
  have hfragment : (reachAtOnce long.lastFragments []
      (spreadNames (Executable.fragment near).selections)).value = [next] := by
    simp [lastFragments_long, reachAtOnce_cons, reachAtOnce, FragmentTable.get?, spreadNames,
      Selection.spreads, Executable.selections, near, next, far, leaf]
  simp only [needs_iff, annotated_long, List.mem_cons, List.not_mem_nil, or_false,
    exists_eq_or_imp, exists_eq_left, hoperation, hfragment]
  tauto

theorem sameAnnotations : SameAnnotations short long where
  annotated definition hannotated := by
    have hshort : definition ∈ short.executables ↔
        definition ∈ short.executables.filter Executable.isAnnotated := by
      simp [List.mem_filter, hannotated]
    have hlong : definition ∈ long.executables ↔
        definition ∈ long.executables.filter Executable.isAnnotated := by
      simp [List.mem_filter, hannotated]
    rw [hshort, hlong, annotated_short, annotated_long]
    simp [or_comm]
  needed fragment := (needs_short fragment).trans (needs_long fragment).symm

/-- Definitions without annotations and the order of all of them make no difference. -/
theorem library_of_reordered :
    short.WellTagged ∧ long.WellTagged ∧ SameAnnotations short long ∧
      (generator.library short).value = (generator.library long).value :=
  ⟨wellTagged_short, wellTagged_long, sameAnnotations,
    generator.library_eq_of_sameAnnotations wellTagged_short wellTagged_long sameAnnotations⟩

end ReorderedDefinitions

end OperationLibrary
