import OperationLibrary.Document.Persistable
import OperationLibrary.Proofs.ComputedEquality
import OperationLibrary.Proofs.Reachability
import OperationLibrary.Proofs.SelectionProjection
import OperationLibrary.Syntax.TypeSystemParser

/-!
Persistable texts are self-contained. The projection of selections looks up the names that the
selections and the fragments reached from them spread, and nothing else, and it does not look at
directives. So the text of an operation with the fragments it needs has the projection that the
operation has in its whole document.
-/

namespace OperationLibrary

open Syntax

/-! ### The names that are looked up -/

/-- A name is spread by the selections or by a fragment reached from them. -/
def Mentions (table : FragmentTable) (selections : List Selection) (name : String) : Prop :=
  name ∈ spreadNames selections ∨
    ∃ fragment, Reaches table selections fragment ∧ name ∈ spreadNames fragment.selections

/-- Two tables answer alike to every name that the selections mention. -/
def AgreeFrom (table other : FragmentTable) (selections : List Selection) : Prop :=
  ∀ name, Mentions table selections name → other.get? name = table.get? name

section

variable {table other : FragmentTable} {selections others : List Selection}

theorem Mentions.mono {name : String}
    (hsub : ∀ name ∈ spreadNames selections, name ∈ spreadNames others)
    (h : Mentions table selections name) : Mentions table others name :=
  h.imp (hsub name) fun ⟨fragment, hreach, hname⟩ => ⟨fragment, hreach.mono hsub, hname⟩

theorem Mentions.of_fragment {fragment : Fragment} {name : String}
    (hreach : Reaches table selections fragment)
    (h : Mentions table fragment.selections name) : Mentions table selections name := by
  rcases h with h | ⟨inner, hinner, hname⟩
  · exact .inr ⟨fragment, hreach, h⟩
  · exact .inr ⟨inner, hreach.trans hinner, hname⟩

theorem AgreeFrom.mono (h : AgreeFrom table other others)
    (hsub : ∀ name ∈ spreadNames selections, name ∈ spreadNames others) :
    AgreeFrom table other selections :=
  fun name hname => h name (hname.mono hsub)

end

/-- **Projection consults reachable fragments only.** Tables that agree on the names mentioned give
the same contributions, notices and faults included. -/
theorem contributions_congr (context : SelectionContext) (other : FragmentTable)
    (expanding : List String) (parent : NamedType) (selections : List Selection)
    (h : AgreeFrom context.fragments other selections) :
    contributions { context with fragments := other } expanding parent selections =
      contributions context expanding parent selections := by
  refine (contribution.mutual_induct context
    (fun expanding parent selection => AgreeFrom context.fragments other [selection] →
      contribution { context with fragments := other } expanding parent selection =
        contribution context expanding parent selection)
    (fun expanding parent selections => AgreeFrom context.fragments other selections →
      contributions { context with fragments := other } expanding parent selections =
        contributions context expanding parent selections)
    ?internal ?field ?group ?unresolved ?inline ?unknown ?seen ?unconditioned ?spread ?nil
    ?cons).2 expanding parent selections h
  case internal =>
    intro expanding parent head inner hinternal _
    rw [contribution_internal _ _ _ _ hinternal, contribution_internal _ _ _ _ hinternal]
  case field =>
    intro expanding parent head inner hordinary ih hagree
    have hcore : selectedCore { context with fragments := other } expanding inner =
        selectedCore context expanding inner := by
      funext name
      cases inner with
      | none => rfl
      | some selections =>
          have hinner := fun type =>
            ih type (hagree.mono (by simp [spreadNames, Selection.spreads]))
          simp only [selectedCore, hinner]
    rw [contribution_field _ _ _ _ (by simpa using hordinary),
      contribution_field _ _ _ _ (by simpa using hordinary), hcore]
  case group =>
    intro expanding parent directives selections ih hagree
    rw [contribution_group, contribution_group,
      ih (hagree.mono (by simp [spreadNames, Selection.spreads]))]
  case unresolved =>
    intro expanding parent directives selections name hnone _
    simp only [contribution_inline, hnone]
  case inline =>
    intro expanding parent directives selections name type hsome ih hagree
    simp only [contribution_inline, hsome,
      ih (hagree.mono (by simp [spreadNames, Selection.spreads]))]
  case unknown =>
    intro expanding parent name directives hnone hagree
    have hother := hagree name (.inl (by simp [spreadNames, Selection.spreads]))
    simp only [contribution_spread, hother, hnone]
  case seen =>
    intro expanding parent name directives fragment hsome hseen hagree
    have hother := hagree name (.inl (by simp [spreadNames, Selection.spreads]))
    simp only [contribution_spread, hother, hsome, hseen, if_true]
  case unconditioned =>
    intro expanding parent name directives fragment hsome hfresh hnone hagree
    have hother := hagree name (.inl (by simp [spreadNames, Selection.spreads]))
    simp only [contribution_spread, hother, hsome, hfresh, if_false, hnone]
  case spread =>
    intro expanding parent name directives fragment hsome hfresh type htype ih hagree
    have hspread : name ∈ spreadNames [.spread name directives] := by
      simp [spreadNames, Selection.spreads]
    have hother := hagree name (.inl hspread)
    have hinner : AgreeFrom context.fragments other fragment.selections := fun inner hmentions =>
      hagree inner (hmentions.of_fragment (.direct hspread hsome))
    simp only [contribution_spread, hother, hsome, hfresh, if_false, htype, ih hinner]
  case nil =>
    intro expanding parent _
    rw [contributions, contributions]
  case cons =>
    intro expanding parent selection rest ihFirst ihRest hagree
    rw [contributions, contributions, ihFirst (hagree.mono (by simp +contextual [spreadNames])),
      ihRest (hagree.mono (by simp +contextual [spreadNames]))]

/-! ### Tooling directives -/

theorem stripTooling_field (head : FieldHead) (inner : Option (List Selection)) :
    (Selection.field head inner).stripTooling =
      .field { head with directives := withoutTooling head.directives }
        (inner.map stripToolingAll) := by
  cases inner <;> rfl

/-- Directives do not count for the projection, so neither do those that are stripped. -/
theorem contributions_stripTooling (context : SelectionContext) (expanding : List String)
    (parent : NamedType) (selections : List Selection) :
    contributions context expanding parent (stripToolingAll selections) =
      contributions context expanding parent selections := by
  refine (contribution.mutual_induct context
    (fun expanding parent selection =>
      contribution context expanding parent selection.stripTooling =
        contribution context expanding parent selection)
    (fun expanding parent selections =>
      contributions context expanding parent (stripToolingAll selections) =
        contributions context expanding parent selections)
    ?internal ?field ?group ?unresolved ?inline ?unknown ?seen ?unconditioned ?spread ?nil
    ?cons).2 expanding parent selections
  case internal =>
    intro expanding parent head inner hinternal
    rw [stripTooling_field, contribution_internal _ _ _ _ hinternal]
    exact contribution_internal _ _ _ _ hinternal
  case field =>
    intro expanding parent head inner _ ih
    have hcore : selectedCore context expanding (inner.map stripToolingAll) =
        selectedCore context expanding inner := by
      cases inner with
      | none => rfl
      | some selections =>
          funext name
          simp only [selectedCore, Option.map_some, fun type => ih type]
    rw [stripTooling_field]
    exact contribution_field_congr _ _ _ rfl rfl hcore
  case group =>
    intro expanding parent directives selections ih
    rw [Selection.stripTooling, contribution_group, contribution_group, ih]
  case unresolved =>
    intro expanding parent directives selections name hnone
    rw [Selection.stripTooling, contribution_inline, contribution_inline, hnone]
  case inline =>
    intro expanding parent directives selections name type hsome ih
    simp only [Selection.stripTooling, contribution_inline, hsome, ih]
  case unknown | seen | unconditioned | spread =>
    intros
    rw [Selection.stripTooling, contribution_spread, contribution_spread]
  case nil =>
    intro expanding parent
    rw [stripToolingAll]
  case cons =>
    intro expanding parent selection rest ihFirst ihRest
    rw [stripToolingAll, contributions, contributions, ihFirst, ihRest]

/-! ### Persistable texts -/

/-- The definitions that are printed into the persistable text of an operation. -/
def persistedDefinitions (document : Document) (operation : Operation) : Document :=
  (.operation operation.stripTooling ::
    (persistableOperation document operation).value.fragments.map Executable.fragment).map
      Definition.executable

/-- The projection of the first definition of a text with the fragments of that text. -/
def projectText (schema : Schema) (scalars : ScalarTable) (text : String) :
    Option (Projection Shape) :=
  match Document.parse text with
  | .error _ => none
  | .ok document => document.executables.head?.map fun definition =>
    responseShape ⟨schema, document.lastFragments, scalars⟩ definition

/-- A list of different fragments of a table that holds all that the selections lead to agrees with
the table on what the selections mention. -/
theorem agreeFrom_of_needed {table needed : FragmentTable} {selections : List Selection}
    (htable : FromTable table needed) (hnodup : (needed.map Fragment.name).Nodup)
    (hall : ∀ fragment, Reaches table selections fragment → fragment ∈ needed) :
    AgreeFrom table needed selections := by
  intro name hmentions
  cases hget : table.get? name with
  | some fragment =>
      have hreach : Reaches table selections fragment := by
        rcases hmentions with h | ⟨inner, hinner, h⟩
        · exact .direct h hget
        · exact .through hinner h hget
      rw [← FragmentTable.name_of_get? hget]
      exact FragmentTable.get?_of_mem hnodup (hall fragment hreach)
  | none =>
      cases hother : needed.get? name with
      | none => rfl
      | some fragment =>
          have hknown := htable fragment (FragmentTable.mem_of_get? hother)
          rw [FragmentTable.name_of_get? hother, hget] at hknown
          contradiction

theorem fragments_persistableOperation_perm (document : Document) (operation : Operation) :
    (persistableOperation document operation).value.fragments.Perm
      (neededFragments document.lastFragments operation).value :=
  List.mergeSort_perm _ _

theorem lastFragments_persistedDefinitions (document : Document) (operation : Operation) :
    (persistedDefinitions document operation).lastFragments =
      (persistableOperation document operation).value.fragments.reverse := by
  have hexecutables : (persistedDefinitions document operation).executables =
      .operation operation.stripTooling ::
        (persistableOperation document operation).value.fragments.map .fragment := by
    simp [persistedDefinitions, Document.executables, List.filterMap_map, Function.comp_def]
  have hfragments : ∀ fragments : List Fragment,
      (fragments.map Executable.fragment).filterMap Executable.fragment? = fragments := by
    intro fragments
    rw [List.filterMap_map]
    exact List.filterMap_some
  rw [Document.lastFragments, Document.fragments, hexecutables,
    List.filterMap_cons_none rfl, hfragments]

/-- The response of an operation without tooling directives, with any table that agrees on what it
mentions, is its response in the document. -/
theorem responseShape_stripTooling_congr (context : SelectionContext) (other : FragmentTable)
    (operation : Operation) (h : AgreeFrom context.fragments other operation.selections) :
    responseShape { context with fragments := other } (.operation operation.stripTooling) =
      responseShape context (.operation operation) := by
  have hentries (root : NamedType) :
      selectedEntries { context with fragments := other } [] root
          (stripToolingAll operation.selections) =
        selectedEntries context [] root operation.selections := by
    rw [selectedEntries, selectedEntries, contributions_stripTooling,
      contributions_congr context other [] root operation.selections h]
  have hdata : dataShape { context with fragments := other } (.operation operation.stripTooling) =
      dataShape context (.operation operation) := by
    cases hroot : rootType? context.schema (.operation operation) with
    | none =>
        rw [dataShape_of_no_root _ hroot]
        exact dataShape_of_no_root _ hroot
    | some root =>
        have hstripped :
            rootType? context.schema (.operation operation.stripTooling) = some root := hroot
        rw [dataShape_of_root context hroot,
          dataShape_of_root { context with fragments := other } hstripped]
        exact congrArg _ (hentries root)
  rw [responseShape, responseShape, hdata]

/-- **The declared type and the sent query agree.** Where the persistable text of an operation is
read back as the definitions printed into it, projecting the text alone gives what projecting the
operation in its document gives, and the text has every fragment that the operation leads to. -/
theorem projectText_persistableOperation (schema : Schema) (scalars : ScalarTable)
    (document : Document) (operation : Operation)
    (hparse : Document.parse (persistableOperation document operation).value.text =
      .ok (persistedDefinitions document operation)) :
    projectText schema scalars (persistableOperation document operation).value.text =
        some (responseShape ⟨schema, document.lastFragments, scalars⟩ (.operation operation)) ∧
      ∀ fragment, Reaches document.lastFragments operation.selections fragment →
        fragment ∈ (persistableOperation document operation).value.fragments := by
  obtain ⟨htable, hnodup, hall⟩ := neededFragments_spec document.lastFragments operation
  have hperm := fragments_persistableOperation_perm document operation
  have hagree : AgreeFrom document.lastFragments
      (persistedDefinitions document operation).lastFragments operation.selections := by
    rw [lastFragments_persistedDefinitions]
    apply agreeFrom_of_needed
    · intro fragment hmem
      exact htable fragment (hperm.mem_iff.mp (List.mem_reverse.mp hmem))
    · rw [List.map_reverse, (List.reverse_perm _).nodup_iff, (hperm.map Fragment.name).nodup_iff]
      exact hnodup
    · intro fragment hreach
      exact List.mem_reverse.mpr (hperm.mem_iff.mpr (hall fragment hreach))
  -- the table of the text is the sorted list backwards, in which no name repeats
  refine ⟨?_, fun fragment hreach => hperm.mem_iff.mpr (hall fragment hreach)⟩
  have hfirst : (persistedDefinitions document operation).executables.head? =
      some (.operation operation.stripTooling) := rfl
  rw [projectText, hparse]
  simp only [hfirst, Option.map_some]
  rw [responseShape_stripTooling_congr ⟨schema, document.lastFragments, scalars⟩ _ operation hagree]

namespace FriendsDocument

/-- Spreads a fragment, next to a directive for tools. -/
def operation : Operation :=
  ⟨none, .query, none, [], [],
    [.field ⟨none, "me", [], [⟨"netlify", []⟩]⟩ (some [.spread "F" []])]⟩

def fragment (rest : List Selection) : Fragment :=
  ⟨none, "F", "User", [], .field ⟨none, "id", [], []⟩ none :: rest⟩

/-- Two fragments have the name `F`. The second one counts; it spreads itself and a fragment that
nobody knows. -/
def document : Document :=
  [.executable (.fragment (fragment [])), .executable (.operation operation),
    .executable (.fragment (fragment [.spread "F" [], .spread "G" []]))]

theorem neededFragments_eq :
    (neededFragments document.lastFragments operation).value =
      [fragment [.spread "F" [], .spread "G" []]] := by
  have htable : document.lastFragments =
      [fragment [.spread "F" [], .spread "G" []], fragment []] := rfl
  simp [neededFragments, htable, reachAtOnce_cons, reachAtOnce, FragmentTable.get?, spreadNames,
    Selection.spreads, operation, fragment]

def text : String :=
  "\x7b\n  me \x7b\n    ...F\n  \x7d\n\x7d\n\nfragment F on User \x7b\n  id\n  ...F\n  ...G\n\x7d"

theorem fragments_eq :
    (persistableOperation document operation).value.fragments =
      [fragment [.spread "F" [], .spread "G" []]] := by
  have hsorted : (persistableOperation document operation).value.fragments =
      sortByName Fragment.name (neededFragments document.lastFragments operation).value := rfl
  rw [hsorted, neededFragments_eq, sortByName, List.mergeSort_singleton]

theorem text_eq : (persistableOperation document operation).value.text = text := by
  have hparts : (persistableOperation document operation).value.text =
      "\n\n".intercalate (operation.stripTooling.print ::
        (persistableOperation document operation).value.fragments.map Fragment.print) := rfl
  rw [hparts, fragments_eq]
  rfl

theorem parse_text :
    Document.parse (persistableOperation document operation).value.text =
      .ok (persistedDefinitions document operation) := by
  rw [text_eq, persistedDefinitions, fragments_eq]
  decide +kernel

def schema : Schema :=
  ⟨[⟨"Query", none, .object [] [⟨"me", none, [], .named "User"⟩]⟩,
    ⟨"User", none, .object [] [⟨"id", none, [], .nonNull (.named "ID")⟩]⟩, .scalar "ID"],
    some "Query", none, none, []⟩

/-- The text of the operation projects as the operation does in its document, though the fragment
that it spreads leads back to itself. -/
theorem projectText_operation :
    Document.parse (persistableOperation document operation).value.text =
        .ok (persistedDefinitions document operation) ∧
      projectText schema .standard (persistableOperation document operation).value.text =
          some (responseShape ⟨schema, document.lastFragments, .standard⟩ (.operation operation)) ∧
        ∀ fragment, Reaches document.lastFragments operation.selections fragment →
          fragment ∈ (persistableOperation document operation).value.fragments :=
  ⟨parse_text, projectText_persistableOperation schema .standard document operation parse_text⟩

end FriendsDocument

end OperationLibrary
