import OperationLibrary.Proofs.AnnotationTables
import OperationLibrary.Proofs.KeyedTables

/-!
What is taken out of a document. Every annotated definition gets an id, a given one or the next one
that is supplied, and each table has the last definition of every id in the place of the first. A
definition that takes the place of another one is reported, so definitions, entries and reports add
up.
-/

namespace OperationLibrary

open Syntax

/-! ### Ids -/

namespace Syntax.Executable

/-- Whether an id has to be supplied for a definition. -/
def lacksId (definition : Executable) : Bool :=
  definition.isAnnotated && definition.givenId?.isNone

/-- What the annotation of a definition says, with this id. -/
def tagWith (topic : Topic) (id : String) (definition : Executable) : Tag :=
  let directive := findDirective definition.directives annotationDirective
  { id := id
    description := (directive.bind (·.string? "doc")).getD ""
    strategy := (readStrategy topic (directive.bind (·.enum? "executionStrategy"))).value }

end Syntax.Executable

/-- The id of a definition behind these ones: the given one, or the supplied one whose number is
how many had to be supplied before. -/
def idBehind (supply : IdSupply) (before : List Executable) (definition : Executable) : String :=
  definition.givenId?.getD (supply (before.countP Executable.lacksId))

/-- The annotated definitions of a document with their ids, in source order. -/
def withIds (supply : IdSupply) (definitions : List Executable) : List (String × Executable) :=
  (definitions.mapIdx fun place definition =>
    (idBehind supply (definitions.take place) definition, definition)).filter (·.2.isAnnotated)

/-- Reading an annotation without an id takes the next one that is supplied. -/
theorem value_readTag (topic : Topic) (supply : IdSupply) (next : Nat) {definition : Executable}
    {directive : Directive}
    (hdirective : findDirective definition.directives annotationDirective = some directive) :
    (readTag topic supply next directive).value =
      (definition.tagWith topic (definition.givenId?.getD (supply next)),
        next + if definition.lacksId then 1 else 0) := by
  have hannotated : definition.isAnnotated = true := by
    simp [Executable.isAnnotated, hdirective]
  have hgiven : definition.givenId? = directive.string? "id" := by
    simp [Executable.givenId?, hdirective]
  rw [Executable.lacksId, hannotated, hgiven]
  cases hid : directive.string? "id" <;> simp [readTag, hid, Executable.tagWith, hdirective]

/-- Definitions behind others are tagged with their ids. -/
theorem tagged_eq (topic : Topic) (supply : IdSupply) (before definitions : List Executable) :
    tagged topic supply (before.countP Executable.lacksId) definitions =
      ((definitions.mapIdx fun place definition =>
        (idBehind supply (before ++ definitions.take place) definition, definition)).filter
          (·.2.isAnnotated)).map fun entry => (entry.2.tagWith topic entry.1, entry.2) := by
  induction definitions generalizing before with
  | nil => rfl
  | cons definition rest ih =>
      have hrest := ih (before ++ [definition])
      simp only [List.append_assoc, List.singleton_append, List.countP_append,
        List.countP_singleton] at hrest
      rw [tagged, List.mapIdx_cons]
      simp only [List.take_zero, List.append_nil, List.take_succ_cons]
      cases hdirective : findDirective definition.directives annotationDirective with
      | none =>
          have hplain : definition.isAnnotated = false := by
            simp [Executable.isAnnotated, hdirective]
          rw [List.filter_cons_of_neg (by simp [hplain])]
          simpa [Executable.lacksId, hplain] using hrest
      | some directive =>
          have hannotated : definition.isAnnotated = true := by
            simp [Executable.isAnnotated, hdirective]
          simp only [value_readTag topic supply _ hdirective, hrest, List.filter_cons, hannotated,
            if_true, List.map_cons]
          rfl

/-! ### Reports -/

/-- The notice says that an id is used again. -/
def Notice.ReportsDuplicate (notice : Notice) : Prop :=
  notice.severity = .warning ∧
    ("Duplicate function id ".toList <+: notice.text.toList ∨
      "Duplicate fragment id ".toList <+: notice.text.toList)

instance : DecidablePred Notice.ReportsDuplicate := fun _ =>
  inferInstanceAs (Decidable (_ ∧ _))

/-- How many notices say that an id is used again. -/
def duplicateReports (notices : List Notice) : Nat :=
  notices.countP fun notice => notice.ReportsDuplicate

theorem duplicateReports_append (notices more : List Notice) :
    duplicateReports (notices ++ more) = duplicateReports notices + duplicateReports more :=
  List.countP_append

theorem duplicateReports_eq_zero {notices : List Notice}
    (h : ∀ notice ∈ notices, notice.text.toList.head? ≠ some 'D') :
    duplicateReports notices = 0 := by
  rw [duplicateReports, List.countP_eq_zero]
  intro notice hnotice hduplicate
  refine h notice hnotice ?_
  obtain ⟨-, ⟨rest, hrest⟩ | ⟨rest, hrest⟩⟩ := of_decide_eq_true hduplicate
  · rw [← hrest]
    rfl
  · rw [← hrest]
    rfl

theorem duplicateReports_readStrategy (topic : Topic) (word : Option String) :
    duplicateReports (readStrategy topic word).notices = 0 := by
  unfold readStrategy
  split
  · rfl
  · rfl
  · rfl
  · refine duplicateReports_eq_zero fun notice hnotice => ?_
    obtain rfl := List.mem_singleton.mp hnotice
    simp

theorem duplicateReports_readTag (topic : Topic) (supply : IdSupply) (next : Nat)
    (directive : Directive) :
    duplicateReports (readTag topic supply next directive).notices = 0 := by
  have hnotices : (readTag topic supply next directive).notices =
      (readStrategy topic (directive.enum? "executionStrategy")).notices := List.append_nil _
  rw [hnotices, duplicateReports_readStrategy]

theorem duplicateReports_reachAtOnce (table : FragmentTable) (found : List Fragment)
    (pending : List String) : duplicateReports (reachAtOnce table found pending).notices = 0 := by
  refine duplicateReports_eq_zero ?_
  fun_induction reachAtOnce table found pending with
  | case1 found => simp
  | case2 found name rest hknown ih => exact ih
  | case3 found name rest hfresh hnone ih =>
      intro notice hnotice
      rcases List.mem_append.mp hnotice with hnotice | hnotice
      · obtain rfl := List.mem_singleton.mp hnotice
        simp
      · exact ih notice hnotice
  | case4 found name rest hfresh fragment hsome ih => exact ih

theorem duplicateReports_persistableOperation (document : Document) (operation : Operation) :
    duplicateReports (persistableOperation document operation).notices = 0 := by
  have hnotices : (persistableOperation document operation).notices =
      (neededFragments document.lastFragments operation).notices := List.append_nil _
  rw [hnotices]
  exact duplicateReports_reachAtOnce _ _ _

theorem duplicateReports_warnDuplicate (topic : Topic) {what : String}
    (hwhat : what = "function" ∨ what = "fragment") (id kept : String) (known : Bool) :
    duplicateReports (warnDuplicate topic what id kept known).notices = if known then 1 else 0 := by
  cases known with
  | false => rfl
  | true =>
      have hreports : Notice.ReportsDuplicate
          ⟨.warning, topic, "Duplicate " ++ what ++ " id " ++ id ++ ", keeping " ++ kept⟩ := by
        refine ⟨rfl, ?_⟩
        rcases hwhat with rfl | rfl
        · exact .inl ⟨(id ++ ", keeping " ++ kept).toList, by simp [String.toList_append]⟩
        · exact .inr ⟨(id ++ ", keeping " ++ kept).toList, by simp [String.toList_append]⟩
      simp [warnDuplicate, Logged.warn, Logged.note, duplicateReports, hreports]

/-- How many definitions the tables hold. -/
def Annotations.size (found : Annotations) : Nat :=
  found.functions.length + found.fragments.length

section

variable (topic : Topic) (supply : IdSupply) (document : Document)

/-- Every annotated definition is a new entry or a report. -/
theorem duplicateReports_add (state : Annotations × Nat) (definition : Executable) :
    let added := Annotations.add topic supply document state definition
    duplicateReports added.notices + added.value.1.size =
      state.1.size + if definition.isAnnotated then 1 else 0 := by
  obtain ⟨found, next⟩ := state
  dsimp only
  unfold Annotations.add
  cases hdirective : findDirective definition.directives annotationDirective with
  | none => simp [Executable.isAnnotated, hdirective, duplicateReports]
  | some directive =>
      have hannotated : definition.isAnnotated = true := by
        simp [Executable.isAnnotated, hdirective]
      cases definition with
      | fragment fragment =>
          simp only [bind_pure_comp, Logged.notices_bind, Logged.notices_map, Logged.value_bind,
            Logged.value_map, duplicateReports_append, duplicateReports_readTag, or_true,
            duplicateReports_warnDuplicate, Annotations.size, Keyed.length_set, hannotated, if_true]
          split <;> omega
      | operation operation =>
          simp only [bind_pure_comp, Logged.notices_bind, Logged.notices_map, Logged.value_bind,
            Logged.value_map, duplicateReports_append, duplicateReports_readTag, true_or,
            duplicateReports_warnDuplicate, duplicateReports_persistableOperation,
            Annotations.size, Keyed.length_set, hannotated, if_true]
          split <;> omega

theorem duplicateReports_foldlM_add (definitions : List Executable) (state : Annotations × Nat) :
    let run := definitions.foldlM (Annotations.add topic supply document) state
    duplicateReports run.notices + run.value.1.size =
      state.1.size + definitions.countP Executable.isAnnotated := by
  induction definitions generalizing state with
  | nil => simp [duplicateReports]
  | cons definition rest ih =>
      have hfirst := duplicateReports_add topic supply document state definition
      have hrest := ih (Annotations.add topic supply document state definition).value
      dsimp only at hfirst hrest ⊢
      rw [List.foldlM_cons, Logged.notices_bind, Logged.value_bind, duplicateReports_append,
        List.countP_cons]
      omega

/-- The number of ids that are supplied. -/
theorem snd_foldlM_add (definitions : List Executable) (state : Annotations × Nat) :
    (definitions.foldlM (Annotations.add topic supply document) state).value.2 =
      state.2 + definitions.countP Executable.lacksId := by
  induction definitions generalizing state with
  | nil => rfl
  | cons definition rest ih =>
      obtain ⟨found, next⟩ := state
      have hfirst : (Annotations.add topic supply document (found, next) definition).value.2 =
          next + if definition.lacksId then 1 else 0 := by
        rw [Annotations.value_add]
        cases hdirective : findDirective definition.directives annotationDirective with
        | none => simp [Executable.lacksId, Executable.isAnnotated, hdirective]
        | some directive => simp [value_readTag topic supply next hdirective]
      rw [List.foldlM_cons, Logged.value_bind, ih, hfirst, List.countP_cons]
      dsimp only
      omega

end

/-! ### Extraction -/

/-- The tables of a document, and how many ids were supplied for them. -/
def extraction (topic : Topic) (supply : IdSupply) (document : Document) :
    Logged (Annotations × Nat) :=
  document.executables.foldlM (Annotations.add topic supply document)
    ((⟨[], []⟩ : Annotations), 0)

/-- The function of a definition with an id, if it is an operation. -/
def functionUnder? (topic : Topic) (document : Document) (entry : String × Executable) :
    Option (String × AnnotatedOperation) :=
  entry.2.operation?.map fun operation =>
    (entry.1, annotatedOperation document (entry.2.tagWith topic entry.1) operation)

/-- The type of a definition with an id, if it is a fragment. -/
def typeUnder? (topic : Topic) (entry : String × Executable) :
    Option (String × AnnotatedFragment) :=
  entry.2.fragment?.map fun fragment =>
    (entry.1, annotatedFragment (entry.2.tagWith topic entry.1) fragment)

/-- The tables are filled with the annotated definitions under their ids. -/
theorem value_extraction (topic : Topic) (supply : IdSupply) (document : Document) :
    let definitions := withIds supply document.executables
    (extraction topic supply document).value.1 =
      ⟨Keyed.ofList (definitions.filterMap (functionUnder? topic document)),
        Keyed.ofList (definitions.filterMap (typeUnder? topic))⟩ := by
  intro definitions
  have htagged : tagged topic supply 0 document.executables =
      definitions.map fun entry => (entry.2.tagWith topic entry.1, entry.2) :=
    tagged_eq topic supply [] document.executables
  have hfunctions : (operationEntryOf document ∘ fun entry : String × Executable =>
      (entry.2.tagWith topic entry.1, entry.2)) = functionUnder? topic document := by
    funext entry
    obtain ⟨id, operation | fragment⟩ := entry <;> rfl
  have htypes : (fragmentEntryOf ∘ fun entry : String × Executable =>
      (entry.2.tagWith topic entry.1, entry.2)) = typeUnder? topic := by
    funext entry
    obtain ⟨id, operation | fragment⟩ := entry <;> rfl
  refine (value_extractAnnotations topic supply document).trans ?_
  dsimp only
  rw [htagged, List.filterMap_map, List.filterMap_map, hfunctions, htypes]

/-- **Extraction loses nothing but what is replaced.** The annotated operations and fragments of a
document have their ids, given ones or the ones supplied in source order, each as often as one is
missing. Each table has one entry for every id among them, that of the last definition with it, in
the order of their first occurrences. Every annotated definition that has no entry of its own is
reported. -/
theorem extraction_exact (topic : Topic) (supply : IdSupply) (document : Document) :
    let definitions := withIds supply document.executables
    let found := (extractAnnotations topic supply document).value
    extractAnnotations topic supply document = Prod.fst <$> extraction topic supply document ∧
      Keyed.HoldsLatest (definitions.filterMap (functionUnder? topic document)) found.functions ∧
      Keyed.HoldsLatest (definitions.filterMap (typeUnder? topic)) found.fragments ∧
      (extraction topic supply document).value.2 =
        document.executables.countP Executable.lacksId ∧
      duplicateReports (extractAnnotations topic supply document).notices +
          (found.functions.length + found.fragments.length) =
        document.executables.countP Executable.isAnnotated := by
  have hextract : extractAnnotations topic supply document =
      Prod.fst <$> extraction topic supply document := rfl
  have hcount := duplicateReports_foldlM_add topic supply document document.executables
    (⟨[], []⟩, 0)
  intro definitions found
  have hfound : found = _ := value_extraction topic supply document
  refine ⟨hextract, ?_, ?_, ?_, ?_⟩
  · rw [hfound]
    exact Keyed.holdsLatest_ofList _
  · rw [hfound]
    exact Keyed.holdsLatest_ofList _
  · exact (snd_foldlM_add topic supply document _ _).trans (Nat.zero_add _)
  · rw [hextract, Logged.notices_map]
    exact hcount.trans (Nat.zero_add _)

end OperationLibrary
