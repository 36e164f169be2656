import Mathlib.Data.List.Forall2
import OperationLibrary.Proofs.ExtractedDefinitions
import OperationLibrary.Proofs.KeyedSort
import OperationLibrary.Proofs.MatchingDeclarations

/-!
Which functions are exported under one name. The first letter of the name tells the kind of the
operation, and behind it and the rest of its prefix stands the name of the operation, with a capital
where the function sends it. The functions themselves are those of all operations with names, once
each and in the order of their ids.
-/

namespace OperationLibrary

open Syntax

/-! ### Names -/

/-- The letter that names of functions for a kind of operation start with. -/
def kindLetter : OperationKind → Char
  | .query => 'f'
  | .mutation => 'e'
  | .subscription => 'p'

theorem kindLetter_injective : Function.Injective kindLetter := by
  intro kind other h
  cases kind <;> cases other <;> first | rfl | exact absurd h (by decide)

theorem head?_invokedName (kind : OperationKind) (name : String) :
    (invokedName kind name).toList.head? = some (kindLetter kind) := by
  cases kind <;> simp [invokedName, calledName, functionPrefix, OperationKind.keyword, kindLetter]

/-- The operations are called the same, but for the case of the first letter where the function
sends them. -/
def NamesCollide (kind : OperationKind) (name other : String) : Prop :=
  name = other ∨ kind ≠ .subscription ∧ Text.capitalizeFirst name = Text.capitalizeFirst other

theorem invokedName_inj_of_kind (kind : OperationKind) (name other : String) :
    invokedName kind name = invokedName kind other ↔ NamesCollide kind name other := by
  by_cases hevents : kind = .subscription
  · simp [invokedName, NamesCollide, hevents, ← String.toList_inj]
  · have hnames : name = other → Text.capitalizeFirst name = Text.capitalizeFirst other :=
      congrArg _
    simpa [invokedName, calledName, NamesCollide, hevents, ← String.toList_inj] using
      fun h => congrArg String.toList (hnames (String.toList_inj.mp h))

/-- Names for different kinds are different, since their first letters are. -/
theorem invokedName_eq_iff (kind otherKind : OperationKind) (name other : String) :
    invokedName kind name = invokedName otherKind other ↔
      kind = otherKind ∧ NamesCollide kind name other := by
  constructor
  · intro h
    have hletter : kindLetter kind = kindLetter otherKind := by
      have hheads := congrArg (fun text : String => text.toList.head?) h
      simpa [head?_invokedName] using hheads
    obtain rfl := kindLetter_injective hletter
    exact ⟨rfl, (invokedName_inj_of_kind kind name other).mp h⟩
  · rintro ⟨rfl, h⟩
    exact (invokedName_inj_of_kind kind name other).mpr h

/-! ### The list of functions -/

theorem Settled.forall₂_of_mapM {α β : Type} {f : α → Settled β} {xs : List α} {ys : List β}
    (h : (xs.mapM f).run.value = .ok ys) :
    List.Forall₂ (fun x y => (f x).run.value = .ok y) xs ys := by
  induction xs generalizing ys with
  | nil =>
      obtain rfl := Except.ok.inj h
      exact .nil
  | cons x xs ih =>
      rw [List.mapM_cons] at h
      obtain ⟨y, hy, h⟩ := ok_of_bind h
      obtain ⟨others, hothers, h⟩ := ok_of_bind h
      obtain rfl := Except.ok.inj h
      exact .cons hy (ih hothers)

/-- Whether a function can be named after the operation. -/
def AnnotatedOperation.hasName (source : AnnotatedOperation) : Bool :=
  source.operation.name.any (· != "")

section

variable {context : SelectionContext} {source : AnnotatedOperation}

/-- A function that is made of an operation is named after it. -/
theorem named_of_libraryFunction? {function : LibraryFunction}
    (h : (libraryFunction? context source).run.value = .ok (some function)) :
    source.hasName = true ∧ function.source = source ∧
      ∃ given, source.operation.name = some given ∧
        function.name = calledName source.operation.kind.keyword given := by
  cases hname : functionName source.operation.kind.keyword source.operation.name with
  | error missing =>
      unfold libraryFunction? at h
      simp only [hname] at h
      exact nomatch Except.ok.inj h
  | ok name =>
      obtain ⟨made, hmade, hsource, hcalled, -⟩ := libraryFunction?_of_named hname h
      obtain rfl := Option.some.inj hmade
      obtain ⟨given, hgiven, rfl⟩ := exists_of_functionName hname
      refine ⟨?_, hsource, given, hgiven, hcalled⟩
      rw [AnnotatedOperation.hasName, hgiven]
      rw [hgiven] at hname
      by_cases hempty : given = ""
      · subst hempty
        cases hname
      · simpa using hempty

/-- Where there is no function, it could not be named. -/
theorem hasName_of_libraryFunction?_none
    (h : (libraryFunction? context source).run.value = .ok none) : source.hasName = false := by
  cases hname : functionName source.operation.kind.keyword source.operation.name with
  | ok name =>
      obtain ⟨made, hmade, -⟩ := libraryFunction?_of_named hname h
      cases hmade
  | error missing =>
      unfold functionName at hname
      split at hname
      case h_1 hnone => simp [AnnotatedOperation.hasName, hnone]
      case h_2 hempty => simp [AnnotatedOperation.hasName, hempty]
      case h_3 => cases hname

/-- The functions of operations are those of the ones with names, in their order. -/
theorem map_source_reduceOption {sources : List AnnotatedOperation}
    {made : List (Option LibraryFunction)}
    (h : List.Forall₂ (fun source function? =>
      (libraryFunction? context source).run.value = .ok function?) sources made) :
    made.reduceOption.map LibraryFunction.source = sources.filter AnnotatedOperation.hasName := by
  induction h with
  | nil => rfl
  | @cons source function? sources made hfunction _ ih =>
      cases function? with
      | none =>
          rw [List.reduceOption_cons_of_none, ih,
            List.filter_cons_of_neg (by simp [hasName_of_libraryFunction?_none hfunction])]
      | some function =>
          obtain ⟨hnamed, hsource, -⟩ := named_of_libraryFunction? hfunction
          rw [List.reduceOption_cons_of_some, List.map_cons, hsource, ih,
            List.filter_cons_of_pos hnamed]

end

section

variable {context : SelectionContext} {topic : Topic} {supply : IdSupply} {document : Document}
  {functions : List LibraryFunction} {types : List LibraryType}

/-- The ids of extracted operations are the keys of their table. -/
theorem nodup_ids_functions :
    (((extractAnnotations topic supply document).value.functions.map Prod.snd).map
      (·.tag.id)).Nodup := by
  have hkeys : ((extractAnnotations topic supply document).value.functions.map Prod.snd).map
      (·.tag.id) = (extractAnnotations topic supply document).value.functions.map Prod.fst := by
    rw [List.map_map]
    refine List.map_congr_left fun ⟨id, entry⟩ hentry => ?_
    obtain ⟨tag, rfl, -, hannotated⟩ := exists_of_mem_functions hentry
    exact congrArg (·.tag.id) hannotated
  rw [hkeys, value_extractAnnotations]
  exact Keyed.nodup_ofList _

/-- **Exported functions and their names.** The functions of a document are those of the extracted
operations with names, each once, in strictly ascending order of their ids. Each is exported under
the name for its kind and the name of its operation, and two of them are exported under one name if
and only if they have the same kind and their operations are called the same, but for the case of
the first letter where the functions send them. -/
theorem exported_names_collide_iff
    (h : (libraryMembers context (extractAnnotations topic supply document).value).run.value =
      .ok (functions, types)) :
    let extracted := (extractAnnotations topic supply document).value.functions.map Prod.snd
    (functions.map LibraryFunction.source).Perm (extracted.filter AnnotatedOperation.hasName) ∧
      functions.Pairwise (fun function other => function.id < other.id) ∧
      (∀ function ∈ functions, function.source.operation.name = some function.operationName ∧
        function.exportedName = invokedName function.kind function.operationName) ∧
      ∀ function ∈ functions, ∀ other ∈ functions,
        (function.exportedName = other.exportedName ↔ function.kind = other.kind ∧
          NamesCollide function.kind function.operationName other.operationName) := by
  intro extracted
  obtain ⟨types, -, hmembers⟩ := Settled.ok_of_bind h
  obtain ⟨made, hmade, hmembers⟩ := Settled.ok_of_bind hmembers
  obtain ⟨rfl, rfl⟩ := Prod.mk.inj (Except.ok.inj hmembers)
  have hsources := map_source_reduceOption (Settled.forall₂_of_mapM hmade)
  have hnames : ∀ function ∈ made.reduceOption,
      function.source.operation.name = some function.operationName ∧
        function.exportedName = invokedName function.kind function.operationName := by
    intro function hmem
    obtain ⟨id, entry, hentry, hfunction⟩ := (mem_libraryMembers h).1 function hmem
    obtain ⟨tag, -, -, hannotated⟩ := exists_of_mem_functions hentry
    obtain ⟨-, rfl, given, hgiven, hcalled⟩ := named_of_libraryFunction? hfunction
    have hname : function.operationName = given := by
      rw [LibraryFunction.operationName, hannotated]
      exact congrArg (·.getD unknownName) hgiven
    refine ⟨hname ▸ hgiven, ?_⟩
    simp only [LibraryFunction.exportedName, invokedName, LibraryFunction.isSubscription,
      LibraryRuntime.eventFunctionName, beq_iff_eq, hcalled, hname]
    rfl
  refine ⟨?_, ?_, hnames, fun function hfunction other hother => ?_⟩
  · rw [hsources]
    exact (List.mergeSort_perm _ _).filter _
  · have hsorted : (sortById (·.tag.id) extracted).Pairwise fun source other =>
        source.tag.id < other.tag.id :=
      pairwise_lt_mergeSort_key (fun _ _ => decide_eq_true_iff) nodup_ids_functions
    have hnamed := hsorted.filter AnnotatedOperation.hasName
    rw [← hsources, List.pairwise_map] at hnamed
    exact hnamed
  · rw [(hnames function hfunction).2, (hnames other hother).2, invokedName_eq_iff]

end

namespace CollidingQueries

open EventsOfSubscription (generator answerText)

/-- A query with this id and this name. -/
def operation (id name : String) : Operation :=
  ⟨none, .query, some name, [], [⟨"netlify", [⟨"id", .string id false⟩]⟩],
    [.field ⟨none, "a", [], []⟩ none]⟩

def document : Document :=
  [.executable (.operation (operation "2" "people")),
    .executable (.operation (operation "1" "People"))]

def annotated (id name : String) : AnnotatedOperation :=
  annotatedOperation document ⟨id, "", .dynamic⟩ (operation id name)

def function (id name : String) : LibraryFunction :=
  ⟨annotated id name, calledName "query" name,
    SourceText.templateLiteralText (annotated id name).persistableText, answerText, "\x7b\x7d", []⟩

theorem libraryFunction?_eq {id name : String}
    (hname : functionName "query" (some name) = .ok (calledName "query" name)) :
    (libraryFunction? ((generator .node).context document.lastFragments)
      (annotated id name)).run.value = .ok (some (function id name)) := by
  have hcalled : functionName (annotated id name).operation.kind.keyword
      (annotated id name).operation.name = .ok (calledName "query" name) := hname
  have hinputs : (variablesShape (generator .node).schema .standard
      (operation id name)).settle.run.value = .ok (.object [] none) := rfl
  exact libraryFunction?_of_shapes hcalled hinputs
    (SampleAnswer.responseShape_eq rfl rfl rfl rfl rfl) SampleAnswer.signature_shape rfl

theorem libraryMembers_eq :
    (libraryMembers ((generator .node).context document.lastFragments)
      (extractAnnotations .generation (generator .node).ids document).value).run.value =
        .ok ([function "1" "People", function "2" "people"], []) := by
  let called := libraryFunction? ((generator .node).context document.lastFragments)
  have hfound : (extractAnnotations .generation (generator .node).ids document).value =
      ⟨[("2", annotated "2" "people"), ("1", annotated "1" "People")], []⟩ :=
    value_extractAnnotations .generation _ document
  have hsorted : sortById (·.tag.id) [annotated "2" "people", annotated "1" "People"] =
      [annotated "1" "People", annotated "2" "people"] := by
    refine (sortById_eq_of_perm ?_ (List.Perm.swap _ _ _)).trans
      (List.mergeSort_of_pairwise (List.pairwise_pair.mpr ?_))
    · decide
    · decide
  have hlast : ([annotated "2" "people"].mapM called).run.value =
      .ok [some (function "2" "people")] := by
    rw [List.mapM_cons]
    exact Settled.bind_of_ok (libraryFunction?_eq rfl) _
  have hboth : ([annotated "1" "People", annotated "2" "people"].mapM called).run.value =
      .ok [some (function "1" "People"), some (function "2" "people")] := by
    rw [List.mapM_cons]
    refine (Settled.bind_of_ok (libraryFunction?_eq rfl) _).trans ?_
    exact Settled.bind_of_ok hlast _
  have htypes : ((sortById (·.tag.id) ([] : List AnnotatedFragment)).mapM (libraryType
      ((generator .node).context document.lastFragments))).run.value = .ok [] := by
    rw [sortById, List.mergeSort_nil]
    rfl
  rw [hfound]
  simp only [libraryMembers, List.map_cons, List.map_nil, hsorted]
  refine (Settled.bind_of_ok htypes _).trans ?_
  exact Settled.bind_of_ok hboth _

/-- Two queries that a capital tells apart are exported under one name. -/
theorem people_exported_twice :
    (libraryMembers ((generator .node).context document.lastFragments)
      (extractAnnotations .generation (generator .node).ids document).value).run.value =
        .ok ([function "1" "People", function "2" "people"], []) ∧
      (function "1" "People").exportedName = (function "2" "people").exportedName := by
  refine ⟨libraryMembers_eq, ?_⟩
  have hcollide := (exported_names_collide_iff libraryMembers_eq).2.2.2 (function "1" "People")
    (by simp) (function "2" "people") (by simp)
  exact hcollide.mpr ⟨rfl, .inr ⟨by decide, by decide⟩⟩

end CollidingQueries

end OperationLibrary
