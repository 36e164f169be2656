import Mathlib.Data.List.Infix
import Mathlib.Data.List.ReduceOption
import OperationLibrary.Library.Generator
import OperationLibrary.Proofs.ComputedEquality
import OperationLibrary.Proofs.SelectionProjection
import OperationLibrary.Proofs.TemplateLiteral

/-!
The text that the runtime sends for an operation. The function of an operation has its persistable
text as a template literal, and the blank lines of the finished file are shrunk after that, the ones
of the text among them. So the runtime sends the text with shrunk blank lines: the text itself
exactly if no three line feeds are in a row in it.
-/

namespace OperationLibrary

open Syntax SourceText Text

/-! ### Settled values -/

namespace Settled

variable {α β : Type}

theorem ok_of_bind {x : Settled α} {f : α → Settled β} {b : β}
    (h : (x >>= f).run.value = .ok b) :
    ∃ a, x.run.value = .ok a ∧ (f a).run.value = .ok b := by
  change (ExceptT.bindCont f x.run.value).value = .ok b at h
  cases hx : x.run.value with
  | error fault => rw [hx] at h; exact nomatch h
  | ok a => rw [hx] at h; exact ⟨a, rfl, h⟩

theorem bind_of_ok {x : Settled α} {a : α} (h : x.run.value = .ok a) (f : α → Settled β) :
    (x >>= f).run.value = (f a).run.value := by
  change (ExceptT.bindCont f x.run.value).value = _
  rw [h]
  rfl

theorem mem_of_mapM {f : α → Settled β} {xs : List α} {ys : List β}
    (h : (xs.mapM f).run.value = .ok ys) {y : β} (hy : y ∈ ys) :
    ∃ x ∈ xs, (f x).run.value = .ok y := by
  induction xs generalizing ys with
  | nil =>
      obtain rfl := Except.ok.inj h
      exact nomatch hy
  | cons x xs ih =>
      rw [List.mapM_cons] at h
      obtain ⟨first, hfirst, h⟩ := ok_of_bind h
      obtain ⟨others, hothers, h⟩ := ok_of_bind h
      obtain rfl := Except.ok.inj h
      rcases List.mem_cons.mp hy with rfl | hy
      · exact ⟨x, List.mem_cons_self, hfirst⟩
      · obtain ⟨x', hx', hf⟩ := ih hothers hy
        exact ⟨x', List.mem_cons_of_mem _ hx', hf⟩

theorem exists_of_mapM {f : α → Settled β} {xs : List α} {ys : List β}
    (h : (xs.mapM f).run.value = .ok ys) {x : α} (hx : x ∈ xs) :
    ∃ y ∈ ys, (f x).run.value = .ok y := by
  induction xs generalizing ys with
  | nil => cases hx
  | cons first rest ih =>
      rw [List.mapM_cons] at h
      obtain ⟨y, hy, h⟩ := ok_of_bind h
      obtain ⟨others, hothers, h⟩ := ok_of_bind h
      obtain rfl := Except.ok.inj h
      rcases List.mem_cons.mp hx with rfl | hx
      · exact ⟨y, List.mem_cons_self, hy⟩
      · obtain ⟨y', hy', hf⟩ := ih hothers hx
        exact ⟨y', List.mem_cons_of_mem _ hy', hf⟩

end Settled

/-! ### The functions of a library -/

namespace LibraryFunction

/-- A function has the persistable text of its operation as a template literal. -/
def CarriesText (function : LibraryFunction) : Prop :=
  function.body = templateLiteralText function.source.persistableText

end LibraryFunction

/-- An operation whose function can be named has one. -/
theorem libraryFunction?_of_named {context : SelectionContext} {source : AnnotatedOperation}
    {name : String} {result : Option LibraryFunction}
    (hname : functionName source.operation.kind.keyword source.operation.name = .ok name)
    (h : (libraryFunction? context source).run.value = .ok result) :
    ∃ function, result = some function ∧ function.source = source ∧ function.name = name ∧
      function.CarriesText := by
  unfold libraryFunction? at h
  simp only [hname] at h
  obtain ⟨inputs, -, h⟩ := Settled.ok_of_bind h
  obtain ⟨answer, -, h⟩ := Settled.ok_of_bind h
  obtain ⟨answerSignature, -, h⟩ := Settled.ok_of_bind h
  obtain ⟨variablesText, -, h⟩ := Settled.ok_of_bind h
  obtain rfl := Except.ok.inj h
  exact ⟨_, rfl, rfl, rfl, rfl⟩

theorem of_libraryFunction? {context : SelectionContext} {source : AnnotatedOperation}
    {function : LibraryFunction}
    (h : (libraryFunction? context source).run.value = .ok (some function)) :
    function.source = source ∧ function.CarriesText := by
  cases hname : functionName source.operation.kind.keyword source.operation.name with
  | error missing =>
      unfold libraryFunction? at h
      simp only [hname] at h
      exact nomatch Except.ok.inj h
  | ok name =>
      obtain ⟨made, hmade, hsource, -, hcarries⟩ := libraryFunction?_of_named hname h
      obtain rfl := Option.some.inj hmade
      exact ⟨hsource, hcarries⟩

/-- The function of an operation is made of its name and its shapes. -/
theorem libraryFunction?_of_shapes {context : SelectionContext} {source : AnnotatedOperation}
    {name answerSignature variablesText : String} {inputs answer : Shape}
    (hname : functionName source.operation.kind.keyword source.operation.name = .ok name)
    (hinputs : (variablesShape context.schema context.scalars
      source.operation).settle.run.value = .ok inputs)
    (hanswer : responseShape context (.operation source.operation) = ⟨answer, [], none⟩)
    (hsignature : answer.signature = .ok answerSignature)
    (hvariables : variablesSignature inputs = .ok variablesText) :
    (libraryFunction? context source).run.value =
      .ok (some ⟨source, name, templateLiteralText source.persistableText, answerSignature,
        variablesText, source.operation.variableDefinitions.map VariableDefinition.name⟩) := by
  dsimp only [libraryFunction?]
  simp only [hname]
  refine (Settled.bind_of_ok hinputs _).trans ?_
  rw [hanswer]
  refine (Settled.bind_of_ok rfl _).trans ?_
  rw [hsignature]
  refine (Settled.bind_of_ok rfl _).trans ?_
  rw [hvariables]
  rfl

/-- One annotated operation makes one function. -/
theorem libraryMembers_singleton {context : SelectionContext} {source : AnnotatedOperation}
    {function : LibraryFunction}
    (h : (libraryFunction? context source).run.value = .ok (some function)) (id : String) :
    (libraryMembers context ⟨[(id, source)], []⟩).run.value = .ok ([function], []) := by
  have hfunctions : ([source].mapM (libraryFunction? context)).run.value =
      .ok [some function] := by
    rw [List.mapM_cons]
    exact Settled.bind_of_ok h _
  simp only [libraryMembers, List.map_cons, List.map_nil, sortById, List.mergeSort_nil,
    List.mergeSort_singleton]
  refine (Settled.bind_of_ok rfl _).trans ?_
  exact Settled.bind_of_ok hfunctions _

/-- Without hooks a document with one annotated operation has the function of this one. -/
theorem Generator.members_singleton {generator : Generator} {document : Document} {id : String}
    {source : AnnotatedOperation} {function : LibraryFunction}
    (hfound : (extractAnnotations .generation generator.ids document).value =
      ⟨[(id, source)], []⟩)
    (hfunction : (libraryFunction? (generator.context document.lastFragments) source).run.value =
      .ok (some function))
    (hhooks : generator.hooks = .none) :
    (generator.members document).run.value = .ok ([function], []) := by
  have hannotations :
      (liftM (extractAnnotations .generation generator.ids document) : Settled _).run.value =
        .ok ⟨[(id, source)], []⟩ := congrArg Except.ok hfound
  refine (Settled.bind_of_ok hannotations _).trans ?_
  refine (Settled.bind_of_ok (libraryMembers_singleton hfunction id) _).trans ?_
  rw [hhooks]
  rfl

/-- What the members of a library are made of. -/
theorem mem_libraryMembers {context : SelectionContext} {found : Annotations}
    {functions : List LibraryFunction} {types : List LibraryType}
    (h : (libraryMembers context found).run.value = .ok (functions, types)) :
    (∀ function ∈ functions, ∃ id source, (id, source) ∈ found.functions ∧
      (libraryFunction? context source).run.value = .ok (some function)) ∧
    ∀ id source, (id, source) ∈ found.functions → ∃ result,
      (libraryFunction? context source).run.value = .ok result ∧
        ∀ function ∈ result, function ∈ functions := by
  obtain ⟨types, -, h⟩ := Settled.ok_of_bind h
  obtain ⟨members, hmembers, h⟩ := Settled.ok_of_bind h
  obtain ⟨rfl, rfl⟩ := Prod.mk.inj (Except.ok.inj h)
  constructor
  · intro function hfunction
    rw [List.reduceOption_mem_iff] at hfunction
    obtain ⟨source, hsource, hmade⟩ := Settled.mem_of_mapM hmembers hfunction
    obtain ⟨⟨id, source⟩, hentry, rfl⟩ := List.mem_map.mp (List.mem_mergeSort.mp hsource)
    exact ⟨id, source, hentry, hmade⟩
  · intro id source hentry
    have hsorted : source ∈ sortById (·.tag.id) (found.functions.map Prod.snd) :=
      List.mem_mergeSort.mpr (List.mem_map.mpr ⟨(id, source), hentry, rfl⟩)
    obtain ⟨result, hresult, hmade⟩ := Settled.exists_of_mapM hmembers hsorted
    refine ⟨result, hmade, ?_⟩
    rintro function rfl
    exact List.reduceOption_mem_iff.mpr hresult

theorem carriesText_of_libraryMembers {context : SelectionContext} {found : Annotations}
    {functions : List LibraryFunction} {types : List LibraryType}
    (h : (libraryMembers context found).run.value = .ok (functions, types)) :
    ∀ function ∈ functions, function.CarriesText := by
  intro function hfunction
  obtain ⟨id, source, -, hmade⟩ := (mem_libraryMembers h).1 function hfunction
  exact (of_libraryFunction? hmade).2

/-- Filters add no function. -/
theorem FunctionFilter.sublist_apply {α : Type} (filter : FunctionFilter) (kind name : α → String)
    (functions : List α) : (filter.apply kind name functions).value.Sublist functions := by
  dsimp only [FunctionFilter.apply]
  split <;> exact List.filter_sublist

theorem Hooks.sublist_select {α : Type} (hooks : Hooks) (kind name : α → String)
    (functions : List α) : (hooks.select kind name functions).value.Sublist functions := by
  unfold Hooks.select
  induction hooks.filters generalizing functions with
  | nil => exact List.Sublist.refl _
  | cons filter filters ih =>
      rw [List.foldlM_cons, Logged.value_bind]
      refine (ih _).trans ?_
      exact filter.sublist_apply kind name functions

namespace Generator

variable {generator : Generator} {document : Document} {library : Library}

theorem carriesText_of_members {functions : List LibraryFunction} {types : List LibraryType}
    (h : (generator.members document).run.value = .ok (functions, types)) :
    ∀ function ∈ functions, function.CarriesText := by
  obtain ⟨found, -, h⟩ := Settled.ok_of_bind h
  obtain ⟨⟨members, types⟩, hmembers, h⟩ := Settled.ok_of_bind h
  obtain ⟨kept, hkept, h⟩ := Settled.ok_of_bind h
  obtain ⟨rfl, rfl⟩ := Prod.mk.inj (Except.ok.inj h)
  obtain rfl := Except.ok.inj hkept
  intro function hfunction
  exact carriesText_of_libraryMembers hmembers function
    ((Hooks.sublist_select _ _ _ _).subset hfunction)

/-- What a library is made of. -/
theorem members_of_library (h : (generator.library document).value = .ok library) :
    (generator.members document).run.value = .ok (library.functions, library.types) ∧
      library.runtime = generator.file "runtime.js.j2" generator.settings.runtimeFilename
        .javaScript (LibraryRuntime.lines generator.settings library.functions) := by
  unfold Generator.library at h
  rw [Logged.value_bind] at h
  cases hmembers : (generator.members document).run.value with
  | error fault => rw [hmembers] at h; exact nomatch h
  | ok members =>
      obtain ⟨functions, types⟩ := members
      rw [hmembers] at h
      simp only [libraryOf] at h
      split at h
      · exact nomatch h
      · obtain rfl := Except.ok.inj h
        exact ⟨rfl, rfl⟩

/-- Every function of a library is made of an annotated operation of the document. -/
theorem exists_annotation_of_mem (h : (generator.library document).value = .ok library)
    {function : LibraryFunction} (hmem : function ∈ library.functions) :
    ∃ id source,
      (id, source) ∈ (extractAnnotations .generation generator.ids document).value.functions ∧
        (libraryFunction? (generator.context document.lastFragments) source).run.value =
          .ok (some function) := by
  obtain ⟨found, hfound, h⟩ := Settled.ok_of_bind (members_of_library h).1
  obtain ⟨⟨functions, types⟩, hmembers, h⟩ := Settled.ok_of_bind h
  obtain ⟨kept, hkept, h⟩ := Settled.ok_of_bind h
  obtain ⟨rfl, -⟩ := Prod.mk.inj (Except.ok.inj h)
  obtain rfl := Except.ok.inj hfound
  have hkept : (generator.hooks.select (·.kind.keyword) LibraryFunction.operationName
      functions).value = library.functions := Except.ok.inj hkept
  have hsublist : library.functions.Sublist functions :=
    hkept ▸ Hooks.sublist_select _ _ _ _
  exact (mem_libraryMembers hmembers).1 function (hsublist.subset hmem)

theorem library_cases (h : (generator.library document).value = .ok library) :
    (∀ function ∈ library.functions, function.CarriesText) ∧
      library.runtime = generator.file "runtime.js.j2" generator.settings.runtimeFilename
        .javaScript (LibraryRuntime.lines generator.settings library.functions) :=
  (members_of_library h).imp_left carriesText_of_members

end Generator

/-! ### The file of the runtime -/

/-- The characters of lines, each with its line feed. -/
theorem toList_linesText (lines : List String) :
    (linesText lines).toList = lines.flatMap fun line => line.toList ++ ['\n'] := by
  induction lines with
  | nil => rfl
  | cons line lines ih =>
      rw [linesText, List.map_cons, String.join_cons, String.toList_append, String.toList_append,
        List.flatMap_cons, ← ih]
      rfl

namespace LibraryRuntime

/-- What stands in front of the text of an operation, from the name of its function on. -/
def requestOpening (style : ModuleStyle) (function : LibraryFunction) : List Char :=
  (linesText [style.exporting function.name ++ " = (variables, options) => \x7b",
    "  return fetchNetlifyGraph(\x7b"] ++ "    query: `").toList

/-- The runtime sends a text for a function: that is what the template literal at the head of its
request stands for. -/
def Sends (style : ModuleStyle) (contents : List Char) (function : LibraryFunction)
    (text : List Char) : Prop :=
  ∃ before after rest,
    contents = before ++ collapseBlankLines (requestOpening style function) ++ after ∧
      readTemplate after = some (text, ',' :: rest)

/-- The function that sends an operation is part of the module. -/
theorem requestFunction_infix_lines (settings : Settings) {functions : List LibraryFunction}
    {function : LibraryFunction} (hmem : function ∈ functions)
    (hkind : function.isSubscription = false) :
    requestFunction settings.moduleStyle function <:+: lines settings functions := by
  have hown : functionLines settings function =
      "" :: requestFunction settings.moduleStyle function := by
    rw [functionLines, hkind]
    rfl
  have hall : functionLines settings function <:+: functions.flatMap (functionLines settings) :=
    List.infix_of_mem_flatten (List.mem_map_of_mem hmem)
  rw [hown] at hall
  refine (List.suffix_cons "" _).isInfix.trans (hall.trans ?_)
  simp only [lines, List.append_assoc]
  iterate 7 refine List.IsInfix.trans ?_ (List.suffix_append _ _).isInfix
  exact (List.prefix_append _ _).isInfix

/-- The characters of the module around the text of an operation. -/
theorem exists_toList_linesText_eq (settings : Settings) {functions : List LibraryFunction}
    {function : LibraryFunction} (hmem : function ∈ functions)
    (hkind : function.isSubscription = false) :
    ∃ before after, (linesText (lines settings functions)).toList =
      before ++ requestOpening settings.moduleStyle function ++ function.body.toList ++
        '\x60' :: ',' :: after := by
  obtain ⟨earlier, later, hlines⟩ := requestFunction_infix_lines settings hmem hkind
  have hquery : ("    query: `" ++ function.body ++ "`,").toList =
      "    query: `".toList ++ function.body.toList ++ ['\x60', ','] := by
    rw [String.toList_append, String.toList_append]
    rfl
  rw [← hlines, toList_linesText, List.flatMap_append, List.flatMap_append, requestFunction,
    List.flatMap_append, requestOpening, String.toList_append, toList_linesText]
  simp only [List.flatMap_cons, List.flatMap_nil, hquery, List.append_assoc, List.cons_append,
    List.nil_append]
  rw [← List.append_assoc]
  exact ⟨_, _, rfl⟩

/-- No line feed stands at either end of what is in front of the text. -/
theorem exists_requestOpening_eq (style : ModuleStyle) (function : LibraryFunction) :
    ∃ inner, requestOpening style function = 'e' :: inner ++ ['\x60'] := by
  obtain ⟨name, hname⟩ : ∃ name, (style.exporting function.name).toList = 'e' :: name := by
    cases style with
    | commonJs => exact ⟨_, String.toList_append⟩
    | esm => exact ⟨_, String.toList_append⟩
  have hquery : "    query: `".toList = "    query: ".toList ++ ['\x60'] := rfl
  rw [requestOpening, String.toList_append, toList_linesText, List.flatMap_cons,
    String.toList_append, hname, hquery, ← List.append_assoc]
  exact ⟨_, rfl⟩

/-- Shrinking what stands around a text and the text itself are three separate matters. -/
theorem sends_collapseBlankLines (style : ModuleStyle) (function : LibraryFunction)
    (before after text : List Char) (hreturn : '\r' ∉ text) :
    Sends style (collapseBlankLines (before ++ requestOpening style function ++
      templateLiteral text ++ '\x60' :: ',' :: after)) function (collapseBlankLines text) := by
  obtain ⟨inner, hopening⟩ := exists_requestOpening_eq style function
  refine ⟨collapseBlankLines before,
    collapseBlankLines (templateLiteral text ++ '\x60' :: ',' :: after), collapseBlankLines after,
    ?_, ?_⟩
  · rw [hopening, List.append_assoc,
      collapseBlankLines_append_enclosed (by decide) (by decide)]
  · rw [collapseBlankLines_append_cons (by decide), collapseBlankLines_cons_of_ne (by decide),
      collapseBlankLines_templateLiteral]
    exact readTemplate_templateLiteral _ _ fun hmem => hreturn (mem_of_mem_collapseBlankLines hmem)

/-- In a file without blank lines in a row nothing sends a text with blank lines in a row. -/
theorem Sends.not_tripleFeed_infix {style : ModuleStyle} {contents text : List Char}
    {function : LibraryFunction} (hsends : Sends style contents function text)
    (hshrunk : ¬ tripleFeed <:+: contents) : ¬ tripleFeed <:+: text := by
  obtain ⟨before, after, rest, rfl, hread⟩ := hsends
  intro hrun
  exact hshrunk ((tripleFeed_infix_of_readTemplate hread hrun).trans
    (List.suffix_append _ _).isInfix)

end LibraryRuntime

theorem not_tripleFeed_infix_runtime {generator : Generator} {document : Document}
    {library : Library} (hlibrary : (generator.library document).value = .ok library)
    (hbanners : generator.hooks.banners = []) :
    ¬ tripleFeed <:+: library.runtime.contents.toList := by
  rw [(Generator.library_cases hlibrary).2, Generator.file, finishFile, Hooks.finish, hbanners,
    List.foldl_nil, String.toList_ofList]
  exact not_tripleFeed_infix_collapseBlankLines _

/-- **The runtime sends the text with its blank lines shrunk.** For every function of a library
that sends an operation, the built-in runtime has a template literal that stands for the persistable
text of the operation after shrinking. So the text itself is sent exactly if no three line feeds
are in a row in it. -/
theorem runtime_sends {generator : Generator} {document : Document} {library : Library}
    (hlibrary : (generator.library document).value = .ok library)
    (hbuiltIn : generator.overrides.lookup "runtime.js.j2" = none)
    (hbanners : generator.hooks.banners = []) {function : LibraryFunction}
    (hmem : function ∈ library.functions) (hkind : function.isSubscription = false)
    (hreturn : '\r' ∉ function.source.persistableText.toList) :
    let text := function.source.persistableText.toList
    let Sends := LibraryRuntime.Sends generator.settings.moduleStyle
      library.runtime.contents.toList function
    Sends (collapseBlankLines text) ∧ (Sends text ↔ ¬ tripleFeed <:+: text) := by
  intro text Sends
  have hsends : Sends (collapseBlankLines text) := by
    obtain ⟨hcarries, hruntime⟩ := Generator.library_cases hlibrary
    obtain ⟨before, after, hcontents⟩ :=
      LibraryRuntime.exists_toList_linesText_eq generator.settings hmem hkind
    rw [hcarries function hmem, templateLiteralText, String.toList_ofList] at hcontents
    unfold Sends
    rw [hruntime, Generator.file, finishFile, Hooks.finish, hbuiltIn, hbanners]
    simp only [Option.map_none, Option.getD_none, List.foldl_nil, String.toList_ofList, hcontents]
    exact LibraryRuntime.sends_collapseBlankLines _ _ _ _ _ hreturn
  refine ⟨hsends, fun hexact =>
    hexact.not_tripleFeed_infix (not_tripleFeed_infix_runtime hlibrary hbanners), fun hplain => ?_⟩
  rwa [(collapseBlankLines_eq_self_iff text).mpr hplain] at hsends

namespace SampleAnswer

/-- The signature of an answer that has a text in `a`. -/
def signature : String :=
  "\x7b\n  /**\n   * Any data from the function will be returned here\n   */\n" ++
    "  data: \x7b\n    a?: string;\n  \x7d;\n" ++
    "  /**\n   * Any errors from the function will be returned here\n   */\n" ++
    "  errors?: Array<any>;\n\x7d"

/-- The shape of an answer with that text. -/
def shape : Shape :=
  answerShape (.object [⟨"a", .scalar "string" none, true, none⟩] none)

theorem signature_shape : shape.signature = .ok signature := by
  decide +kernel

/-- A definition that selects only the text has this shape. -/
theorem responseShape_eq {context : SelectionContext} {definition : Executable} {root : NamedType}
    (hroot : rootType? context.schema definition = some root)
    (hfield : selectedField root "a" = pure (some ⟨"a", none, [], .named "String"⟩))
    (hstring : context.schema.get? "String" = some (.scalar "String"))
    (htext : context.scalars.shape "String" = .scalar "string" none)
    (hselections : definition.selections = [.field ⟨none, "a", [], []⟩ none]) :
    responseShape context definition = ⟨shape, [], none⟩ := by
  let expanding := definition.fragmentName?.toList
  have hcore : selectedCore context expanding none "String" = pure (.scalar "string" none) := by
    rw [selectedCore, hstring, ← htext]
    exact shapeOfName_scalar hstring rfl context.scalars []
  have hentry : contribution context expanding root (.field ⟨none, "a", [], []⟩ none) =
      pure [⟨"a", .scalar "string" none, true, none⟩] := by
    rw [contribution_field _ _ _ _ (by decide), hfield]
    exact congrArg (fun (core : Projection Shape) => core >>= fun shape =>
      (pure [⟨"a", shape, true, none⟩] : Projection (List (Entry Shape)))) hcore
  rw [responseShape, dataShape_of_root _ hroot, hselections, selectedEntries, contributions, hentry,
    contributions]
  rfl

end SampleAnswer

namespace BlankLinesInDefault

/-- A variable has a text with two blank lines as its default value. -/
def operation : Operation :=
  ⟨none, .query, some "Q", [⟨none, "a", .named "String", some (.string "a\n\n\nb" true), []⟩],
    [⟨"netlify", [⟨"id", .string "x" false⟩]⟩], [.field ⟨none, "a", [], []⟩ none]⟩

def document : Document := [.executable (.operation operation)]

/-- What the document is read from. -/
def source : String :=
  "query Q($a: String = \"\"\"\na\n\n\nb\n\"\"\") @netlify(id: \"x\") \x7b a \x7d"

def schema : Schema :=
  ⟨[⟨"Query", none, .object [] [⟨"a", none, [], .named "String"⟩]⟩, .scalar "String"], some "Query",
    none, none, []⟩

def generator : Generator :=
  ⟨schema, .standard, .standard, .none, [], fun _ => ""⟩

/-- The persistable text of the operation. -/
def text : String :=
  "query Q(\n$a: String = \"\"\"\na\n\n\nb\n\"\"\"\n) \x7b\n  a\n\x7d"

/-- The same with one blank line of the two. -/
def shrunk : String :=
  "query Q(\n$a: String = \"\"\"\na\n\nb\n\"\"\"\n) \x7b\n  a\n\x7d"

def annotated : AnnotatedOperation :=
  ⟨⟨"x", "", .dynamic⟩, "Q", operation, operation.print,
    (Executable.operation operation).stripOwnTooling.print, text, none, false⟩

def function : LibraryFunction :=
  ⟨annotated, "fetchQ", templateLiteralText text,
    "\x7b\n  /**\n   * Any data from the function will be returned here\n   */\n" ++
      "  data: \x7b\n    a?: string;\n  \x7d;\n" ++
      "  /**\n   * Any errors from the function will be returned here\n   */\n" ++
      "  errors?: Array<any>;\n\x7d",
    "\x7b\n  a?: string;\n\x7d", ["a"]⟩

def library : Library :=
  ⟨generator.file "runtime.js.j2" generator.settings.runtimeFilename .javaScript
      (LibraryRuntime.lines generator.settings [function]),
    generator.file "index.d.ts.j2" ["netlify", "functions", "netlifyGraph", "index.d.ts"]
      .typeScript (LibraryDeclarations.lines [function] []), [function], []⟩

theorem parse_source : Document.parse source = .ok document := by
  decide +kernel

theorem persistableText_eq : (persistableOperation document operation).value.text = text := by
  have hneeded : (neededFragments document.lastFragments operation).value = [] := by
    simp [neededFragments, reachAtOnce, spreadNames, Selection.spreads, operation]
  have hparts : (persistableOperation document operation).value.text =
      "\n\n".intercalate (operation.stripTooling.print ::
        (sortByName Fragment.name (neededFragments document.lastFragments operation).value).map
          Fragment.print) := rfl
  rw [hparts, hneeded, sortByName, List.mergeSort_nil]
  decide

theorem extractAnnotations_eq :
    (extractAnnotations .generation generator.ids document).value = ⟨[("x", annotated)], []⟩ := by
  rw [annotated, ← persistableText_eq]
  rfl

theorem libraryFunction?_eq :
    (libraryFunction? (generator.context document.lastFragments) annotated).run.value =
      .ok (some function) := by
  have hname : functionName annotated.operation.kind.keyword annotated.operation.name =
      .ok "fetchQ" := by decide
  have hinputs : (variablesShape schema .standard operation).settle.run.value =
      .ok (.object [⟨"a", .scalar "string" none, true, none⟩] none) := by
    with_unfolding_all rfl
  exact libraryFunction?_of_shapes hname hinputs (SampleAnswer.responseShape_eq rfl rfl rfl rfl rfl)
    SampleAnswer.signature_shape (by decide)

theorem library_eq : (generator.library document).value = .ok library := by
  have hmembers := Generator.members_singleton extractAnnotations_eq libraryFunction?_eq rfl
  rw [Generator.library, Logged.value_bind, hmembers]
  rfl

/-- The runtime sends the text with one blank line of the two. -/
theorem shrunk_text_sent :
    (generator.library document).value = .ok library ∧
      generator.overrides.lookup "runtime.js.j2" = none ∧ generator.hooks.banners = [] ∧
      function ∈ library.functions ∧ function.isSubscription = false ∧
      '\r' ∉ function.source.persistableText.toList ∧
      LibraryRuntime.Sends generator.settings.moduleStyle library.runtime.contents.toList function
        shrunk.toList := by
  have hreturn : '\r' ∉ function.source.persistableText.toList := by decide
  have hshrunk : collapseBlankLines function.source.persistableText.toList = shrunk.toList := by
    decide
  refine ⟨library_eq, rfl, rfl, List.mem_cons_self, rfl, hreturn, ?_⟩
  rw [← hshrunk]
  exact (runtime_sends library_eq rfl rfl List.mem_cons_self rfl hreturn).1

/-- The runtime does not send the text of the operation. -/
theorem text_not_sent :
    Document.parse source = .ok document ∧ (generator.library document).value = .ok library ∧
      generator.overrides.lookup "runtime.js.j2" = none ∧ generator.hooks.banners = [] ∧
      function ∈ library.functions ∧ function.isSubscription = false ∧
      '\r' ∉ function.source.persistableText.toList ∧
      ¬ LibraryRuntime.Sends generator.settings.moduleStyle library.runtime.contents.toList
        function function.source.persistableText.toList := by
  refine ⟨parse_source, library_eq, rfl, rfl, List.mem_cons_self, rfl, by decide,
    fun hsends => ?_⟩
  refine hsends.not_tripleFeed_infix (not_tripleFeed_infix_runtime library_eq rfl) ?_
  decide

end BlankLinesInDefault

end OperationLibrary
