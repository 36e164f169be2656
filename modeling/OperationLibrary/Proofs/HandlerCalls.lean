import OperationLibrary.Proofs.AnnotatedText
import OperationLibrary.Proofs.DependencyOrder
import OperationLibrary.Proofs.FunctionNames
import OperationLibrary.Proofs.LibraryInputs

/-!
Handlers and the runtime they call. The runtime exports a function for every annotated operation
with a name. A handler is made from the printed operation, which is read again, and calls the
function by the name it finds there; but where this name is the word for a kind of operations, the
handler takes it for no name at all and calls a function that is named after a place.
-/

namespace OperationLibrary

open Syntax

/-! ### Functions of named operations -/

theorem functionName_of_isName (kind : String) {name : String} (h : IsName name) :
    functionName kind (some name) = .ok (calledName kind name) := by
  unfold functionName
  split
  · rename_i hnone
    cases hnone
  · rename_i hempty
    obtain rfl := Option.some.inj hempty
    exact absurd h (by decide)
  · rename_i hsome
    obtain rfl := Option.some.inj hsome
    rfl

theorem exportedName_eq_invokedName {function : LibraryFunction} {kind : OperationKind}
    {name : String} (hkind : function.kind = kind) (hname : function.operationName = name)
    (hcalled : function.name = calledName kind.keyword name) :
    function.exportedName = invokedName kind name := by
  subst hkind hname
  cases hevents : function.isSubscription with
  | true =>
      have hkind : function.kind = .subscription := by
        simpa [LibraryFunction.isSubscription] using hevents
      rw [LibraryFunction.exportedName, hevents, if_pos rfl, invokedName, if_pos hkind]
      rfl
  | false =>
      have hkind : function.kind ≠ .subscription := by
        simpa [LibraryFunction.isSubscription] using hevents
      rw [LibraryFunction.exportedName, hevents, if_neg Bool.false_ne_true, invokedName,
        if_neg hkind, hcalled]

/-- Without filters a library has all functions of the annotated operations. -/
theorem Generator.libraryMembers_of_library {generator : Generator} {document : Document}
    {library : Library} (hlibrary : (generator.library document).value = .ok library)
    (hfilters : generator.hooks.filters = []) :
    ∃ types, (libraryMembers (generator.context document.lastFragments)
      (extractAnnotations .generation generator.ids document).value).run.value =
        .ok (library.functions, types) := by
  obtain ⟨found, hfound, h⟩ := Settled.ok_of_bind (members_of_library hlibrary).1
  obtain ⟨⟨functions, types⟩, hmembers, h⟩ := Settled.ok_of_bind h
  obtain ⟨kept, hkept, h⟩ := Settled.ok_of_bind h
  obtain ⟨rfl, -⟩ := Prod.mk.inj (Except.ok.inj h)
  obtain rfl := Except.ok.inj hfound
  have hall : (generator.hooks.select (·.kind.keyword) LibraryFunction.operationName
      functions).value = functions := by
    rw [Hooks.select, hfilters]
    rfl
  have hsame : functions = library.functions := hall.symm.trans (Except.ok.inj hkept)
  exact ⟨types, hsame ▸ hmembers⟩

/-- In a library without filters an operation with a name has one function, which goes by this
name. -/
theorem Generator.exists_function_of_named {generator : Generator} {document : Document}
    {library : Library} (hlibrary : (generator.library document).value = .ok library)
    (hfilters : generator.hooks.filters = []) {id name : String} {entry : AnnotatedOperation}
    (hmem : (id, entry) ∈ (extractAnnotations .generation generator.ids document).value.functions)
    (hname : entry.operation.name = some name) (h : IsName name) :
    ∃ function ∈ library.functions, function.id = id ∧
      (∀ other ∈ library.functions, other.id = id → other = function) ∧
      function.exportedName = invokedName entry.operation.kind name := by
  obtain ⟨types, hmembers⟩ := libraryMembers_of_library hlibrary hfilters
  obtain ⟨hmadeOf, hmakes⟩ := mem_libraryMembers hmembers
  obtain ⟨result, hresult, hkept⟩ := hmakes id entry hmem
  obtain ⟨function, rfl, hsource, hfunction, -⟩ :=
    libraryFunction?_of_named (hname ▸ functionName_of_isName _ h) hresult
  refine ⟨function, hkept function rfl, ?_, ?_, ?_⟩
  · rw [LibraryFunction.id, hsource]
    exact id_of_mem_functions hmem
  · intro other hother hid
    -- functions with one id are made of one entry
    obtain ⟨otherId, otherEntry, hotherMem, hotherResult⟩ := hmadeOf other hother
    have hsame : otherId = id := by
      rw [← hid, ← id_of_mem_functions hotherMem, ← (of_libraryFunction? hotherResult).1]
      rfl
    obtain rfl := eq_of_mem_functions hmem (hsame ▸ hotherMem)
    exact Option.some.inj (Except.ok.inj (hotherResult.symm.trans hresult))
  · obtain ⟨tag, -, -, hmade⟩ := exists_of_mem_functions hmem
    refine exportedName_eq_invokedName (congrArg (·.operation.kind) hsource) ?_ hfunction
    rw [LibraryFunction.operationName, hsource, hmade, annotatedOperation, hname]
    rfl

/-! ### Records of handlers -/

theorem value_orderRecords_singleton (record : OperationRecord) :
    (orderRecords [record]).value = [record] := by
  have hemitted : (orderWalk [record]).emitted = [0] :=
    List.perm_singleton.mp (orderWalk_emitted_perm [record])
  simp [orderRecords, hemitted]

theorem ordered_resolveGraph_singleton (topic : Topic) (values : List (String × Json))
    (definition : Executable) :
    ((resolveGraph topic false values [definition]).value.toOption.map
      OperationGraph.ordered).getD [] =
        [.ofDefinition (firstFragments [definition]) values definition] :=
  value_orderRecords_singleton _

/-- The record of a named operation has the handler's name for it. -/
theorem named_ofDefinition (table : FragmentTable) (values : List (String × Json))
    {operation : Operation} {name : String} (hname : operation.name = some name)
    (h : IsName name) :
    let record := (OperationRecord.ofDefinition table values (.operation operation)).named 1
    record.kind = .operation operation.kind ∧ record.name = handlerName operation.kind name := by
  have hgiven : (OperationRecord.ofDefinition table values (.operation operation)).name = name := by
    simp [OperationRecord.ofDefinition, Executable.nameOrKind, Executable.name?, hname]
  intro record
  simp only [record, OperationRecord.named, hgiven, trimBlank_of_isName h, handlerName]
  split
  · exact ⟨rfl, rfl⟩
  · exact ⟨rfl, hgiven⟩

/-- The handler of the record of one operation. -/
theorem Generator.handlerOf_singleton (generator : Generator) (options : HandlerOptions)
    (source : Executable) {record : OperationRecord} {kind : OperationKind}
    (hkind : record.kind = .operation kind) :
    let operation := handlerOperation options record
    let filename := record.name ++ "." ++ generator.settings.extension
    generator.handlerOf options source [record] =
      ⟨[if kind = .subscription then generator.webhookFile operation
        else generator.requestFile options filename operation [operation]], source, filename⟩ := by
  have hkept : [record].filter (fun r => !r.isFragment) = [record] := by
    simp [OperationRecord.isFragment, hkind]
  have hevents : (handlerOperation options record).record.kind = .operation .subscription ↔
      kind = .subscription := by
    rw [handlerOperation, hkind, DefinitionKind.operation.injEq]
  intro operation filename
  rw [handlerOf, hkept]
  simp only [List.map_cons, List.map_nil, hevents]
  rfl

theorem Generator.calls_handlerOf {generator : Generator} (hbuiltIn : generator.overrides = [])
    (options : HandlerOptions) (source : Executable) {record : OperationRecord}
    {kind : OperationKind} (hkind : record.kind = .operation kind) (hname : IsName record.name) :
    ∃ file filename, generator.handlerOf options source [record] = ⟨[file], source, filename⟩ ∧
      file.Calls (invokedName kind record.name) := by
  refine ⟨_, _, generator.handlerOf_singleton options source hkind, ?_⟩
  by_cases hevents : kind = .subscription
  · rw [if_pos hevents, invokedName, if_pos hevents]
    exact calls_webhookFile hbuiltIn _ (feed_not_mem_of_isName hname)
  · have hcalled : (handlerOperation options record).functionName =
        invokedName kind record.name := by
      rw [invokedName, if_neg hevents, handlerOperation, hkind]
      rfl
    rw [if_neg hevents, ← hcalled]
    refine calls_requestFile hbuiltIn options _ _ [] ?_
    rw [hcalled]
    exact feed_not_mem_invokedName hname kind

/-- The handler of an annotated operation is made of the record of this operation alone. -/
theorem Generator.value_handler (generator : Generator) {source : String} {document : Document}
    (hparse : Document.parse source = .ok document) {id : String} {entry : AnnotatedOperation}
    (hentry : Keyed.get? id
      (extractAnnotations .generation generator.ids document).value.functions = some entry)
    (options : HandlerOptions) :
    let operation := Executable.operation entry.operation
    (generator.handler document id options).value = .ok (generator.handlerOf options operation
      [(OperationRecord.ofDefinition (firstFragments [operation]) [] operation).named 1]) := by
  intro operation
  obtain ⟨tag, -, hmem, hmade⟩ := exists_of_mem_functions (Keyed.mem_of_get? hentry)
  have htext : entry.text = operation.print := by
    rw [hmade]
    rfl
  have hfound : (extractAnnotations .generation generator.ids document).value.find? id =
      some (operation, entry.text) := by
    rw [Annotations.find?, hentry]
    rfl
  have hread : readDefinitions .generation entry.text = pure [operation] := by
    rw [readDefinitions, htext, parse_print hparse hmem]
    rfl
  rw [handler, Logged.value_bind, hfound]
  simp only [hread, Logged.value_bind, Logged.value_pure]
  rw [ordered_resolveGraph_singleton]
  rfl

/-- The handler of an operation with a name calls the function of this name, as the handler has
it. -/
theorem Generator.handler_of_named {generator : Generator} (hbuiltIn : generator.overrides = [])
    {source : String} {document : Document} (hparse : Document.parse source = .ok document)
    {id name : String} {entry : AnnotatedOperation}
    (hentry : Keyed.get? id
      (extractAnnotations .generation generator.ids document).value.functions = some entry)
    (hname : entry.operation.name = some name) (h : IsName name)
    (options : HandlerOptions) :
    ∃ file filename, (generator.handler document id options).value =
        .ok ⟨[file], .operation entry.operation, filename⟩ ∧
      file.Calls (invokedName entry.operation.kind (handlerName entry.operation.kind name)) := by
  obtain ⟨hkind, hcalled⟩ :=
    named_ofDefinition (firstFragments [.operation entry.operation]) [] hname h
  obtain ⟨file, filename, hfile, hcalls⟩ := calls_handlerOf hbuiltIn options
    (.operation entry.operation) hkind (hcalled ▸ isName_handlerName h _)
  exact ⟨file, filename, (generator.value_handler hparse hentry options).trans (congrArg _ hfile),
    hcalled ▸ hcalls⟩

/-! ### Handlers and libraries -/

/-- **Handlers and the functions they call.** In a library without filters, an annotated operation
with a name has one function, and the runtime exports it. The handler of the operation calls a
function by its name, and this is the exported one exactly if the operation is not named with the
word for a kind of operations. -/
theorem handler_calls_exported_iff {generator : Generator} {source : String} {document : Document}
    {library : Library} {id name : String} {entry : AnnotatedOperation}
    (hparse : Document.parse source = .ok document)
    (hlibrary : (generator.library document).value = .ok library)
    (hbuiltIn : generator.overrides = []) (hfilters : generator.hooks.filters = [])
    (hnode : generator.settings.target = .node)
    (hentry : Keyed.get? id
      (extractAnnotations .generation generator.ids document).value.functions = some entry)
    (hname : entry.operation.name = some name) (options : HandlerOptions) :
    let called := invokedName entry.operation.kind (handlerName entry.operation.kind name)
    (∃ file filename, (generator.handler document id options).value =
        .ok ⟨[file], .operation entry.operation, filename⟩ ∧ file.Calls called) ∧
      ∃ function ∈ library.functions, function.id = id ∧
        (∀ other ∈ library.functions, other.id = id → other = function) ∧
        library.runtime.Exports generator.settings.moduleStyle function.exportedName ∧
        (called = function.exportedName ↔ isKindWord name = false) := by
  intro called
  have hmem := Keyed.mem_of_get? hentry
  obtain ⟨-, -, hexecutable, -⟩ := exists_of_mem_functions hmem
  have hisName : IsName name :=
    (fits_of_parse hparse _ (executable_mem hexecutable)).name name hname
  obtain ⟨function, hin, hid, hunique, hexported⟩ :=
    Generator.exists_function_of_named hlibrary hfilters hmem hname hisName
  refine ⟨Generator.handler_of_named hbuiltIn hparse hentry hname hisName options,
    function, hin, hid, hunique, ?_, ?_⟩
  · rw [(Generator.members_of_library hlibrary).2]
    refine Generator.exports_file hbuiltIn hnode _ _ _ hin ?_
    rw [hexported]
    exact feed_not_mem_invokedName hisName _
  · rw [hexported]
    exact invokedName_handlerName_eq_iff _ _

namespace NamedQuery

/-- A query with this name. -/
def operation (name : String) : Operation :=
  ⟨none, .query, some name, [], [⟨"netlify", [⟨"id", .string "x" false⟩]⟩],
    [.field ⟨none, "a", [], []⟩ none]⟩

def document (name : String) : Document := [.executable (.operation (operation name))]

/-- What the document is read from. -/
def source (name : String) : String :=
  "query " ++ name ++ " @netlify(id: \"x\") \x7b a \x7d"

def schema : Schema :=
  ⟨[⟨"Query", none, .object [] [⟨"a", none, [], .named "String"⟩]⟩, .scalar "String"], some "Query",
    none, none, []⟩

def generator : Generator :=
  ⟨schema, .standard, .standard, .none, [], fun _ => ""⟩

def annotated (name : String) : AnnotatedOperation :=
  annotatedOperation (document name) ⟨"x", "", .dynamic⟩ (operation name)

/-- The signature of its answer. -/
def answerText : String :=
  "\x7b\n  /**\n   * Any data from the function will be returned here\n   */\n" ++
    "  data: \x7b\n    a?: string;\n  \x7d;\n" ++
    "  /**\n   * Any errors from the function will be returned here\n   */\n" ++
    "  errors?: Array<any>;\n\x7d"

def function (name : String) : LibraryFunction :=
  ⟨annotated name, calledName "query" name,
    SourceText.templateLiteralText (annotated name).persistableText, answerText, "\x7b\x7d", []⟩

def library (name : String) : Library :=
  ⟨generator.file "runtime.js.j2" generator.settings.runtimeFilename .javaScript
      (LibraryRuntime.lines generator.settings [function name]),
    generator.file "index.d.ts.j2" ["netlify", "functions", "netlifyGraph", "index.d.ts"]
      .typeScript (LibraryDeclarations.lines [function name] []), [function name], []⟩

theorem parse_people : Document.parse (source "People") = .ok (document "People") := by
  decide +kernel

theorem parse_query : Document.parse (source "query") = .ok (document "query") := by
  decide +kernel

theorem extractAnnotations_eq (name : String) :
    (extractAnnotations .generation generator.ids (document name)).value =
      ⟨[("x", annotated name)], []⟩ :=
  value_extractAnnotations .generation generator.ids (document name)

theorem libraryFunction?_eq {name : String} (h : IsName name) :
    (libraryFunction? (generator.context (document name).lastFragments)
      (annotated name)).run.value = .ok (some (function name)) := by
  have hname : functionName (annotated name).operation.kind.keyword
      (annotated name).operation.name = .ok (calledName "query" name) :=
    functionName_of_isName "query" h
  have hinputs : (variablesShape schema .standard (operation name)).settle.run.value =
      .ok (.object [] none) := rfl
  exact libraryFunction?_of_shapes hname hinputs (SampleAnswer.responseShape_eq rfl rfl rfl rfl rfl)
    SampleAnswer.signature_shape rfl

theorem library_eq {name : String} (h : IsName name) :
    (generator.library (document name)).value = .ok (library name) := by
  have hmembers :=
    Generator.members_singleton (extractAnnotations_eq name) (libraryFunction?_eq h) rfl
  rw [Generator.library, Logged.value_bind, hmembers]
  rfl

theorem get?_functions_eq (name : String) :
    Keyed.get? "x" (extractAnnotations .generation generator.ids (document name)).value.functions =
      some (annotated name) := by
  rw [extractAnnotations_eq]
  rfl

/-- The handler of a query calls the function that the runtime exports for it. -/
theorem people_called :
    Document.parse (source "People") = .ok (document "People") ∧
      (generator.library (document "People")).value = .ok (library "People") ∧
      generator.overrides = [] ∧ generator.hooks.filters = [] ∧
      generator.settings.target = .node ∧
      Keyed.get? "x" (extractAnnotations .generation generator.ids
        (document "People")).value.functions = some (annotated "People") ∧
      (annotated "People").operation.name = some "People" ∧
      (∃ file filename, (generator.handler (document "People") "x" .standard).value =
        .ok ⟨[file], .operation (operation "People"), filename⟩ ∧ file.Calls "fetchPeople") ∧
      (library "People").runtime.Exports .commonJs "fetchPeople" := by
  have hlibrary := library_eq (show IsName "People" by decide)
  have hentry := get?_functions_eq "People"
  have hname : invokedName .query (handlerName .query "People") = "fetchPeople" := by
    decide
  obtain ⟨hcalls, made, hmade, -, -, hexports, hsame⟩ :=
    handler_calls_exported_iff parse_people hlibrary rfl rfl rfl hentry rfl .standard
  have hexported : made.exportedName = "fetchPeople" :=
    (hsame.mpr (by decide)).symm.trans hname
  refine ⟨parse_people, hlibrary, rfl, rfl, rfl, hentry, rfl, ?_, hexported ▸ hexports⟩
  exact hname ▸ hcalls

/-- What the handler of a query is written from. -/
def handlerRecord (name : String) : OperationRecord :=
  (OperationRecord.ofDefinition [] [] (.operation (operation name))).named 1

def handlerLines (name : String) : List String :=
  FunctionHandler.lines generator.settings .standard ((handlerRecord name).name ++ "." ++ "js")
    [handlerOperation .standard (handlerRecord name)]

def handlerFile (name : String) : OutputFile :=
  generator.file "handlers/netlify_function.js.j2" [] .javaScript (handlerLines name)

theorem handler_eq {name : String} (h : IsName name)
    (hparse : Document.parse (source name) = .ok (document name)) :
    (generator.handler (document name) "x" .standard).value =
      .ok ⟨[handlerFile name], .operation (operation name),
        handlerName .query name ++ "." ++ "js"⟩ := by
  obtain ⟨hquery, hname⟩ : (handlerRecord name).kind = .operation .query ∧
      (handlerRecord name).name = handlerName .query name := named_ofDefinition [] [] rfl h
  have hmade := generator.handlerOf_singleton .standard (.operation (operation name)) hquery
  rw [generator.value_handler hparse (get?_functions_eq name), ← hname]
  refine congrArg Except.ok (hmade.trans ?_)
  rw [if_neg (by decide)]
  rfl

/-- The handler of a query with the name `query` calls a function of another name than the one that
the runtime exports for the query, and this one it does not call. -/
theorem query_not_called :
    Document.parse (source "query") = .ok (document "query") ∧
      (generator.library (document "query")).value = .ok (library "query") ∧
      generator.settings.target = .node ∧ generator.hooks = .none ∧
      (operation "query").name = some "query" ∧
      (library "query").functions = [function "query"] ∧ (function "query").id = "x" ∧
      (library "query").runtime.Exports .commonJs "fetchQuery" ∧
      (function "query").exportedName = "fetchQuery" ∧
      (generator.handler (document "query") "x" .standard).value =
        .ok ⟨[handlerFile "query"], .operation (operation "query"), "unnamedQuery1.js"⟩ ∧
      (handlerFile "query").Calls "fetchUnnamedQuery1" ∧
      ¬ (handlerFile "query").Calls "fetchQuery" := by
  have hexported : (function "query").exportedName = "fetchQuery" := by decide
  have hcalled : (handlerOperation .standard (handlerRecord "query")).functionName =
      "fetchUnnamedQuery1" := by decide
  have hfilename : "unnamedQuery1.js" = handlerName .query "query" ++ "." ++ "js" := by
    decide
  refine ⟨parse_query, library_eq (by decide), rfl, rfl, rfl, rfl, rfl, ?_, hexported, ?_, ?_, ?_⟩
  · have hexports := generator.exports_file rfl rfl "runtime.js.j2"
      generator.settings.runtimeFilename .javaScript
      (List.mem_singleton_self (function "query")) (by rw [hexported]; decide)
    rwa [hexported] at hexports
  · rw [hfilename]
    exact handler_eq (by decide) parse_query
  · have hcalls := generator.calls_requestFile rfl .standard
      ((handlerRecord "query").name ++ "." ++ "js")
      (handlerOperation .standard (handlerRecord "query")) [] (by rw [hcalled]; decide)
    rwa [hcalled] at hcalls
  · have hcontents : (handlerFile "query").contents.toList = Text.collapseBlankLines
        ((handlerLines "query").flatMap fun line => line.toList ++ ['\n']) := by
      rw [handlerFile, Generator.contents_file rfl, ← toList_linesText]
      exact String.toList_ofList
    -- the lines are short enough to be searched one character after the other
    rw [OutputFile.Calls, OutputFile.Shows, hcontents]
    decide +kernel

end NamedQuery

end OperationLibrary
