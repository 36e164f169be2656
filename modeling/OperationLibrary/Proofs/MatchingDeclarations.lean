import OperationLibrary.Proofs.AnnotatedText
import OperationLibrary.Proofs.DeclaredFunctions
import OperationLibrary.Proofs.FileText
import OperationLibrary.Proofs.LegibleShapes

/-!
Declarations against the runtime. Both are read back from the finished files. The runtime has a
function for events only where it can verify them, and the declarations declare one for every
subscription; so the two agree unless a subscription meets a runtime that runs in browsers.
-/

namespace OperationLibrary

open Syntax SourceText Text

/-! ### Functions and types of a document -/

theorem Projection.value_of_settle {α : Type} {x : Projection α} {a : α}
    (h : x.settle.run.value = .ok a) : x.value = a := by
  obtain ⟨value, notices, fault⟩ := x
  cases fault with
  | some fault => cases h
  | none => exact Except.ok.inj h

theorem exists_of_functionName {kind called : String} {name : Option String}
    (h : functionName kind name = .ok called) :
    ∃ given, name = some given ∧ called = calledName kind given := by
  unfold functionName at h
  split at h
  · cases h
  · cases h
  · exact ⟨_, rfl, (Except.ok.inj h).symm⟩

section

variable {p : Description → Prop} {context : SelectionContext}

/-- The function of an operation that was read is legible, but for its description. -/
theorem legible_of_libraryFunction? (hcontext : context.Legible p) {source : AnnotatedOperation}
    (hread : source.operation.Fits p) (hname : source.name = source.operation.name.getD unknownName)
    {function : LibraryFunction}
    (h : (libraryFunction? context source).run.value = .ok (some function)) :
    function.undescribed.Legible := by
  unfold libraryFunction? at h
  cases hcalled : functionName source.operation.kind.keyword source.operation.name with
  | error missing =>
      simp only [hcalled] at h
      exact nomatch Except.ok.inj h
  | ok called =>
      obtain ⟨given, hgiven, rfl⟩ := exists_of_functionName hcalled
      simp only [hcalled] at h
      -- a function is only made where both shapes and their texts are
      obtain ⟨inputs, hinputs, h⟩ := Settled.ok_of_bind h
      obtain ⟨answer, hanswer, h⟩ := Settled.ok_of_bind h
      obtain ⟨answerText, hanswerText, h⟩ := Settled.ok_of_bind h
      obtain ⟨inputsText, hinputsText, h⟩ := Settled.ok_of_bind h
      obtain rfl := Option.some.inj (Except.ok.inj h)
      have hoperationName : source.name = given := by rw [hname, hgiven, Option.getD_some]
      have hinputsLegible : inputs.Legible := by
        rw [← Projection.value_of_settle hinputs]
        exact legible_variablesShape hcontext.schema hcontext.scalars fun definition hmem =>
          (hread.variableDefinitions definition hmem).name
      have hanswerLegible : answer.Legible := by
        rw [← Projection.value_of_settle hanswer]
        exact legible_responseShape hcontext (SelectionsFit.read hread.selections)
      exact {
        name := hoperationName ▸ hread.name given hgiven
        called := hoperationName ▸ rfl
        carries := rfl
        description := unclosed_commentBody_empty
        answer := hanswerLegible.readsType_signature hanswerText
        inputs := hinputsLegible.readsType_variablesSignature hinputsText }

/-- The type of a fragment that was read is legible. -/
theorem legible_of_libraryType (hcontext : context.Legible p) {source : AnnotatedFragment}
    (hread : source.fragment.Fits p)
    (hdescription : Unclosed (commentBody source.tag.description).toList) {type : LibraryType}
    (h : (libraryType context source).run.value = .ok type) : type.Legible := by
  obtain ⟨data, hdata, h⟩ := Settled.ok_of_bind h
  obtain ⟨signature, hsignature, h⟩ := Settled.ok_of_bind h
  obtain rfl := Except.ok.inj h
  have hlegible : data.Legible := by
    rw [← Projection.value_of_settle hdata]
    exact legible_dataShape hcontext (SelectionsFit.read hread.selections)
  exact ⟨hread.name, hdescription, hlegible.readsType_signature hsignature⟩

end

/-- What the table of fragments has is made of a fragment of the document. -/
theorem fragment_mem_of_mem_fragments {topic : Topic} {supply : IdSupply} {document : Document}
    {id : String} {entry : AnnotatedFragment}
    (h : (id, entry) ∈ (extractAnnotations topic supply document).value.fragments) :
    .fragment entry.fragment ∈ document.executables := by
  rw [value_extractAnnotations] at h
  obtain ⟨⟨tag, definition⟩, htagged, hentry⟩ := List.mem_filterMap.mp (Keyed.mem_ofList h)
  cases definition with
  | operation operation => cases hentry
  | fragment fragment =>
      obtain ⟨rfl, rfl⟩ := Prod.mk.inj (Option.some.inj hentry)
      exact mem_of_mem_tagged htagged

theorem exists_of_mem_types {context : SelectionContext} {found : Annotations}
    {functions : List LibraryFunction} {types : List LibraryType}
    (h : (libraryMembers context found).run.value = .ok (functions, types)) {type : LibraryType}
    (hmem : type ∈ types) : ∃ id source, (id, source) ∈ found.fragments ∧
      (libraryType context source).run.value = .ok type := by
  obtain ⟨made, hmade, h⟩ := Settled.ok_of_bind h
  obtain ⟨members, -, h⟩ := Settled.ok_of_bind h
  obtain ⟨-, rfl⟩ := Prod.mk.inj (Except.ok.inj h)
  obtain ⟨source, hsource, htype⟩ := Settled.mem_of_mapM hmade hmem
  obtain ⟨⟨id, source⟩, hentry, rfl⟩ := List.mem_map.mp (List.mem_mergeSort.mp hsource)
  exact ⟨id, source, hentry, htype⟩

/-- Everything that a generator makes shapes of besides the document can be written. -/
structure Generator.Legible (generator : Generator) : Prop where
  schema : generator.schema.WellNamed
  scalars : generator.scalars.Legible
  id : LibraryRuntime.QuotesId generator.settings

section

variable {generator : Generator} {source : String} {document : Document}

theorem Generator.Legible.context (h : generator.Legible)
    (hparse : Document.parse source = .ok document) :
    (generator.context document.lastFragments).Legible Description.Settled := by
  refine ⟨h.schema, h.scalars, fun fragment hmem => ?_⟩
  obtain ⟨definition, hdefinition, hfragment⟩ :=
    List.mem_filterMap.mp (List.mem_reverse.mp hmem)
  cases definition with
  | operation operation => cases hfragment
  | fragment other =>
      obtain rfl := Option.some.inj hfragment
      have hread : other.Fits Description.Settled :=
        fits_of_parse hparse _ (executable_mem hdefinition)
      exact SelectionsFit.read hread.selections

variable {functions : List LibraryFunction} {types : List LibraryType}

/-- The functions of a document are legible, but for their descriptions. -/
theorem Generator.Legible.undescribed (h : generator.Legible)
    (hparse : Document.parse source = .ok document)
    (hmembers : (libraryMembers (generator.context document.lastFragments)
      (extractAnnotations .generation generator.ids document).value).run.value =
        .ok (functions, types)) {function : LibraryFunction} (hmem : function ∈ functions) :
    function.undescribed.Legible := by
  obtain ⟨id, entry, hentry, hmade⟩ := (mem_libraryMembers hmembers).1 function hmem
  obtain ⟨tag, -, hexecutable, hannotated⟩ := exists_of_mem_functions hentry
  have hread : entry.operation.Fits Description.Settled :=
    fits_of_parse hparse _ (executable_mem hexecutable)
  refine legible_of_libraryFunction? (h.context hparse) hread ?_ hmade
  rw [hannotated]
  rfl

theorem Generator.Legible.function (h : generator.Legible)
    (hparse : Document.parse source = .ok document)
    (hmembers : (libraryMembers (generator.context document.lastFragments)
      (extractAnnotations .generation generator.ids document).value).run.value =
        .ok (functions, types)) {function : LibraryFunction} (hmem : function ∈ functions)
    (hdescription : Unclosed (commentBody function.source.tag.description).toList) :
    function.Legible :=
  (h.undescribed hparse hmembers hmem).of_undescribed hdescription

theorem Generator.Legible.type (h : generator.Legible)
    (hparse : Document.parse source = .ok document)
    (hmembers : (libraryMembers (generator.context document.lastFragments)
      (extractAnnotations .generation generator.ids document).value).run.value =
        .ok (functions, types)) {type : LibraryType} (hmem : type ∈ types)
    (hdescription : Unclosed (commentBody type.source.tag.description).toList) :
    type.Legible := by
  obtain ⟨id, entry, hentry, hmade⟩ := exists_of_mem_types hmembers hmem
  have hread : entry.fragment.Fits Description.Settled :=
    fits_of_parse hparse _ (executable_mem (fragment_mem_of_mem_fragments hentry))
  refine legible_of_libraryType (h.context hparse) hread ?_ hmade
  have hsource : type.source = entry := by
    obtain ⟨data, -, hmade⟩ := Settled.ok_of_bind hmade
    obtain ⟨signature, -, hmade⟩ := Settled.ok_of_bind hmade
    exact (congrArg LibraryType.source (Except.ok.inj hmade)).symm
  rwa [← hsource]

end

/-! ### Files -/

/-- Shrinking blank lines leaves the names in a file as they are. -/
theorem Listing.read_collapseBlankLines (listing : Listing) (text : List Char) :
    listing.read (collapseBlankLines text) = listing.read text := by
  rw [read, read, codeLines?_collapseBlankLines]

theorem Generator.read_file {generator : Generator} (hbuiltIn : generator.overrides = [])
    (hbanners : generator.hooks.banners = []) (listing : Listing) (template : String)
    (name : List String) (language : HandlerLanguage) (lines : List String) :
    listing.read (generator.file template name language lines).contents.toList =
      listing.read (lineChars lines) := by
  rw [generator.contents_file hbuiltIn, Hooks.finish, hbanners, List.foldl_nil,
    String.toList_ofList, listing.read_collapseBlankLines, toList_linesText]
  rfl

namespace Library

/-- The declarations declare and list the functions that the runtime exports and lists. -/
def DeclaresRuntime (library : Library) (style : ModuleStyle) : Prop :=
  ∃ names, (Listing.runtime style).read library.runtime.contents.toList = some (names, names) ∧
    Listing.declarations.read library.declarations.contents.toList = some (names, names)

theorem declaresRuntime_iff_eq {library : Library} {style : ModuleStyle}
    {offered declared : List String}
    (hruntime : (Listing.runtime style).read library.runtime.contents.toList =
      some (offered, offered))
    (hdeclarations : Listing.declarations.read library.declarations.contents.toList =
      some (declared, declared)) : library.DeclaresRuntime style ↔ offered = declared := by
  constructor
  · rintro ⟨names, hnames, hothers⟩
    have hoffered := (Prod.mk.inj (Option.some.inj (hruntime.symm.trans hnames))).1
    have hdeclared := (Prod.mk.inj (Option.some.inj (hdeclarations.symm.trans hothers))).1
    exact hoffered.trans hdeclared.symm
  · rintro rfl
    exact ⟨offered, hruntime, hdeclarations⟩

end Library

section

variable {generator : Generator} {kept : List LibraryFunction} {types : List LibraryType}
  {library : Library}

/-- The names in the files of a library. -/
theorem Generator.read_libraryOf (hlibrary : (generator.libraryOf kept types).value = .ok library)
    (hbuiltIn : generator.overrides = []) (hbanners : generator.hooks.banners = [])
    (hid : LibraryRuntime.QuotesId generator.settings) (hkept : ∀ function ∈ kept, function.Legible)
    (htypes : ∀ type ∈ types, type.Legible) :
    (Listing.runtime generator.settings.moduleStyle).read library.runtime.contents.toList =
        some (LibraryRuntime.offeredNames generator.settings kept,
          LibraryRuntime.offeredNames generator.settings kept) ∧
      Listing.declarations.read library.declarations.contents.toList =
        some (kept.map LibraryFunction.exportedName, kept.map LibraryFunction.exportedName) := by
  unfold Generator.libraryOf at hlibrary
  dsimp only at hlibrary
  split at hlibrary
  · exact nomatch hlibrary
  · obtain rfl := Except.ok.inj hlibrary
    constructor
    · rw [generator.read_file hbuiltIn hbanners]
      exact LibraryRuntime.read_lines generator.settings hid hkept
    · rw [generator.read_file hbuiltIn hbanners]
      exact LibraryDeclarations.read_lines hkept htypes

/-- The runtime has all functions that it is made for, unless there are events that it cannot
verify. -/
theorem LibraryRuntime.offeredNames_eq_iff {settings : Settings} :
    offeredNames settings kept = kept.map LibraryFunction.exportedName ↔
      settings.target = .node ∨ ∀ function ∈ kept, function.isSubscription = false := by
  have hall : offeredNames settings kept = kept.map LibraryFunction.exportedName ↔
      ∀ function ∈ kept, offers settings function = true := by
    rw [offeredNames, ← List.filter_eq_self]
    constructor
    · intro h
      have hlength := congrArg List.length h
      rw [List.length_map, List.length_map] at hlength
      exact List.filter_sublist.eq_of_length hlength
    · exact fun h => congrArg _ h
  rw [hall]
  by_cases hnode : settings.target = .node
  · simp [offers, verifiesEvents, hnode]
  · simp [offers, verifiesEvents, hnode]

/-- The library of a document is made of what the hooks keep of its functions. -/
theorem Generator.exists_libraryOf {document : Document}
    (hlibrary : (generator.library document).value = .ok library) :
    ∃ functions, (libraryMembers (generator.context document.lastFragments)
        (extractAnnotations .generation generator.ids document).value).run.value =
          .ok (functions, library.types) ∧
      library.functions.Sublist functions ∧
        (generator.libraryOf library.functions library.types).value = .ok library := by
  have hmembers := (members_of_library hlibrary).1
  have hsame : (generator.libraryOf library.functions library.types).value = .ok library := by
    rw [Generator.library, Logged.value_bind, hmembers] at hlibrary
    exact hlibrary
  obtain ⟨found, hfound, h⟩ := Settled.ok_of_bind hmembers
  obtain ⟨⟨functions, types⟩, hmade, h⟩ := Settled.ok_of_bind h
  obtain ⟨kept, hkept, h⟩ := Settled.ok_of_bind h
  obtain ⟨rfl, rfl⟩ := Prod.mk.inj (Except.ok.inj h)
  obtain rfl := Except.ok.inj hfound
  have hkept : (generator.hooks.select (·.kind.keyword) LibraryFunction.operationName
      functions).value = library.functions := Except.ok.inj hkept
  exact ⟨functions, hmade, hkept ▸ Hooks.sublist_select _ _ _ _, hsame⟩

/-- The declarations of the library of a document match the runtime unless there are events that it
cannot verify. -/
theorem Generator.declaresRuntime_library_iff {source : String} {document : Document}
    (hparse : Document.parse source = .ok document) (hlegible : generator.Legible)
    (hlibrary : (generator.library document).value = .ok library)
    (hfunctions : ∀ function ∈ library.functions,
      Unclosed (commentBody function.source.tag.description).toList)
    (htypes : ∀ type ∈ library.types, Unclosed (commentBody type.source.tag.description).toList)
    (hbuiltIn : generator.overrides = []) (hbanners : generator.hooks.banners = []) :
    library.DeclaresRuntime generator.settings.moduleStyle ↔ generator.settings.target = .node ∨
      ∀ function ∈ library.functions, function.isSubscription = false := by
  obtain ⟨functions, hmembers, hkept, hmade⟩ := Generator.exists_libraryOf hlibrary
  obtain ⟨hruntime, hdeclarations⟩ := Generator.read_libraryOf hmade hbuiltIn hbanners hlegible.id
    (fun function hmem =>
      hlegible.function hparse hmembers (hkept.subset hmem) (hfunctions function hmem))
    (fun type hmem => hlegible.type hparse hmembers hmem (htypes type hmem))
  rw [Library.declaresRuntime_iff_eq hruntime hdeclarations]
  exact LibraryRuntime.offeredNames_eq_iff

/-- **Declarations match the runtime unless events cannot be verified.** Hooks make a list of
functions out of those of a document: some of these in whatever order, or functions of their own
that can be written. The declarations of the library declare and list all of them, by name and in
order, and the runtime exports and lists those that it offers. The two name the same functions in
all four places if and only if the runtime runs in Node or none of the functions is for a
subscription. -/
theorem declarations_match_runtime_iff {source : String} {document : Document}
    {functions : List LibraryFunction} (hparse : Document.parse source = .ok document)
    (hmembers : (libraryMembers (generator.context document.lastFragments)
      (extractAnnotations .generation generator.ids document).value).run.value =
        .ok (functions, types))
    (hkept : ∀ function ∈ kept, function.Legible ∨
      function ∈ functions ∧ Unclosed (commentBody function.source.tag.description).toList)
    (htypes : ∀ type ∈ types, Unclosed (commentBody type.source.tag.description).toList)
    (hlegible : generator.Legible)
    (hlibrary : (generator.libraryOf kept types).value = .ok library)
    (hbuiltIn : generator.overrides = []) (hbanners : generator.hooks.banners = []) :
    let style := generator.settings.moduleStyle
    let offered := LibraryRuntime.offeredNames generator.settings kept
    let declared := kept.map LibraryFunction.exportedName
    (Listing.runtime style).read library.runtime.contents.toList = some (offered, offered) ∧
      Listing.declarations.read library.declarations.contents.toList = some (declared, declared) ∧
      (library.DeclaresRuntime style ↔ generator.settings.target = .node ∨
        ∀ function ∈ kept, function.isSubscription = false) := by
  intro style offered declared
  have hfunctions : ∀ function ∈ kept, function.Legible := fun function hmem =>
    (hkept function hmem).elim id fun h => hlegible.function hparse hmembers h.1 h.2
  obtain ⟨hruntime, hdeclarations⟩ := Generator.read_libraryOf hlibrary hbuiltIn hbanners
    hlegible.id hfunctions fun type hmem => hlegible.type hparse hmembers hmem (htypes type hmem)
  refine ⟨hruntime, hdeclarations, ?_⟩
  rw [Library.declaresRuntime_iff_eq hruntime hdeclarations]
  exact LibraryRuntime.offeredNames_eq_iff

end

namespace EventsOfSubscription

def operation : Operation :=
  ⟨none, .subscription, some "S", [], [⟨"netlify", [⟨"id", .string "s" false⟩]⟩],
    [.field ⟨none, "a", [], []⟩ none]⟩

def document : Document := [.executable (.operation operation)]

/-- What the document is read from. -/
def source : String :=
  "subscription S @netlify(id: \"s\") \x7b a \x7d"

def schema : Schema :=
  ⟨[⟨"Query", none, .object [] [⟨"a", none, [], .named "String"⟩]⟩,
    ⟨"Subscription", none, .object [] [⟨"a", none, [], .named "String"⟩]⟩, .scalar "String"],
    some "Query", none, some "Subscription", []⟩

def generator (target : RuntimeTarget) : Generator :=
  ⟨schema, { Settings.standard with target := target }, .standard, .none, [], fun _ => ""⟩

def annotated : AnnotatedOperation :=
  annotatedOperation document ⟨"s", "", .dynamic⟩ operation

/-- The signature of an event. -/
def answerText : String :=
  "\x7b\n  /**\n   * Any data from the function will be returned here\n   */\n" ++
    "  data: \x7b\n    a?: string;\n  \x7d;\n" ++
    "  /**\n   * Any errors from the function will be returned here\n   */\n" ++
    "  errors?: Array<any>;\n\x7d"

def function : LibraryFunction :=
  ⟨annotated, "subscribeToS", templateLiteralText annotated.persistableText, answerText,
    "\x7b\x7d", []⟩

def library (target : RuntimeTarget) : Library :=
  ⟨(generator target).file "runtime.js.j2" ["netlify", "functions", "netlifyGraph", "index.js"]
      .javaScript (LibraryRuntime.lines (generator target).settings [function]),
    (generator target).file "index.d.ts.j2" ["netlify", "functions", "netlifyGraph", "index.d.ts"]
      .typeScript (LibraryDeclarations.lines [function] []), [function], []⟩

theorem parse_source : Document.parse source = .ok document := by
  decide +kernel

theorem libraryFunction?_eq (target : RuntimeTarget) :
    (libraryFunction? ((generator target).context document.lastFragments) annotated).run.value =
      .ok (some function) := by
  have hname : functionName annotated.operation.kind.keyword annotated.operation.name =
      .ok "subscribeToS" := rfl
  have hinputs : (variablesShape schema .standard operation).settle.run.value =
      .ok (.object [] none) := rfl
  exact libraryFunction?_of_shapes hname hinputs (SampleAnswer.responseShape_eq rfl rfl rfl rfl rfl)
    SampleAnswer.signature_shape rfl

theorem extractAnnotations_eq (target : RuntimeTarget) :
    (extractAnnotations .generation (generator target).ids document).value =
      ⟨[("s", annotated)], []⟩ :=
  value_extractAnnotations .generation _ document

theorem libraryMembers_eq (target : RuntimeTarget) :
    (libraryMembers ((generator target).context document.lastFragments)
      (extractAnnotations .generation (generator target).ids document).value).run.value =
        .ok ([function], []) := by
  rw [extractAnnotations_eq]
  exact libraryMembers_singleton (libraryFunction?_eq target) "s"

theorem libraryOf_eq (target : RuntimeTarget) :
    ((generator target).libraryOf [function] []).value = .ok (library target) :=
  rfl

theorem library_eq (target : RuntimeTarget) :
    ((generator target).library document).value = .ok (library target) := by
  have hmembers := Generator.members_singleton (extractAnnotations_eq target)
    (libraryFunction?_eq target) rfl
  rw [Generator.library, Logged.value_bind, hmembers]
  exact libraryOf_eq target

theorem generator_legible (target : RuntimeTarget) : (generator target).Legible where
  schema := {
    fields := by
      have ha : IsName "a" := by decide
      simp +contextual [generator, schema, NamedType.unfoldedFields?, NamedType.scalar, ha]
    values := by simp [generator, schema, NamedType.scalar] }
  scalars := ScalarTable.standard_legible
  id := by simp [LibraryRuntime.QuotesId, generator, Settings.standard]

theorem description_unclosed : Unclosed (commentBody function.source.tag.description).toList :=
  unclosed_commentBody_empty

/-- A runtime in Node has the function for events that is declared. -/
theorem declared_in_node :
    Document.parse source = .ok document ∧
      (libraryMembers ((generator .node).context document.lastFragments)
        (extractAnnotations .generation (generator .node).ids document).value).run.value =
          .ok ([function], []) ∧
      (∀ made ∈ [function], made.Legible ∨
        made ∈ [function] ∧ Unclosed (commentBody made.source.tag.description).toList) ∧
      (∀ type ∈ ([] : List LibraryType),
        Unclosed (commentBody type.source.tag.description).toList) ∧
      (generator .node).Legible ∧
      ((generator .node).libraryOf [function] []).value = .ok (library .node) ∧
      (generator .node).overrides = [] ∧ (generator .node).hooks.banners = [] ∧
      (library .node).DeclaresRuntime .commonJs := by
  have hkept : ∀ made ∈ [function], made.Legible ∨
      made ∈ [function] ∧ Unclosed (commentBody made.source.tag.description).toList := by
    simpa using Or.inr description_unclosed
  have htypes : ∀ type ∈ ([] : List LibraryType),
      Unclosed (commentBody type.source.tag.description).toList := by simp
  have hmatch := (declarations_match_runtime_iff parse_source (libraryMembers_eq .node) hkept htypes
    (generator_legible .node) (libraryOf_eq .node) rfl rfl).2.2.mpr (.inl rfl)
  exact ⟨parse_source, libraryMembers_eq .node, hkept, htypes, generator_legible .node,
    libraryOf_eq .node, rfl, rfl, hmatch⟩

/-- A runtime for browsers has no function, and one is declared. -/
theorem declared_for_browsers :
    Document.parse source = .ok document ∧
      ((generator .browser).library document).value = .ok (library .browser) ∧
      (generator .browser).overrides = [] ∧ (generator .browser).hooks = .none ∧
      (Listing.runtime .commonJs).read (library .browser).runtime.contents.toList =
        some ([], []) ∧
      Listing.declarations.read (library .browser).declarations.contents.toList =
        some (["parseAndVerifySEvent"], ["parseAndVerifySEvent"]) ∧
      ¬ (library .browser).DeclaresRuntime .commonJs := by
  have hfunction : function.Legible := (generator_legible .browser).function parse_source
    (libraryMembers_eq .browser) List.mem_cons_self description_unclosed
  obtain ⟨hruntime, hdeclarations⟩ := Generator.read_libraryOf (libraryOf_eq .browser) rfl rfl
    (generator_legible .browser).id (by simpa using hfunction) (by simp)
  have hdeclared : [function].map LibraryFunction.exportedName = ["parseAndVerifySEvent"] := rfl
  rw [hdeclared] at hdeclarations
  refine ⟨parse_source, library_eq .browser, rfl, rfl, hruntime, hdeclarations, fun hmatch => ?_⟩
  exact absurd ((Library.declaresRuntime_iff_eq hruntime hdeclarations).mp hmatch)
    (List.cons_ne_nil _ _).symm

end EventsOfSubscription

end OperationLibrary
