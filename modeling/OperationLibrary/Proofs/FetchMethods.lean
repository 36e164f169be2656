import OperationLibrary.Proofs.AnnotatedText
import OperationLibrary.Proofs.ExtractedDefinitions
import OperationLibrary.Proofs.LibraryInputs
import OperationLibrary.Proofs.QueryText

/-!
How functions are fetched. An answer may come out of a cache on the way if it is asked for with the
method that only reads, so this method is kept for persisted queries that say for how long their
answers live. Everything else is posted, whatever its directives say.
-/

namespace OperationLibrary

open Syntax

/-! ### What directives say -/

/-- The first item of a list with a property. -/
def IsFirst {α : Type} (property : α → Prop) (items : List α) (item : α) : Prop :=
  property item ∧ ∃ before after, items = before ++ item :: after ∧
    ∀ other ∈ before, ¬ property other

/-- The last item of a list with a property. -/
def IsLast {α : Type} (property : α → Prop) (items : List α) (item : α) : Prop :=
  property item ∧ ∃ before after, items = before ++ item :: after ∧
    ∀ other ∈ after, ¬ property other

theorem isFirst_iff {α : Type} {property : α → Prop} {test : α → Bool} {items : List α} {item : α}
    (htest : ∀ item, test item = true ↔ property item) :
    IsFirst property items item ↔ items.find? test = some item := by
  simp only [List.find?_eq_some_iff_append, IsFirst, htest, Bool.not_eq_true', Bool.eq_false_iff,
    ne_eq]

namespace Syntax

/-- A value that is written as a number stands for this one. -/
inductive Value.Denotes : Value → Decimal.Binary64 → Prop where
  | int (digits : String) : Denotes (.int digits) (Decimal.Binary64.ofText digits)
  | float (digits : String) : Denotes (.float digits) (Decimal.Binary64.ofText digits)

/-- A field of the cache settings is a lifetime in seconds. -/
def GivesLifetime (field : String × Value) : Prop :=
  field.1 = "timeToLiveSeconds" ∧ ∃ seconds, field.2.Denotes seconds

/-- The first argument with a name has this value. -/
def Directive.Says (directive : Directive) (name : String) (value : Value) : Prop :=
  ∃ argument, IsFirst (·.name = name) directive.arguments argument ∧ argument.value = value

theorem Directive.says_iff {directive : Directive} {name : String} {value : Value} :
    directive.Says name value ↔ directive.argument? name = some value := by
  have hfirst (argument : Argument) : IsFirst (·.name = name) directive.arguments argument ↔
      directive.arguments.find? (·.name == name) = some argument := isFirst_iff fun _ => beq_iff_eq
  simp only [Says, hfirst, argument?, Option.map_eq_some_iff]

namespace Operation

/-- The first directive with a name says this of an argument. -/
def Says (operation : Operation) (directive name : String) (value : Value) : Prop :=
  ∃ first, IsFirst (·.name = directive) operation.directives first ∧ first.Says name value

/-- The annotation of an operation asks for it to be persisted. -/
def AsksForPersisting (operation : Operation) : Prop :=
  operation.Says "netlify" "executionStrategy" (.enum "PERSISTED")

/-- The answers of an operation live for a time that is positive. -/
def AllowsCaching (operation : Operation) : Prop :=
  ∃ fields entry lifetime,
    operation.Says "netlifyCacheControl" "cacheStrategy" (.object fields) ∧
      IsLast GivesLifetime fields entry ∧ entry.2.Denotes lifetime ∧ lifetime.isPositive

theorem says_iff {operation : Operation} {directive name : String} {value : Value} :
    operation.Says directive name value ↔
      (findDirective operation.directives directive).bind (·.argument? name) = some value := by
  have hfirst (first : Directive) : IsFirst (·.name = directive) operation.directives first ↔
      operation.directives.find? (·.name == directive) = some first :=
    isFirst_iff fun _ => beq_iff_eq
  simp only [Says, hfirst, Directive.says_iff, findDirective, Option.bind_eq_some_iff]

end Operation

end Syntax

/-! ### Reading the directives -/

theorem value_readStrategy_eq_persisted_iff (topic : Topic) (word : Option String) :
    (readStrategy topic word).value = .persisted ↔ word = some "PERSISTED" := by
  unfold readStrategy
  split
  · simp
  · simp
  · simp
  · rename_i other hdynamic hpersisted
    simpa using hpersisted

theorem Syntax.Directive.enum?_eq_some_iff {directive : Directive} {name word : String} :
    directive.enum? name = some word ↔ directive.argument? name = some (.enum word) := by
  unfold enum?
  split <;> simp_all

/-- The strategy of a definition is read from its annotation. -/
theorem strategy_tagWith_eq_persisted_iff (topic : Topic) (id : String) (operation : Operation) :
    ((Executable.operation operation).tagWith topic id).strategy = .persisted ↔
      operation.AsksForPersisting := by
  rw [Operation.AsksForPersisting, Operation.says_iff]
  simp only [Executable.tagWith, value_readStrategy_eq_persisted_iff, Option.bind_eq_some_iff,
    Directive.enum?_eq_some_iff]
  rfl

/-- A number for the lifetime, or none. -/
def lifetimeOf? : String × Value → Option Decimal.Binary64
  | ("timeToLiveSeconds", .int digits) | ("timeToLiveSeconds", .float digits) =>
    some (Decimal.Binary64.ofText digits)
  | _ => none

theorem lifetimeOf?_eq_some_iff {field : String × Value} {lifetime : Decimal.Binary64} :
    lifetimeOf? field = some lifetime ↔
      field.1 = "timeToLiveSeconds" ∧ field.2.Denotes lifetime := by
  obtain ⟨name, value⟩ := field
  constructor
  · intro h
    unfold lifetimeOf? at h
    split at h
    · obtain ⟨rfl, rfl⟩ := Prod.mk.inj ‹_›
      obtain rfl := Option.some.inj h
      exact ⟨rfl, .int _⟩
    · obtain ⟨rfl, rfl⟩ := Prod.mk.inj ‹_›
      obtain rfl := Option.some.inj h
      exact ⟨rfl, .float _⟩
    · cases h
  · rintro ⟨rfl, hvalue⟩
    cases hvalue <;> rfl

/-- Reading one more field. -/
theorem fst_readCacheFields_concat (fields : List (String × Value)) (field : String × Value) :
    (readCacheFields (fields ++ [field])).1 =
      (lifetimeOf? field).or (readCacheFields fields).1 := by
  obtain ⟨name, value⟩ := field
  rw [readCacheFields, List.foldl_append, ← readCacheFields]
  simp only [List.foldl_cons, List.foldl_nil, lifetimeOf?]
  split <;> simp_all

/-- The last field that gives a lifetime counts. -/
theorem fst_readCacheFields (fields : List (String × Value)) :
    (readCacheFields fields).1 = fields.reverse.findSome? lifetimeOf? := by
  induction fields using List.reverseRecOn with
  | nil => rfl
  | append_singleton fields field ih =>
      rw [fst_readCacheFields_concat, ih, List.reverse_concat, List.findSome?_cons]
      cases lifetimeOf? field <;> rfl

theorem fst_readCacheFields_eq_some_iff {fields : List (String × Value)}
    {lifetime : Decimal.Binary64} :
    (readCacheFields fields).1 = some lifetime ↔ ∃ entry,
      IsLast GivesLifetime fields entry ∧ entry.2.Denotes lifetime := by
  rw [fst_readCacheFields, List.findSome?_eq_some_iff]
  have hgives (field : String × Value) : GivesLifetime field ↔ lifetimeOf? field ≠ none := by
    simp only [GivesLifetime, Option.ne_none_iff_exists', lifetimeOf?_eq_some_iff, exists_and_left]
  constructor
  · rintro ⟨after, entry, before, hfields, hentry, hafter⟩
    refine ⟨entry, ⟨(hgives entry).mpr (by simp [hentry]), before.reverse, after.reverse, ?_, ?_⟩,
      (lifetimeOf?_eq_some_iff.mp hentry).2⟩
    · rw [List.reverse_eq_iff.mp hfields]
      simp
    · intro other hother
      rw [hgives, not_not]
      exact hafter other (List.mem_reverse.mp hother)
  · rintro ⟨entry, ⟨hgiven, before, after, rfl, hafter⟩, hdenotes⟩
    refine ⟨after.reverse, entry, before.reverse, by simp,
      lifetimeOf?_eq_some_iff.mpr ⟨hgiven.1, hdenotes⟩, fun other hother => ?_⟩
    exact not_not.mp fun h => hafter other (List.mem_reverse.mp hother) ((hgives other).mpr h)

/-- The settings of an operation are read with a positive lifetime. -/
theorem isPositive_readCacheControl_iff (operation : Operation) :
    ((readCacheControl operation.directives).1.any fun cache =>
      cache.secondsToLive.isPositive) = true ↔ operation.AllowsCaching := by
  simp only [Operation.AllowsCaching, Operation.says_iff]
  rw [readCacheControl, cacheDirective]
  cases findDirective operation.directives "netlifyCacheControl" with
  | none => simp
  | some directive =>
      simp only [Option.bind_some]
      split
      · rename_i fields hsettings
        simp only [hsettings, Option.some.injEq, Value.object.injEq, Option.any_map,
          Option.any_eq_true, fst_readCacheFields_eq_some_iff]
        constructor
        · rintro ⟨lifetime, ⟨entry, hlast, hdenotes⟩, hpositive⟩
          exact ⟨fields, entry, lifetime, rfl, hlast, hdenotes, hpositive⟩
        · rintro ⟨_, entry, lifetime, rfl, hlast, hdenotes, hpositive⟩
          exact ⟨lifetime, ⟨entry, hlast, hdenotes⟩, hpositive⟩
      · rename_i hother
        simp only [Option.any_none, Bool.false_eq_true, false_iff]
        rintro ⟨fields, entry, lifetime, hsettings, -⟩
        exact hother fields hsettings

/-! ### The method of a function -/

/-- The operation is a persisted query whose answers live for a time. -/
def Syntax.Operation.IsCacheable (operation : Operation) : Prop :=
  operation.kind = .query ∧ operation.AsksForPersisting ∧ operation.AllowsCaching

theorem AnnotatedOperation.fetchMethod_eq_get (function : AnnotatedOperation) :
    function.fetchMethod = .get ↔ function.tag.strategy = .persisted ∧
      (function.cache.any fun cache => cache.secondsToLive.isPositive) = true := by
  rw [fetchMethod]
  split
  · rename_i hmethod
    simpa using hmethod
  · rename_i hmethod
    simpa using hmethod

/-- A function has the method that only reads if its operation is cacheable. -/
theorem fetchMethod_eq_get_iff {topic : Topic} {supply : IdSupply} {document : Document}
    {id : String} {function : AnnotatedOperation}
    (h : (id, function) ∈ (extractAnnotations topic supply document).value.functions) :
    function.fetchMethod = .get ↔ function.operation.IsCacheable := by
  rw [show (extractAnnotations topic supply document).value = _ from
    value_extraction topic supply document] at h
  obtain ⟨⟨key, definition⟩, -, hentry⟩ := List.mem_filterMap.mp (Keyed.mem_ofList h)
  cases definition with
  | fragment => cases hentry
  | operation operation =>
      obtain ⟨rfl, rfl⟩ := Prod.mk.inj (Option.some.inj hentry)
      have hstrategy := strategy_tagWith_eq_persisted_iff topic key operation
      have hcache := isPositive_readCacheControl_iff operation
      rw [AnnotatedOperation.fetchMethod_eq_get]
      dsimp only [annotatedOperation, Operation.IsCacheable]
      by_cases hkind : operation.kind = .query
      · rw [if_pos hkind, hstrategy, hcache]
        exact (and_iff_right hkind).symm
      · simp [hkind]


namespace LibraryRuntime

/-- The line of a request that says with which method it is sent. -/
def methodLine (method : FetchMethod) : String :=
  "    fetchStrategy: \"" ++ method.word ++ "\","

/-- The line starts like one that gives a method. -/
def isMethodLine (line : String) : Bool :=
  "    fetchStrategy".toList.isPrefixOf line.toList

theorem isMethodLine_methodLine (method : FetchMethod) :
    isMethodLine (methodLine method) = true := by
  cases method <;> rfl

theorem methodLine_injective : Function.Injective methodLine := by
  intro method other h
  cases method <;> cases other <;> first | rfl | exact absurd h (by decide)

theorem filter_eventFunction (style : ModuleStyle) (function : LibraryFunction) :
    (eventFunction style function).filter isMethodLine = [] := by
  rw [List.filter_eq_nil_iff]
  cases style <;>
    simp [eventFunction, isMethodLine, ModuleStyle.exporting, String.toList_append]

/-- A request has one such line. -/
theorem filter_requestFunction (style : ModuleStyle) (function : LibraryFunction) :
    (requestFunction style function).filter isMethodLine =
      [methodLine function.source.fetchMethod] := by
  have hsplit : requestFunction style function = (requestFunction style function).take 9 ++
      methodLine function.source.fetchMethod :: ["  \x7d);", "\x7d;"] := rfl
  have hbefore : ∀ line ∈ (requestFunction style function).take 9,
      ¬ isMethodLine line = true := by
    cases style <;>
      simp [requestFunction, descriptionLines, isMethodLine, ModuleStyle.exporting,
        String.toList_append]
  rw [hsplit, List.filter_append, List.filter_eq_nil_iff.mpr hbefore,
    List.filter_cons_of_pos (isMethodLine_methodLine _)]
  rfl

theorem methodLine_mem_functionLines_iff (settings : Settings) (function : LibraryFunction)
    (method : FetchMethod) :
    methodLine method ∈ functionLines settings function ↔
      function.isSubscription = false ∧ function.source.fetchMethod = method := by
  have hfilter : (functionLines settings function).filter isMethodLine =
      if function.isSubscription then [] else [methodLine function.source.fetchMethod] := by
    unfold functionLines
    rw [List.filter_cons_of_neg (by decide)]
    cases function.isSubscription with
    | true =>
      cases verifiesEvents settings with
      | true => exact filter_eventFunction _ _
      | false => rfl
    | false => exact filter_requestFunction _ _
  have hmem : methodLine method ∈ functionLines settings function ↔
      methodLine method ∈ (functionLines settings function).filter isMethodLine := by
    rw [List.mem_filter, isMethodLine_methodLine, and_iff_left rfl]
  rw [hmem, hfilter]
  cases function.isSubscription with
  | true => simp
  | false => simp [methodLine_injective.eq_iff, eq_comm]

end LibraryRuntime

/-- **Only cacheable queries are fetched with the method that only reads.** A function that is
extracted from a document has this method if it is a query whose annotation asks for persisting and
whose cache settings end in a positive lifetime, otherwise the other one, and what is written into
the module of a library for the function says so. -/
theorem get_iff_cacheable (topic : Topic) (supply : IdSupply) (document : Document) :
    (∀ id function, (id, function) ∈ (extractAnnotations topic supply document).value.functions →
      (function.fetchMethod.word = "GET" ↔ function.operation.IsCacheable) ∧
        (function.fetchMethod.word = "POST" ↔ ¬ function.operation.IsCacheable)) ∧
    ∀ (generator : Generator) (library : Library),
      (generator.library document).value = .ok library → ∀ function ∈ library.functions,
        (LibraryRuntime.methodLine .get ∈
            LibraryRuntime.functionLines generator.settings function ↔
          function.source.operation.IsCacheable) := by
  constructor
  · intro id function hmem
    have hget := fetchMethod_eq_get_iff hmem
    cases hmethod : function.fetchMethod with
    | get => simp [← hget, hmethod, FetchMethod.word]
    | post => simp [← hget, hmethod, FetchMethod.word]
  · intro generator library hlibrary function hmem
    obtain ⟨id, source, hsource, hmade⟩ := Generator.exists_annotation_of_mem hlibrary hmem
    obtain ⟨rfl, -⟩ := of_libraryFunction? hmade
    rw [LibraryRuntime.methodLine_mem_functionLines_iff, fetchMethod_eq_get_iff hsource,
      and_iff_right_iff_imp]
    intro hcacheable
    simp [LibraryFunction.isSubscription, LibraryFunction.kind, hcacheable.1]

/-! ### Lifetimes that count -/

/-- A document with one annotated operation, the function of which can be made, has a library with
this function. -/
theorem Generator.exists_library_of_single {generator : Generator} {document : Document}
    {id : String} {source : AnnotatedOperation} {function : LibraryFunction}
    (hfound : (extractAnnotations .generation generator.ids document).value = ⟨[(id, source)], []⟩)
    (hmade : (libraryFunction? (generator.context document.lastFragments) source).run.value =
      .ok (some function))
    (hhooks : generator.hooks = .none) (hname : generator.settings.runtimeFilename ≠ []) :
    ∃ library, (generator.library document).value = .ok library ∧
      library.functions = [function] := by
  have hkept := Generator.members_singleton hfound hmade hhooks
  obtain ⟨name, hdeclared⟩ : ∃ name,
      declarationsName generator.settings.runtimeFilename = .ok name := by
    rw [declarationsName, List.getLast?_eq_some_getLast hname]
    exact ⟨_, rfl⟩
  rw [Generator.library, Logged.value_bind, hkept]
  dsimp only
  rw [Generator.libraryOf]
  simp only [hdeclared]
  exact ⟨_, rfl, rfl⟩

namespace CachedPeople

/-- The lifetime is the last one that is a number, and no later annotation counts. -/
def directives : List Directive :=
  [⟨"netlify", [⟨"id", .string "x" false⟩, ⟨"executionStrategy", .enum "PERSISTED"⟩]⟩,
    ⟨"netlify", [⟨"executionStrategy", .enum "DYNAMIC"⟩]⟩,
    ⟨"netlifyCacheControl", [⟨"cacheStrategy", .object [("timeToLiveSeconds", .int "0"),
      ("timeToLiveSeconds", .float "0.5"), ("timeToLiveSeconds", .null)]⟩]⟩]

def operation (kind : OperationKind) : Operation :=
  ⟨none, kind, some "People", [], directives, [.field ⟨none, "a", [], []⟩ none]⟩

def document (kind : OperationKind) : Document := [.executable (.operation (operation kind))]

def schema : Schema :=
  let root (name : String) : NamedType :=
    ⟨name, none, .object [] [⟨"a", none, [], .named "String"⟩]⟩
  ⟨[root "Query", root "Mutation", root "Subscription", .scalar "String"], some "Query",
    some "Mutation", some "Subscription", []⟩

def generator : Generator :=
  ⟨schema, .standard, .standard, .none, [], fun _ => ""⟩

def annotated (kind : OperationKind) : AnnotatedOperation :=
  annotatedOperation (document kind) ⟨"x", "", .persisted⟩ (operation kind)

theorem extractAnnotations_eq (kind : OperationKind) :
    (extractAnnotations .generation generator.ids (document kind)).value =
      ⟨[("x", annotated kind)], []⟩ :=
  value_extractAnnotations .generation generator.ids (document kind)

theorem isCacheable : (operation .query).IsCacheable := by
  refine ⟨rfl, ?_, ?_⟩
  · rw [Operation.AsksForPersisting, Operation.says_iff]
    rfl
  · rw [← isPositive_readCacheControl_iff]
    decide

theorem responseShape_operation_eq (kind : OperationKind) :
    responseShape (generator.context (document kind).lastFragments) (.operation (operation kind)) =
      ⟨SampleAnswer.shape, [], none⟩ := by
  cases kind <;> exact SampleAnswer.responseShape_eq rfl rfl rfl rfl rfl

theorem exists_function (kind : OperationKind) : ∃ function,
    (libraryFunction? (generator.context (document kind).lastFragments)
      (annotated kind)).run.value = .ok (some function) := by
  have hname : functionName (annotated kind).operation.kind.keyword
      (annotated kind).operation.name = .ok (calledName kind.keyword "People") := rfl
  have hinputs : (variablesShape schema .standard (operation kind)).settle.run.value =
      .ok (.object [] none) := rfl
  exact ⟨_, libraryFunction?_of_shapes hname hinputs (responseShape_operation_eq kind)
    SampleAnswer.signature_shape rfl⟩

/-- A query with these directives is fetched with the method that only reads, while a mutation with
them is posted. -/
theorem query_gets_mutation_posts :
    (∀ kind, ("x", annotated kind) ∈
      (extractAnnotations .generation generator.ids (document kind)).value.functions) ∧
    (annotated .query).fetchMethod.word = "GET" ∧
    (annotated .mutation).fetchMethod.word = "POST" ∧
    ∃ library, (generator.library (document .query)).value = .ok library ∧
      ∃ function ∈ library.functions, LibraryRuntime.methodLine .get ∈
        LibraryRuntime.functionLines generator.settings function := by
  have hmem (kind : OperationKind) : ("x", annotated kind) ∈
      (extractAnnotations .generation generator.ids (document kind)).value.functions := by
    rw [extractAnnotations_eq]
    exact List.mem_singleton_self _
  obtain ⟨function, hfunction⟩ := exists_function .query
  obtain ⟨library, hlibrary, hfunctions⟩ := Generator.exists_library_of_single
    (extractAnnotations_eq .query) hfunction rfl (by decide)
  have hquery := get_iff_cacheable .generation generator.ids (document .query)
  have hmutation := get_iff_cacheable .generation generator.ids (document .mutation)
  have hposted : ¬ (operation .mutation).IsCacheable := fun h => nomatch h.1
  have hmember : function ∈ library.functions := hfunctions ▸ List.mem_singleton_self _
  refine ⟨hmem, ((hquery.1 _ _ (hmem _)).1).mpr isCacheable,
    ((hmutation.1 _ _ (hmem _)).2).mpr hposted, library, hlibrary, function, hmember, ?_⟩
  rw [hquery.2 generator library hlibrary function hmember, (of_libraryFunction? hfunction).1]
  exact isCacheable

end CachedPeople

end OperationLibrary
