import OperationLibrary.Proofs.FileText
import OperationLibrary.Proofs.Lexemes
import OperationLibrary.Proofs.TrimmedText

/-!
Names of functions in generated files. The runtime exports every function under one name, and a
handler calls one. Both are made from the name of an operation, and no line is broken inside them.
-/

namespace OperationLibrary

open Syntax

/-! ### Names of functions -/

/-- The name of the function that stands for an operation: the one that sends it, or the one that
reads the events sent for a subscription. -/
def invokedName (kind : OperationKind) (name : String) : String :=
  if kind = .subscription then "parseAndVerify" ++ name ++ "Event"
  else calledName kind.keyword name

/-- The name that a handler has for an operation. -/
def handlerName (kind : OperationKind) (name : String) : String :=
  if isKindWord name then "unnamed" ++ Text.capitalizeFirst kind.keyword ++ "1" else name

theorem isKindWord_cases {name : String} (h : isKindWord name = true) :
    name = "query" ∨ name = "mutation" ∨ name = "subscription" := by
  unfold isKindWord OperationKind.ofKeyword? at h
  split at h
  · exact .inl rfl
  · exact .inr (.inl rfl)
  · exact .inr (.inr rfl)
  · cases h

/-- A kind word is the one name that a handler changes, and then the function changes with it. -/
theorem invokedName_handlerName_eq_iff (kind : OperationKind) (name : String) :
    invokedName kind (handlerName kind name) = invokedName kind name ↔ isKindWord name = false := by
  cases hword : isKindWord name with
  | false => simp [handlerName, hword]
  | true =>
      refine iff_of_false ?_ (by simp)
      rcases isKindWord_cases hword with rfl | rfl | rfl <;> cases kind <;> decide

/-! ### Characters of names -/

/-- What holds of all ASCII characters in names holds of all characters in names. -/
theorem of_isNameContinue {P : Char → Prop} {c : Char} (hc : isNameContinue c = true)
    (h : ∀ n < 128, isNameContinue (Char.ofNat n) = true → P (Char.ofNat n)) : P c := by
  have hcode := h c.toNat (toNat_lt_of_isNameContinue hc)
  rw [Char.ofNat_toNat] at hcode
  exact hcode hc

theorem feed_not_mem_upperCase {c : Char} (h : isNameContinue c = true) :
    '\n' ∉ Text.upperCase c :=
  of_isNameContinue h (P := fun c => '\n' ∉ Text.upperCase c) (by decide)

theorem isBlank_of_isNameContinue {c : Char} (h : isNameContinue c = true) :
    Text.isBlank c = false :=
  of_isNameContinue h (P := fun c => Text.isBlank c = false) (by decide)

theorem feed_not_mem_of_isName {name : String} (h : IsName name) : '\n' ∉ name.toList := by
  intro hfeed
  exact absurd (isNameContinue_of_mem h _ hfeed) (by decide)

theorem feed_not_mem_invokedName {name : String} (h : IsName name) (kind : OperationKind) :
    '\n' ∉ (invokedName kind name).toList := by
  obtain ⟨c, more, htext, hc, -⟩ := id h
  have hname := feed_not_mem_of_isName h
  have hcapital : '\n' ∉ (Text.capitalizeFirst name).toList := by
    rw [htext, List.mem_cons, not_or] at hname
    rw [Text.capitalizeFirst, htext, String.toList_ofList, List.mem_append, not_or]
    exact ⟨feed_not_mem_upperCase (isNameContinue_of_isNameStart hc), hname.2⟩
  cases kind with
  | subscription =>
      simp only [invokedName, if_pos, String.toList_append, List.mem_append, not_or]
      exact ⟨⟨by decide, hname⟩, by decide⟩
  | query | mutation =>
      simp only [invokedName, reduceCtorEq, if_false, calledName, String.toList_append,
        List.mem_append, not_or]
      exact ⟨by decide, hcapital⟩

theorem isName_handlerName {name : String} (h : IsName name) (kind : OperationKind) :
    IsName (handlerName kind name) := by
  rw [handlerName]
  split
  · cases kind <;> decide
  · exact h

theorem trimBlank_of_isName {name : String} (h : IsName name) : Text.trimBlank name = name := by
  have hplain : ∀ c ∈ name.toList, Text.isBlank c = false := fun c hc =>
    isBlank_of_isNameContinue (isNameContinue_of_mem h c hc)
  exact Text.trimBlank_eq_self (fun c hc => hplain c (List.mem_of_mem_head? hc))
    fun c hc => hplain c (List.mem_of_getLast? hc)

/-! ### Exports of the runtime -/

/-- The name under which the runtime exports a function. -/
def LibraryFunction.exportedName (function : LibraryFunction) : String :=
  if function.isSubscription then LibraryRuntime.eventFunctionName function else function.name

/-- The file exports a function under a name, and has it among all functions. -/
def OutputFile.Exports (file : OutputFile) (style : ModuleStyle) (name : String) : Prop :=
  file.Shows (style.exporting name ++ " = (") ∧
    file.Shows ("  " ++ name ++ ": " ++ style.exported name ++ ",")

instance (file : OutputFile) (style : ModuleStyle) (name : String) :
    Decidable (file.Exports style name) :=
  inferInstanceAs (Decidable (_ ∧ _))

namespace LibraryRuntime

variable {settings : Settings} {function : LibraryFunction}

theorem linesShow_exporting (hnode : settings.target = .node) :
    LinesShow (functionLines settings function)
      (settings.moduleStyle.exporting function.exportedName ++ " = (") := by
  have hverifies : verifiesEvents settings = true := by simp [verifiesEvents, hnode]
  cases hevents : function.isSubscription with
  | true =>
      have hmem : settings.moduleStyle.exporting (eventFunctionName function) ++
          " = (event, options) => \x7b" ∈ functionLines settings function := by
        simp [functionLines, eventFunction, hevents, hverifies]
      rw [LibraryFunction.exportedName, hevents, if_pos rfl]
      exact linesShow_of_mem hmem "" "event, options) => \x7b" (by simp [← String.toList_inj])
  | false =>
      have hmem : settings.moduleStyle.exporting function.name ++
          " = (variables, options) => \x7b" ∈ functionLines settings function := by
        simp [functionLines, requestFunction, hevents]
      rw [LibraryFunction.exportedName, hevents, if_neg Bool.false_ne_true]
      exact linesShow_of_mem hmem "" "variables, options) => \x7b" (by simp [← String.toList_inj])

theorem linesShow_exported (hnode : settings.target = .node) :
    let name := function.exportedName
    LinesShow (entryLines settings function)
      ("  " ++ name ++ ": " ++ settings.moduleStyle.exported name ++ ",") := by
  have hverifies : verifiesEvents settings = true := by simp [verifiesEvents, hnode]
  intro name
  have hmem : "  " ++ name ++ ": " ++ settings.moduleStyle.exported name ++ "," ∈
      entryLines settings function := by
    cases hevents : function.isSubscription with
    | true => simp [entryLines, name, LibraryFunction.exportedName, hevents, hverifies]
    | false => simp [entryLines, name, LibraryFunction.exportedName, hevents]
  exact ⟨_, hmem, List.infix_refl _⟩

theorem functionLines_subset_lines {functions : List LibraryFunction}
    (hmem : function ∈ functions) : functionLines settings function ⊆ lines settings functions := by
  intro line hline
  have hall : line ∈ functions.flatMap (functionLines settings) :=
    List.mem_flatMap.mpr ⟨function, hmem, hline⟩
  simp only [lines, List.mem_append, hall, or_true, true_or]

theorem entryLines_subset_lines {functions : List LibraryFunction}
    (hmem : function ∈ functions) : entryLines settings function ⊆ lines settings functions := by
  intro line hline
  have hall : line ∈ functions.flatMap (entryLines settings) :=
    List.mem_flatMap.mpr ⟨function, hmem, hline⟩
  simp only [lines, List.mem_append, hall, or_true, true_or]

end LibraryRuntime

/-- The built-in runtime exports all functions. -/
theorem Generator.exports_file {generator : Generator} (hbuiltIn : generator.overrides = [])
    (hnode : generator.settings.target = .node) (template : String) (name : List String)
    (language : HandlerLanguage) {functions : List LibraryFunction} {function : LibraryFunction}
    (hmem : function ∈ functions) (hplain : '\n' ∉ function.exportedName.toList) :
    (generator.file template name language
      (LibraryRuntime.lines generator.settings functions)).Exports
        generator.settings.moduleStyle function.exportedName := by
  constructor
  · refine generator.shows_file hbuiltIn template name language
      ((LibraryRuntime.linesShow_exporting hnode).mono
        (LibraryRuntime.functionLines_subset_lines hmem)) ?_
    cases generator.settings.moduleStyle <;> simp [ModuleStyle.exporting, hplain]
  · refine generator.shows_file hbuiltIn template name language
      ((LibraryRuntime.linesShow_exported hnode).mono
        (LibraryRuntime.entryLines_subset_lines hmem)) ?_
    cases generator.settings.moduleStyle <;> simp [ModuleStyle.exported, hplain]

/-! ### Calls of handlers -/

/-- The file calls a function of the library. -/
def OutputFile.Calls (file : OutputFile) (name : String) : Prop :=
  file.Shows ("NetlifyGraph." ++ name ++ "(")

instance (file : OutputFile) (name : String) : Decidable (file.Calls name) :=
  inferInstanceAs (Decidable (file.Shows _))

section

variable (settings : Settings) (options : HandlerOptions) (operation : HandlerOperation)

theorem ApiRoute.linesShow_call (others : List HandlerOperation) :
    LinesShow (ApiRoute.lines settings options (operation :: others))
      ("NetlifyGraph." ++ operation.functionName ++ "(") := by
  have hmem : "  const \x7b errors, data \x7d = await NetlifyGraph." ++ operation.functionName ++
      "(\x7b " ++ operation.callMembers ++ " \x7d, \x7b accessToken: accessToken \x7d);" ∈
        ApiRoute.callLines options operation := by
    simp [ApiRoute.callLines]
  refine (linesShow_of_mem hmem "  const \x7b errors, data \x7d = await "
    ("\x7b " ++ operation.callMembers ++ " \x7d, \x7b accessToken: accessToken \x7d);")
    (by simp [← String.toList_inj])).mono fun line hline => ?_
  have hall : line ∈ (operation :: others).flatMap (ApiRoute.callLines options) :=
    List.mem_flatMap.mpr ⟨operation, List.mem_cons_self, hline⟩
  simp only [ApiRoute.lines, List.mem_append, hall, or_true, true_or]

theorem FunctionHandler.linesShow_call (filename : String) (others : List HandlerOperation) :
    LinesShow (FunctionHandler.lines settings options filename (operation :: others))
      ("NetlifyGraph." ++ operation.functionName ++ "(") := by
  have hmem : "    await NetlifyGraph." ++ operation.functionName ++ "(\x7b " ++
      operation.callMembers ++ " \x7d, \x7b accessToken: accessToken \x7d);" ∈
        FunctionHandler.callLines options operation := by
    simp [FunctionHandler.callLines]
  refine (linesShow_of_mem hmem "    await "
    ("\x7b " ++ operation.callMembers ++ " \x7d, \x7b accessToken: accessToken \x7d);")
    (by simp [← String.toList_inj])).mono fun line hline => ?_
  have hall : line ∈ (operation :: others).flatMap (FunctionHandler.callLines options) :=
    List.mem_flatMap.mpr ⟨operation, List.mem_cons_self, hline⟩
  simp only [FunctionHandler.lines, List.mem_append, hall, or_true, true_or]

theorem FormRoute.linesShow_call :
    LinesShow (FormRoute.lines settings operation)
      ("NetlifyGraph." ++ operation.functionName ++ "(") := by
  have hmem : "  const \x7b errors, data \x7d = await NetlifyGraph." ++ operation.functionName ++
      "(\x7b " ++ operation.callMembers ++ " \x7d, \x7b accessToken: accessToken \x7d);" ∈
        FormRoute.lines settings operation := by
    simp [FormRoute.lines]
  exact linesShow_of_mem hmem "  const \x7b errors, data \x7d = await "
    ("\x7b " ++ operation.callMembers ++ " \x7d, \x7b accessToken: accessToken \x7d);")
    (by simp [← String.toList_inj])

end

section

variable (settings : Settings) (name : String)

theorem ApiRoute.linesShow_webhook : LinesShow (ApiRoute.webhookLines settings name)
    ("NetlifyGraph." ++ ("parseAndVerify" ++ name ++ "Event") ++ "(") := by
  have hmem : "  const payload = NetlifyGraph.parseAndVerify" ++ name ++ "Event(\x7b" ∈
      ApiRoute.webhookLines settings name := by
    simp only [ApiRoute.webhookLines, List.mem_append, List.mem_cons, true_or, or_true]
  exact linesShow_of_mem hmem "  const payload = " "\x7b" (by simp [← String.toList_inj])

theorem FormRoute.linesShow_webhook : LinesShow (FormRoute.webhookLines settings name)
    ("NetlifyGraph." ++ ("parseAndVerify" ++ name ++ "Event") ++ "(") := by
  have hmem : "  const payload = NetlifyGraph.parseAndVerify" ++ name ++ "Event(\x7b" ∈
      FormRoute.webhookLines settings name := by
    simp only [FormRoute.webhookLines, List.mem_cons, true_or, or_true]
  exact linesShow_of_mem hmem "  const payload = " "\x7b" (by simp [← String.toList_inj])

theorem FunctionHandler.linesShow_webhook : LinesShow (FunctionHandler.webhookLines settings name)
    ("NetlifyGraph." ++ ("parseAndVerify" ++ name ++ "Event") ++ "(") := by
  have hmem : "  const payload = NetlifyGraph.parseAndVerify" ++ name ++ "Event(event);" ∈
      FunctionHandler.webhookLines settings name := by
    simp only [FunctionHandler.webhookLines, List.mem_cons, true_or, or_true]
  exact linesShow_of_mem hmem "  const payload = " "event);" (by simp [← String.toList_inj])

end

namespace Generator

variable {generator : Generator}

/-- The handler of requests calls the function of its first operation. -/
theorem calls_requestFile (hbuiltIn : generator.overrides = []) (options : HandlerOptions)
    (filename : String) (first : HandlerOperation) (others : List HandlerOperation)
    (hplain : '\n' ∉ first.functionName.toList) :
    (generator.requestFile options filename first (first :: others)).Calls first.functionName := by
  have htext : '\n' ∉ ("NetlifyGraph." ++ first.functionName ++ "(").toList := by simp [hplain]
  rw [requestFile]
  split
  · exact shows_file hbuiltIn _ _ _ (ApiRoute.linesShow_call _ options first others) htext
  · exact shows_file hbuiltIn _ _ _ (FormRoute.linesShow_call _ first) htext
  · exact shows_file hbuiltIn _ _ _
      (FunctionHandler.linesShow_call _ options first filename others) htext
  · exact shows_file hbuiltIn _ _ _
      (FunctionHandler.linesShow_call _ options first filename others) htext

/-- The handler of events calls the function that reads them. -/
theorem calls_webhookFile (hbuiltIn : generator.overrides = []) (operation : HandlerOperation)
    (hplain : '\n' ∉ operation.name.toList) :
    (generator.webhookFile operation).Calls ("parseAndVerify" ++ operation.name ++ "Event") := by
  have htext : '\n' ∉
      ("NetlifyGraph." ++ ("parseAndVerify" ++ operation.name ++ "Event") ++ "(").toList := by
    simp [hplain]
  rw [webhookFile]
  split
  · exact shows_file hbuiltIn _ _ _ (ApiRoute.linesShow_webhook _ _) htext
  · exact shows_file hbuiltIn _ _ _ (FormRoute.linesShow_webhook _ _) htext
  · exact shows_file hbuiltIn _ _ _ (FunctionHandler.linesShow_webhook _ _) htext
  · exact shows_file hbuiltIn _ _ _ (FunctionHandler.linesShow_webhook _ _) htext

end Generator

end OperationLibrary
