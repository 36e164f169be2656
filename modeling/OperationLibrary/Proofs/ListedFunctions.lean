import OperationLibrary.Proofs.FunctionListing

/-!
The functions that a runtime names. The parts that are the same in every runtime are read as they
stand, and the others line by line: a line inside of a function is indented or closes what was
opened, so that whatever an operation is called and whatever its text is, it exports the function
that is made for it and nothing else.
-/

namespace OperationLibrary

open Syntax (IsName isNameContinue isNameContinue_of_mem isNameContinue_of_isNameStart)
open SourceText

/-! ### Functions in code -/

/-- Nothing in a function gets in the way of reading the code around it: its names are names, its
description does not end the comment that it stands in, and its types are the texts of types. -/
structure LibraryFunction.Legible (function : LibraryFunction) : Prop where
  name : IsName function.operationName
  called : function.name = calledName function.kind.keyword function.operationName
  carries : function.CarriesText
  description : Unclosed (commentBody function.source.tag.description).toList
  answer : ReadsType function.answerSignature.toList
  inputs : ReadsType function.variablesSignature.toList

/-- The function with an empty description. -/
def LibraryFunction.undescribed (function : LibraryFunction) : LibraryFunction :=
  { function with
    source := { function.source with tag := { function.source.tag with description := "" } } }

theorem LibraryFunction.Legible.of_undescribed {function : LibraryFunction}
    (h : function.undescribed.Legible)
    (hdescription : Unclosed (commentBody function.source.tag.description).toList) :
    function.Legible :=
  ⟨h.name, h.called, h.carries, hdescription, h.answer, h.inputs⟩

/-- The same for a type. -/
structure LibraryType.Legible (type : LibraryType) : Prop where
  name : IsName type.source.fragment.name
  description : Unclosed (commentBody type.source.tag.description).toList
  signature : ReadsType type.signature.toList

theorem unclosed_commentBody_empty : Unclosed (commentBody "").toList := by
  have hempty : (commentBody "").toList = [] := rfl
  rw [hempty]
  exact List.IsChain.nil

theorem isNameContinue_capitalizeFirst {name : String} (h : IsName name) :
    ∀ c ∈ (Text.capitalizeFirst name).toList, isNameContinue c = true := by
  obtain ⟨c, more, htext, hc, hmore⟩ := h
  have hcapital : (Text.upperCase c).all isNameContinue = true :=
    (isNameCharacter_of_isNameContinue (isNameContinue_of_isNameStart hc)).upperCase
  rw [Text.capitalizeFirst, htext, String.toList_ofList]
  intro d hd
  exact (List.mem_append.mp hd).elim (List.all_eq_true.mp hcapital d) (hmore d)

theorem isNameContinue_append {text more : String}
    (h : ∀ c ∈ text.toList, isNameContinue c = true)
    (hmore : ∀ c ∈ more.toList, isNameContinue c = true) :
    ∀ c ∈ (text ++ more).toList, isNameContinue c = true := by
  rw [String.toList_append]
  exact fun c hc => (List.mem_append.mp hc).elim (h c) (hmore c)

theorem isNameContinue_literal {text : List Char} (h : text.all isNameContinue = true) :
    ∀ c ∈ (String.ofList text).toList, isNameContinue c = true := by
  rw [String.toList_ofList]
  exact List.all_eq_true.mp h

/-- The comment in front of a member for events. -/
theorem listsMembers_verifyLines :
    ListsMembers ["  /**",
      "   * Verify the event body is signed securely, and then parse the result.",
      "   */"] [] := by
  have hbody : Unclosed
      "Verify the event body is signed securely, and then parse the result.".toList := by
    refine unclosed_of_not_mem ?_
    simp only [toList_literal]
    decide
  have hlines := readsLines_commentLines "  " (by decide) hbody
  refine .comment ?_
  simpa only [lineChars_cons, String.toList_append, toList_literal, List.nil_append,
    List.cons_append] using hlines

namespace LibraryFunction.Legible

variable {function : LibraryFunction}

theorem isNameContinue_operationName (h : function.Legible) :
    ∀ c ∈ function.operationName.toList, isNameContinue c = true :=
  isNameContinue_of_mem h.name

theorem quoted_operationName (h : function.Legible) :
    ∀ c ∈ function.operationName.toList, c ≠ '"' ∧ c ≠ '\\' ∧ isLineEnd c = false := fun c hc =>
  (isNameCharacter_of_isNameContinue (h.isNameContinue_operationName c hc)).quoted

theorem isNameContinue_eventFunctionName (h : function.Legible) :
    ∀ c ∈ (LibraryRuntime.eventFunctionName function).toList, isNameContinue c = true :=
  isNameContinue_append (isNameContinue_append (isNameContinue_literal rfl)
    h.isNameContinue_operationName) (isNameContinue_literal rfl)

theorem isNameContinue_name (h : function.Legible) :
    ∀ c ∈ function.name.toList, isNameContinue c = true := by
  rw [h.called, calledName]
  refine isNameContinue_append ?_ (isNameContinue_capitalizeFirst h.name)
  cases function.kind <;> exact isNameContinue_literal rfl

/-- The comment in front of the function for events. -/
theorem readsLines_verifyLines (h : function.Legible) :
    ReadsLines (lineChars ["/**", " * Verify the " ++ function.operationName ++
      " event body is signed securely, and then parse the result.", " */"]) [] := by
  have hbody : Unclosed ("Verify the " ++ function.operationName ++
      " event body is signed securely, and then parse the result.").toList := by
    refine unclosed_of_not_mem ?_
    simp only [String.toList_append, toList_literal, List.mem_append, not_or]
    refine ⟨⟨by decide, fun hstar => ?_⟩, by decide⟩
    exact absurd (h.isNameContinue_operationName _ hstar) (by decide)
  have hlines := readsLines_commentLines "" (by decide) hbody
  simpa only [lineChars_cons, String.toList_append, toList_literal, List.nil_append,
    List.cons_append] using hlines

theorem readsLines_descriptionLines (h : function.Legible) (margin : String)
    (hmargin : margin.toList.all (· == ' ') = true) :
    ReadsLines (lineChars (LibraryRuntime.descriptionLines margin function)) [] :=
  readsLines_commentLines margin hmargin h.description

end LibraryFunction.Legible

/-! ### The runtime -/

namespace LibraryRuntime

variable {settings : Settings} {function : LibraryFunction}

/-- Whether the runtime has a function for the operation of a function. -/
def offers (settings : Settings) (function : LibraryFunction) : Bool :=
  !function.isSubscription || verifiesEvents settings

theorem exporting_eq (style : ModuleStyle) (name : String) :
    style.exporting name = style.exporting "" ++ name := by
  cases style <;> simp [ModuleStyle.exporting]

/-- The parts of a runtime that are the same for all functions. -/
def fixedParts (style : ModuleStyle) : List (List String) :=
  [heading, cacheLines, requestLines, signatureLines,
    ["", style.importing "crypto" "crypto" ++ ";"],
    ["    variables: variables,", "    options: options || \x7b\x7d,"],
    ["  \x7d);", "\x7d;"],
    ["    return null;", "  \x7d", "", "  return JSON.parse(event.body || '\x7b\x7d');", "\x7d;"],
    ["", "/**", " * The generated NetlifyGraph library with your operations", " */"],
    ["", style.exportingDefault "functions" ++ ";"]]

theorem tells_fixedParts (style : ModuleStyle) :
    ∀ lines ∈ fixedParts style, (Listing.runtime style).Tells lines [] := by
  have hsilent : ∀ lines ∈ fixedParts style,
      (Listing.runtime style).isSilentFrom .code [] (lines.map String.toList) = true := by
    rw [← List.all_eq_true]
    cases style
    all_goals
      dsimp only [fixedParts, ModuleStyle.importing, ModuleStyle.exportingDefault]
      simp only [heading, cacheLines, requestLines, signatureLines, List.all_cons, List.all_nil,
        List.map_cons, List.map_nil, String.toList_append, toList_literal]
      decide +kernel
  exact fun lines h => .fixed (hsilent lines h)

theorem tells_blank (listing : Listing) : listing.Tells [""] [] :=
  .comment (.of_run rfl)

/-- The id of the schema can stand between single quotes as it is. -/
def QuotesId (settings : Settings) : Prop :=
  ∀ c ∈ settings.schemaId.toList, c ≠ '\'' ∧ c ≠ '\\' ∧ isLineEnd c = false

theorem tells_schemaId (style : ModuleStyle) (h : QuotesId settings) :
    (Listing.runtime style).Tells ["const schemaId = '" ++ settings.schemaId ++ "';"] [] := by
  have htext : ("const schemaId = '" ++ settings.schemaId ++ "';").toList =
      "const schemaId = ".toList ++ ('\'' :: (settings.schemaId.toList ++ ['\''])) ++ [';'] := by
    simp only [String.toList_append, toList_literal]
    simp
  have hfront : ReadsCode "const schemaId = ".toList _ := .literal rfl
  have hcode := (hfront.append (.quoted (.inl rfl) h)).append (.char (c := ';') rfl)
  refine .line (htext ▸ hcode) ⟨?_, ?_⟩
  · exact (Listing.runtime_regular style).exported?_eq_none (by simp)
  · simp [Listing.runtime]

/-- An inner line with a text between quotes. -/
theorem tells_quoted (style : ModuleStyle) {line before : String}
    {inside after opening closing : List Char}
    (hline : line.toList = before.toList ++ ('"' :: (inside ++ ['"'])) ++ after)
    (hbefore : ReadsCode before.toList opening) (hinner : IsInner opening)
    (hinside : ∀ c ∈ inside, c ≠ '"' ∧ c ≠ '\\' ∧ isLineEnd c = false)
    (hafter : ReadsCode after closing) : (Listing.runtime style).Tells [line] [] := by
  have hcode := (hbefore.append (.quoted (.inr rfl) hinside)).append hafter
  exact .inner (Listing.runtime_regular style) (hline ▸ hcode) ((hinner.append _).append _)

theorem quoted_word (method : FetchMethod) :
    ∀ c ∈ method.word.toList, c ≠ '"' ∧ c ≠ '\\' ∧ isLineEnd c = false := by
  have hword : ∀ c ∈ method.word.toList, isNameContinue c = true := by
    cases method <;> exact isNameContinue_literal rfl
  exact fun c hc => (isNameCharacter_of_isNameContinue (hword c hc)).quoted

/-- The function that sends an operation is exported under its name. -/
theorem tells_requestFunction (style : ModuleStyle) (h : function.Legible) :
    (Listing.runtime style).Tells (requestFunction style function) [function.name] := by
  have hregular := Listing.runtime_regular style
  have hcomment : (Listing.runtime style).Tells (descriptionLines "" function) [] :=
    .comment (h.readsLines_descriptionLines "" (by decide))
  have hexport : (Listing.runtime style).Tells
      [style.exporting function.name ++ " = (variables, options) => \x7b"] [function.name] := by
    have hline : style.exporting function.name ++ " = (variables, options) => \x7b" =
        style.exporting "" ++ function.name ++ " = (" ++ "variables, options) => \x7b" := by
      rw [exporting_eq, String.append_assoc, String.append_assoc, String.append_assoc]
      rfl
    rw [hline]
    exact .statement hregular h.isNameContinue_name (.literal rfl)
  have hopen : (Listing.runtime style).Tells ["  return fetchNetlifyGraph(\x7b"] [] :=
    .inner hregular (.literal rfl) ⟨' ', rfl, .inl rfl⟩
  have hquery : (Listing.runtime style).Tells ["    query: `" ++ function.body ++ "`,"] [] := by
    -- inside the literal nothing of the query is taken for code
    let text := function.source.persistableText.toList
    have htext : ("    query: `" ++ function.body ++ "`,").toList =
        "    query: ".toList ++ ('\x60' :: (templateLiteral text ++ ['\x60'])) ++ [','] := by
      rw [h.carries, templateLiteralText]
      simp only [String.toList_append, toList_literal]
      simp [text]
    have hfront : ReadsCode "    query: ".toList _ := .literal rfl
    have hcode := (hfront.append (.template text)).append
      (.char (c := ',') rfl)
    exact .inner hregular (htext ▸ hcode) ⟨' ', rfl, .inl rfl⟩
  have hname : (Listing.runtime style).Tells
      ["    operationName: \"" ++ function.operationName ++ "\","] [] := by
    have hfront : ReadsCode "    operationName: ".toList _ := .literal rfl
    refine tells_quoted style ?_ hfront ⟨' ', rfl, .inl rfl⟩ h.quoted_operationName
      (.char (c := ',') rfl)
    simp only [String.toList_append, toList_literal]
    simp
  have hvariables : (Listing.runtime style).Tells
      ["    variables: variables,", "    options: options || \x7b\x7d,"] [] :=
    tells_fixedParts style _ (by simp [fixedParts])
  have hstrategy : (Listing.runtime style).Tells
      ["    fetchStrategy: \"" ++ function.source.fetchMethod.word ++ "\","] [] := by
    have hfront : ReadsCode "    fetchStrategy: ".toList _ := .literal rfl
    refine tells_quoted style ?_ hfront ⟨' ', rfl, .inl rfl⟩
      (quoted_word function.source.fetchMethod) (.char (c := ',') rfl)
    simp only [String.toList_append, toList_literal]
    simp
  have hclose : (Listing.runtime style).Tells ["  \x7d);", "\x7d;"] [] :=
    tells_fixedParts style _ (by simp [fixedParts])
  exact hcomment.append (hexport.append (hopen.append (hquery.append (hname.append
    (hvariables.append (hstrategy.append hclose))))))

/-- The function for events is exported under the name that is made for it. -/
theorem tells_eventFunction (style : ModuleStyle) (h : function.Legible) :
    (Listing.runtime style).Tells (eventFunction style function) [eventFunctionName function] := by
  have hregular := Listing.runtime_regular style
  have hcomment : (Listing.runtime style).Tells _ [] := .comment h.readsLines_verifyLines
  have hexport : (Listing.runtime style).Tells
      [style.exporting (eventFunctionName function) ++ " = (event, options) => \x7b"]
      [eventFunctionName function] := by
    have hline : style.exporting (eventFunctionName function) ++ " = (event, options) => \x7b" =
        style.exporting "" ++ eventFunctionName function ++ " = (" ++
          "event, options) => \x7b" := by
      rw [exporting_eq, String.append_assoc, String.append_assoc, String.append_assoc]
      rfl
    rw [hline]
    exact .statement hregular h.isNameContinue_eventFunctionName
      (.literal rfl)
  have hopen : (Listing.runtime style).Tells
      ["  if (!verifyRequestSignature(\x7b event: event \x7d, options)) \x7b"] [] :=
    .inner hregular (.literal rfl) ⟨' ', rfl, .inl rfl⟩
  have hwarn : (Listing.runtime style).Tells
      ["    console.warn(\"Unable to verify signature for " ++ function.operationName ++
        "\");"] [] := by
    have hfront : ReadsCode "    console.warn(".toList _ := .literal rfl
    have hinside : ∀ c ∈ "Unable to verify signature for ".toList ++ function.operationName.toList,
        c ≠ '"' ∧ c ≠ '\\' ∧ isLineEnd c = false := by
      have hfixed : ("Unable to verify signature for ".toList.all fun c =>
          c != '"' && c != '\\' && !isLineEnd c) = true := by
        simp only [toList_literal]
        decide
      intro c hc
      rcases List.mem_append.mp hc with hc | hc
      · simpa [and_assoc] using List.all_eq_true.mp hfixed c hc
      · exact h.quoted_operationName c hc
    have hend : ReadsCode [')', ';'] _ := .plain rfl
    refine tells_quoted style ?_ hfront ⟨' ', rfl, .inl rfl⟩ hinside hend
    simp only [String.toList_append, toList_literal]
    simp
  have hclose : (Listing.runtime style).Tells ["    return null;", "  \x7d", "",
      "  return JSON.parse(event.body || '\x7b\x7d');", "\x7d;"] [] :=
    tells_fixedParts style _ (by simp [fixedParts])
  exact hcomment.append (hexport.append (hopen.append (hwarn.append hclose)))

/-- An operation that the runtime offers a function for has it under its name; the others have
none. -/
theorem tells_functionLines (settings : Settings) (h : function.Legible) :
    (Listing.runtime settings.moduleStyle).Tells (functionLines settings function)
      (if offers settings function then [function.exportedName] else []) := by
  have hblank := tells_blank (Listing.runtime settings.moduleStyle)
  cases hevents : function.isSubscription with
  | false =>
      have hfunction := hblank.append (tells_requestFunction settings.moduleStyle h)
      simpa [functionLines, offers, LibraryFunction.exportedName, hevents] using hfunction
  | true =>
      cases hverifies : verifiesEvents settings with
      | false => simpa [functionLines, offers, hevents, hverifies] using hblank
      | true =>
          have hfunction := hblank.append (tells_eventFunction settings.moduleStyle h)
          simpa [functionLines, offers, LibraryFunction.exportedName, hevents, hverifies]
            using hfunction

theorem readsCode_exported (style : ModuleStyle) {name : String}
    (hname : ∀ c ∈ name.toList, isNameContinue c = true) :
    ∃ code, ReadsCode (style.exported name ++ ",").toList code := by
  have hcomma : ReadsCode ",".toList _ := .literal rfl
  cases style with
  | commonJs =>
      have hfront : ReadsCode "exports.".toList _ := .literal rfl
      simp only [ModuleStyle.exported, String.toList_append]
      exact ⟨_, (hfront.append (.name hname)).append hcomma⟩
  | esm =>
      simp only [ModuleStyle.exported, String.toList_append]
      exact ⟨_, (ReadsCode.name hname).append hcomma⟩

/-- What is exported is listed. -/
theorem lists_entryLines (settings : Settings) (h : function.Legible) :
    ListsMembers (entryLines settings function)
      (if offers settings function then [function.exportedName] else []) := by
  have hmember (name : String) (hname : ∀ c ∈ name.toList, isNameContinue c = true) :
      ListsMembers ["  " ++ name ++ ": " ++ settings.moduleStyle.exported name ++ ","] [name] := by
    obtain ⟨code, hcode⟩ := readsCode_exported settings.moduleStyle hname
    rw [String.append_assoc]
    exact .member hname hcode
  cases hevents : function.isSubscription with
  | false =>
      have hentry := (ListsMembers.comment (h.readsLines_descriptionLines "  "
        (by decide))).append (hmember _ h.isNameContinue_name)
      simpa [entryLines, offers, LibraryFunction.exportedName, hevents] using hentry
  | true =>
      cases hverifies : verifiesEvents settings with
      | false => simpa [entryLines, offers, hevents, hverifies] using ListsMembers.nil
      | true =>
          have hentry := listsMembers_verifyLines.append
            (hmember _ h.isNameContinue_eventFunctionName)
          simpa [entryLines, offers, LibraryFunction.exportedName, hevents, hverifies]
            using hentry

/-- The names of the functions that the runtime has. -/
def offeredNames (settings : Settings) (functions : List LibraryFunction) : List String :=
  (functions.filter (offers settings)).map LibraryFunction.exportedName

theorem flatMap_offers (settings : Settings) (functions : List LibraryFunction) :
    (functions.flatMap fun function =>
      if offers settings function then [function.exportedName] else []) =
        offeredNames settings functions := by
  induction functions with
  | nil => rfl
  | cons function functions ih =>
      rw [List.flatMap_cons, ih, offeredNames, offeredNames]
      cases hoffers : offers settings function with
      | true => rw [List.filter_cons_of_pos hoffers, List.map_cons]; rfl
      | false => rw [List.filter_cons_of_neg (by simp [hoffers])]; rfl

/-- The lines in front of the functions. -/
theorem tells_preamble (settings : Settings) (hid : QuotesId settings) (signed : Bool) :
    (Listing.runtime settings.moduleStyle).Tells
      (heading ++ (if signed then ["", settings.moduleStyle.importing "crypto" "crypto" ++ ";"]
        else []) ++ [""] ++ cacheLines ++ ["const schemaId = '" ++ settings.schemaId ++ "';", ""] ++
          requestLines ++ (if signed then signatureLines else [])) [] := by
  let style := settings.moduleStyle
  have hfixed := tells_fixedParts style
  have hheading := hfixed heading (by simp [fixedParts])
  have hcache := hfixed cacheLines (by simp [fixedParts])
  have hrequest := hfixed requestLines (by simp [fixedParts])
  have himport : (Listing.runtime style).Tells
      (if signed then ["", style.importing "crypto" "crypto" ++ ";"] else []) [] := by
    cases signed with
    | true => exact hfixed _ (by simp [fixedParts])
    | false => exact .nil
  have hsignature : (Listing.runtime style).Tells (if signed then signatureLines else []) [] := by
    cases signed with
    | true => exact hfixed signatureLines (by simp [fixedParts])
    | false => exact .nil
  have hblank := tells_blank (Listing.runtime style)
  exact (((((hheading.append himport).append hblank).append hcache).append
    ((tells_schemaId style hid).append hblank)).append hrequest).append hsignature

/-- **The functions of the runtime.** The runtime exports the functions that it offers and lists the
same ones. -/
theorem read_lines (settings : Settings) (hid : QuotesId settings)
    {functions : List LibraryFunction} (h : ∀ function ∈ functions, function.Legible) :
    (Listing.runtime settings.moduleStyle).read (lineChars (lines settings functions)) =
      some (offeredNames settings functions, offeredNames settings functions) := by
  let style := settings.moduleStyle
  let signed := functions.any LibraryFunction.isSubscription && verifiesEvents settings
  have hfunctions : (Listing.runtime style).Tells (functions.flatMap (functionLines settings))
      (offeredNames settings functions) :=
    flatMap_offers settings functions ▸
      .flatMap fun function hmem => tells_functionLines settings (h function hmem)
  have hentries : ListsMembers (functions.flatMap (entryLines settings))
      (offeredNames settings functions) :=
    flatMap_offers settings functions ▸
      .flatMap fun function hmem => lists_entryLines settings (h function hmem)
  have hcomment : (Listing.runtime style).Tells
      ["", "/**", " * The generated NetlifyGraph library with your operations", " */"] [] :=
    tells_fixedParts style _ (by simp [fixedParts])
  have hbefore := ((tells_preamble settings hid signed).append hfunctions).append hcomment
  rw [List.nil_append, List.append_nil] at hbefore
  have hlast := tells_fixedParts style ["", style.exportingDefault "functions" ++ ";"]
    (by simp [fixedParts])
  have hread := Listing.read_eq (Listing.runtime_regular style) hbefore hentries hlast
  simpa only [lines, Listing.runtime, List.append_assoc, List.cons_append, List.nil_append]
    using hread

end LibraryRuntime

end OperationLibrary
