import OperationLibrary.Proofs.ListedFunctions

/-!
The functions that declarations name. Every function of a library is declared and listed, whatever
the settings say. The types between the functions take lines that start with the word for a type or
are inner ones, so that they are never read as functions.
-/

namespace OperationLibrary.LibraryDeclarations

open Syntax (IsName isNameContinue isNameContinue_of_mem)
open LibraryRuntime (eventFunctionName heading descriptionLines tells_blank)

variable {function : LibraryFunction} {type : LibraryType}

/-- The parts of declarations that are the same for all functions. -/
def fixedParts : List (List String) :=
  [heading, commonLines,
    ["  /** A Netlify Handler Event */",
      "  event: WebhookEvent,",
      "  options?: \x7b",
      "    /**",
      "     * Defaults to the value of the NETLIFY_GRAPH_WEBHOOK_SECRET environment variable.",
      "     */",
      "    webhookSecret?: string | null | undefined;",
      "  \x7d"],
    ["  /**",
      "   * Pass `\x7b\x7d` as no variables are defined for this function.",
      "   */"],
    ["  variables: Record<string, never>,"],
    ["  options?: NetlifyGraphFunctionOptions"],
    ["", "export const functions: Functions;", "", "export default functions;"]]

theorem tells_fixedParts : ∀ lines ∈ fixedParts, Listing.declarations.Tells lines [] := by
  have hsilent : ∀ lines ∈ fixedParts,
      Listing.declarations.isSilentFrom .code [] (lines.map String.toList) = true := by
    rw [← List.all_eq_true]
    simp only [fixedParts, heading, commonLines, List.all_cons, List.all_nil, List.map_cons,
      List.map_nil, toList_literal]
    decide +kernel
  exact fun lines h => .fixed (hsilent lines h)

/-! ### Types -/

/-- Statements of types export no functions. -/
theorem silent_typeStatement (more : List Char) :
    Listing.declarations.Silent ("export type ".toList ++ more) := by
  simp only [Listing.Silent, Listing.exported?, Listing.declarations, nameBetween?, behind?,
    toList_literal]
  constructor
  · rfl
  · simp

/-- The statement of a type says nothing about functions, however many lines the type takes. -/
theorem tells_typeStatement {name signature : String}
    (hname : ∀ c ∈ name.toList, isNameContinue c = true) (h : ReadsType signature.toList) :
    Listing.declarations.Tells ["export type " ++ name ++ " = " ++ signature ++ ";"] [] := by
  have hstart : ReadsCode "export type ".toList "export type ".toList := by
    simp only [toList_literal]
    exact .plain rfl
  have hmark : ReadsCode " = ".toList " = ".toList := by
    simp only [toList_literal]
    exact .plain rfl
  obtain ⟨found, hread, hfound⟩ :=
    h.readsLines (hstart.append ((ReadsCode.name hname).append hmark))
  have hlines :
      ReadsLines (lineChars ["export type " ++ name ++ " = " ++ signature ++ ";"]) found := by
    simpa [lineChars] using hread
  refine .silent hlines fun line hline => ?_
  rcases hfound line hline with ⟨more, rfl⟩ | hinner
  · rw [List.append_assoc]
    exact silent_typeStatement _
  · exact Listing.declarations_regular.silent_of_isInner hinner

/-- The type of a fragment says nothing about functions. -/
theorem tells_typeLines (h : type.Legible) : Listing.declarations.Tells (typeLines type) [] := by
  have hcomment : Listing.declarations.Tells
      ["/**", " * " ++ SourceText.commentBody type.source.tag.description, " */"] [] := by
    refine .comment ?_
    simpa using readsLines_commentLines "" (by decide) h.description
  exact (tells_blank _).append (hcomment.append
    (tells_typeStatement (isNameContinue_capitalizeFirst h.name) h.signature))

/-! ### Functions -/

theorem isNameContinue_typeName (h : function.Legible) :
    ∀ c ∈ (typeName function).toList, isNameContinue c = true :=
  isNameContinue_capitalizeFirst h.name

theorem tells_descriptionLines (h : function.Legible) :
    Listing.declarations.Tells (descriptionLines "" function) [] :=
  .comment (h.readsLines_descriptionLines "" (by decide))

/-- An inner line with a name in it. -/
theorem tells_around {before name after : String} {opening closing : List Char}
    (hname : ∀ c ∈ name.toList, isNameContinue c = true)
    (hbefore : ReadsCode before.toList opening) (hinner : IsInner opening)
    (hafter : ReadsCode after.toList closing) :
    Listing.declarations.Tells [before ++ name ++ after] [] := by
  have hcode :
      ReadsCode (before ++ name ++ after).toList (opening ++ (name.toList ++ closing)) := by
    simp only [String.toList_append, List.append_assoc]
    exact hbefore.append ((ReadsCode.name hname).append hafter)
  exact .inner Listing.declarations_regular hcode (hinner.append _)

/-- The function for events is declared under the name that is made for it. -/
theorem tells_eventLines (h : function.Legible) :
    Listing.declarations.Tells (eventLines function) [eventFunctionName function] := by
  have hevent : ∀ c ∈ (typeName function ++ "Event").toList, isNameContinue c = true :=
    isNameContinue_append (isNameContinue_typeName h) (isNameContinue_literal rfl)
  have hcomment : Listing.declarations.Tells _ [] := .comment h.readsLines_verifyLines
  have hfunction : Listing.declarations.Tells
      ["export function " ++ eventFunctionName function ++ "("] [eventFunctionName function] := by
    have hrest : ReadsCode "".toList [] := .nil
    simpa [Listing.declarations] using Listing.Tells.statement Listing.declarations_regular
      h.isNameContinue_eventFunctionName hrest
  have hparameters : Listing.declarations.Tells
      ["  /** A Netlify Handler Event */",
        "  event: WebhookEvent,",
        "  options?: \x7b",
        "    /**",
        "     * Defaults to the value of the NETLIFY_GRAPH_WEBHOOK_SECRET environment variable.",
        "     */",
        "    webhookSecret?: string | null | undefined;",
        "  \x7d"] [] :=
    tells_fixedParts _ (by simp [fixedParts])
  have hanswer : Listing.declarations.Tells
      ["): null | " ++ (typeName function ++ "Event") ++ ";"] [] :=
    tells_around hevent (.literal rfl) ⟨')', rfl, .inr (.inr rfl)⟩ (.literal rfl)
  exact (tells_blank _).append ((tells_typeStatement hevent h.answer).append
    ((tells_blank _).append (hcomment.append (hfunction.append (hparameters.append hanswer)))))

/-- The names of the types of a query or mutation. -/
theorem isNameContinue_inputName (h : function.Legible) :
    ∀ c ∈ (typeName function ++ "Input").toList, isNameContinue c = true :=
  isNameContinue_append (isNameContinue_typeName h) (isNameContinue_literal rfl)

/-- The types in front of the function that sends an operation say nothing about functions. -/
theorem tells_requestTypes (h : function.Legible) :
    Listing.declarations.Tells
      ((if function.hasVariables then
        ["", "export type " ++ typeName function ++ "Input = " ++ function.variablesSignature ++
          ";"]
      else []) ++
        ["", "export type " ++ typeName function ++ " = " ++ function.answerSignature ++ ";", ""])
      [] := by
  have hinputs : Listing.declarations.Tells
      (if function.hasVariables then
        ["", "export type " ++ (typeName function ++ "Input") ++ " = " ++
          function.variablesSignature ++ ";"]
      else []) [] := by
    split
    · exact (tells_blank _).append (tells_typeStatement (isNameContinue_inputName h) h.inputs)
    · exact .nil
  have hall := hinputs.append ((tells_blank _).append
    ((tells_typeStatement (isNameContinue_typeName h) h.answer).append (tells_blank _)))
  simpa [String.append_assoc] using hall

/-- The function that sends an operation is declared under its name. -/
theorem tells_requestLines (h : function.Legible) :
    Listing.declarations.Tells (requestLines function) [function.name] := by
  have hfunction : Listing.declarations.Tells
      ["export function " ++ function.name ++ "("] [function.name] := by
    have hrest : ReadsCode "".toList [] := .nil
    simpa [Listing.declarations] using Listing.Tells.statement Listing.declarations_regular
      h.isNameContinue_name hrest
  have hhint : Listing.declarations.Tells
      (if function.hasVariables then []
      else
        ["  /**",
          "   * Pass `\x7b\x7d` as no variables are defined for this function.",
          "   */"]) [] := by
    split
    · exact .nil
    · exact tells_fixedParts _ (by simp [fixedParts])
  have hvariables : Listing.declarations.Tells
      ["  variables: " ++ variablesType function ++ ","] [] := by
    rw [variablesType]
    split
    · exact tells_around (isNameContinue_inputName h) (.literal rfl) ⟨' ', rfl, .inl rfl⟩
        (.literal rfl)
    · exact tells_fixedParts ["  variables: Record<string, never>,"] (by simp [fixedParts])
  have hoptions : Listing.declarations.Tells ["  options?: NetlifyGraphFunctionOptions"] [] :=
    tells_fixedParts _ (by simp [fixedParts])
  have hanswer : Listing.declarations.Tells ["): Promise<" ++ typeName function ++ ">;"] [] :=
    tells_around (isNameContinue_typeName h) (.literal rfl) ⟨')', rfl, .inr (.inr rfl)⟩
      (.literal rfl)
  have hall := (tells_requestTypes h).append ((tells_descriptionLines h).append (hfunction.append
    (hhint.append (hvariables.append (hoptions.append hanswer)))))
  simpa [requestLines, String.append_assoc] using hall

/-- Every function is declared, whatever the settings are. -/
theorem tells_functionLines (h : function.Legible) :
    Listing.declarations.Tells (functionLines function) [function.exportedName] := by
  rw [functionLines, LibraryFunction.exportedName]
  split
  · exact tells_eventLines h
  · exact tells_requestLines h

/-- Every function is listed under the name that it is declared under. -/
theorem lists_entryLines (h : function.Legible) :
    ListsMembers (entryLines function) [function.exportedName] := by
  have hmember {name : String} (hname : ∀ c ∈ name.toList, isNameContinue c = true) :
      ListsMembers ["  " ++ name ++ ": typeof " ++ name ++ ";"] [name] := by
    have hfront : ReadsCode "typeof ".toList _ := .literal rfl
    have hafter : ReadsCode ";".toList _ := .literal rfl
    have htype := (hfront.append (.name hname)).append hafter
    rw [← String.toList_append, ← String.toList_append] at htype
    have hline : "  " ++ name ++ ": typeof " ++ name ++ ";" =
        "  " ++ name ++ ": " ++ ("typeof " ++ name ++ ";") := by
      simp [String.ext_iff]
    rw [hline]
    exact .member hname htype
  rw [entryLines, LibraryFunction.exportedName]
  split
  · exact listsMembers_verifyLines.append (hmember h.isNameContinue_eventFunctionName)
  · exact (ListsMembers.comment (h.readsLines_descriptionLines "  "
      (by decide))).append (hmember h.isNameContinue_name)

/-- **The functions of the declarations.** The declarations declare all functions and list the same
ones. -/
theorem read_lines {functions : List LibraryFunction} {types : List LibraryType}
    (h : ∀ function ∈ functions, function.Legible) (htypes : ∀ type ∈ types, type.Legible) :
    Listing.declarations.read (lineChars (lines functions types)) =
      some (functions.map LibraryFunction.exportedName,
        functions.map LibraryFunction.exportedName) := by
  have hnames : (functions.flatMap fun function => [function.exportedName]) =
      functions.map LibraryFunction.exportedName := by
    rw [List.map_eq_flatMap]
  have htypeLines : Listing.declarations.Tells (types.flatMap typeLines) [] := by
    have hnone : (types.flatMap fun _ => ([] : List String)) = [] := by simp
    exact hnone ▸ .flatMap fun type hmem => tells_typeLines (htypes type hmem)
  have hfunctions : Listing.declarations.Tells (functions.flatMap functionLines)
      (functions.map LibraryFunction.exportedName) :=
    hnames ▸ .flatMap fun function hmem => tells_functionLines (h function hmem)
  have hentries : ListsMembers (functions.flatMap entryLines)
      (functions.map LibraryFunction.exportedName) :=
    hnames ▸ .flatMap fun function hmem => lists_entryLines (h function hmem)
  have hlast : Listing.declarations.Tells
      ["", "export const functions: Functions;", "", "export default functions;"] [] :=
    tells_fixedParts _ (by simp [fixedParts])
  have hcommon : Listing.declarations.Tells (heading ++ commonLines) [] :=
    (tells_fixedParts heading (by simp [fixedParts])).append
      (tells_fixedParts commonLines (by simp [fixedParts]))
  have hbefore := ((hcommon.append htypeLines).append hfunctions).append (tells_blank _)
  rw [List.append_nil] at hbefore
  have hread := Listing.read_eq Listing.declarations_regular hbefore hentries hlast
  simpa only [lines, Listing.declarations, List.append_assoc, List.cons_append, List.nil_append]
    using hread

end OperationLibrary.LibraryDeclarations
