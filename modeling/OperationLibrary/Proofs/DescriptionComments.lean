import OperationLibrary.Proofs.MatchingDeclarations
import OperationLibrary.Proofs.RejoinedEnds

/-!
Descriptions in generated files. A description stands in comments of the runtime and of the
declarations. Such a comment goes up to its own end unless the description has an asterisk, comment
ends and a slash in a row; and where no description has, the code of the files is what it would be
without any descriptions.
-/

namespace OperationLibrary

open Syntax SourceText Text

/-! ### Comments in files -/

/-- The comment that a description stands in. -/
def descriptionComment (margin description : String) : List Char :=
  commentText margin (commentBody description)

/-- No line feed follows another one. -/
def FeedsApart (text : List Char) : Prop :=
  text.IsChain fun c d => c = '\n' → d ≠ '\n'

theorem FeedsApart.not_infix {text : List Char} (h : FeedsApart text) : ¬ tripleFeed <:+: text := by
  rintro ⟨before, after, rfl⟩
  have hfeeds : FeedsApart tripleFeed := (List.IsChain.left_of_append h).right_of_append
  simp [FeedsApart, tripleFeed] at hfeeds

theorem FeedsApart.plain {text : List Char} (h : FeedsApart text) (before : List Char)
    (hplain : '\n' ∉ before) : FeedsApart (before ++ text) := by
  induction before with
  | nil => exact h
  | cons c before ih =>
      rw [List.mem_cons, not_or] at hplain
      exact List.isChain_cons.mpr ⟨fun d _ hc => absurd hc.symm hplain.1, ih hplain.2⟩

theorem FeedsApart.feed {text : List Char} (h : FeedsApart text) (hhead : '\n' ∉ text.head?) :
    FeedsApart ('\n' :: text) :=
  List.isChain_cons.mpr ⟨fun _ hd _ hfeed => hhead (hfeed ▸ hd), h⟩

/-- The line feeds of a body have margins behind them. -/
theorem FeedsApart.withMargins {rest : List Char} (h : FeedsApart rest) (text : List Char) :
    FeedsApart (withMargins text ++ rest) := by
  induction text with
  | nil => exact h
  | cons c text ih =>
      rw [OperationLibrary.withMargins, List.flatMap_cons, ← OperationLibrary.withMargins,
        List.append_assoc]
      split
      case isTrue =>
        have hmargin :
            FeedsApart ([' ', '*', ' '] ++ (OperationLibrary.withMargins text ++ rest)) :=
          ih.plain _ (by simp)
        exact hmargin.feed (by simp)
      case isFalse hc => exact ih.plain _ (by simpa using Ne.symm hc)

/-- Nothing but blanks, as in front of the lines of a comment. -/
def IsMargin (margin : String) : Prop :=
  margin.toList.all (· == ' ') = true

theorem isMargin_empty : IsMargin "" := rfl

theorem isMargin_indent : IsMargin "  " := rfl

section

variable {margin : String} (hmargin : IsMargin margin)

include hmargin

theorem IsMargin.feed_not_mem : '\n' ∉ margin.toList := fun hfeed =>
  absurd (List.all_eq_true.mp hmargin _ hfeed) (by decide)

theorem IsMargin.feed_not_mem_head? (rest : List Char) :
    '\n' ∉ (margin.toList ++ ' ' :: rest).head? := by
  have hplain := hmargin.feed_not_mem
  cases hblanks : margin.toList with
  | nil => simp
  | cons c blanks =>
      rw [hblanks, List.mem_cons, not_or] at hplain
      simpa using Ne.symm hplain.1

theorem feedsApart_descriptionComment (description : String) :
    FeedsApart (descriptionComment margin description) := by
  have hend : FeedsApart (' ' :: commentEnd) := by simp [FeedsApart, commentEnd]
  have hlast := (hend.plain margin.toList hmargin.feed_not_mem).feed (hmargin.feed_not_mem_head? _)
  have hbody := (hlast.withMargins (dropCommentEnds description.toList)).plain [' ', '*', ' ']
    (by simp)
  have hfirst := (hbody.plain margin.toList hmargin.feed_not_mem).feed
    (hmargin.feed_not_mem_head? _)
  have hwhole := (hfirst.plain ['/', '*', '*'] (by simp)).plain margin.toList hmargin.feed_not_mem
  simpa [descriptionComment, commentText, commentInside, toList_commentBody, commentEnd]
    using hwhole

/-- Shrinking blank lines leaves a comment as it is. -/
theorem descriptionComment_infix_collapseBlankLines {description : String} {text : List Char}
    (h : descriptionComment margin description <:+: text) :
    descriptionComment margin description <:+: collapseBlankLines text := by
  obtain ⟨first, inner, hfirst, hcomment⟩ : ∃ first inner, first ≠ '\n' ∧
      descriptionComment margin description = first :: inner ++ ['/'] := by
    let inside := commentInside margin (commentBody description) ++ ['*']
    have htext : descriptionComment margin description =
        margin.toList ++ '/' :: '*' :: inside ++ ['/'] := by
      simp [descriptionComment, commentText, inside]
    have hplain := hmargin.feed_not_mem
    cases hblanks : margin.toList with
    | nil => exact ⟨'/', '*' :: inside, by decide, by rw [htext, hblanks]; rfl⟩
    | cons c blanks =>
        rw [hblanks, List.mem_cons, not_or] at hplain
        exact ⟨c, blanks ++ '/' :: '*' :: inside, Ne.symm hplain.1, by rw [htext, hblanks]; simp⟩
  have hapart := FeedsApart.not_infix (feedsApart_descriptionComment hmargin description)
  rw [hcomment] at h hapart ⊢
  obtain ⟨before, after, rfl⟩ := h
  rw [collapseBlankLines_append_enclosed hfirst (by decide),
    (collapseBlankLines_eq_self_iff _).mpr hapart]
  exact List.infix_append _ _ _

end

theorem unclosed_commentInside_iff {margin body : String} (hmargin : IsMargin margin) :
    Unclosed (commentInside margin body) ↔ Unclosed body.toList := by
  refine ⟨fun h => h.part ?_, unclosed_commentInside hmargin⟩
  rw [commentInside, ← List.append_assoc, ← List.append_assoc]
  exact List.infix_append _ _ _

/-- The lines of the comment that a description stands in. -/
def describingLines (margin description : String) : List String :=
  [margin ++ "/**", margin ++ " * " ++ commentBody description, margin ++ " */"]

/-- A comment in the lines of a file is in the file. -/
theorem Generator.describes_file {generator : Generator} (hbuiltIn : generator.overrides = [])
    (template : String) (name : List String) (language : HandlerLanguage) {margin : String}
    (hmargin : IsMargin margin) {description : String} {lines : List String}
    (h : describingLines margin description <:+: lines) :
    descriptionComment margin description <:+:
      (generator.file template name language lines).contents.toList := by
  have hlines : descriptionComment margin description <:+: (linesText lines).toList := by
    have hchars : (linesText lines).toList = lineChars lines := toList_linesText lines
    obtain ⟨before, after, rfl⟩ := h
    rw [hchars, lineChars_append, lineChars_append, describingLines, lineChars_commentLines]
    exact ((List.prefix_append _ _).isInfix).trans (List.infix_append _ _ _)
  rw [generator.contents_file hbuiltIn]
  refine List.IsInfix.trans ?_ (generator.hooks.suffix_finish _).isInfix
  rw [String.toList_ofList]
  exact descriptionComment_infix_collapseBlankLines hmargin hlines

/-- The margins in front of descriptions. -/
def descriptionMargins : List String := ["", "  "]

theorem isMargin_of_mem {margin : String} (h : margin ∈ descriptionMargins) : IsMargin margin := by
  have hall : descriptionMargins.all (·.toList.all (· == ' ')) = true := by decide
  exact List.all_eq_true.mp hall margin h

section

variable {functions : List LibraryFunction} {types : List LibraryType}
  {function : LibraryFunction} (hmem : function ∈ functions)
  (hkind : function.isSubscription = false) {margin : String}
  (hmargin : margin ∈ descriptionMargins)

include hmem hkind hmargin

/-- The runtime describes a function where it is exported and where it is listed. -/
theorem LibraryRuntime.describingLines_infix_lines (settings : Settings) :
    describingLines margin function.source.tag.description <:+: lines settings functions := by
  simp only [descriptionMargins, List.mem_cons, List.not_mem_nil, or_false] at hmargin
  rcases hmargin with rfl | rfl
  · exact ((List.prefix_append _ _).isInfix).trans (requestFunction_infix_lines settings hmem hkind)
  · have hown : descriptionLines "  " function <:+: entryLines settings function := by
      rw [entryLines, hkind]
      exact (List.prefix_append _ _).isInfix
    have hall : entryLines settings function <:+: functions.flatMap (entryLines settings) :=
      List.infix_of_mem_flatten (List.mem_map_of_mem hmem)
    rw [lines]
    exact (hown.trans hall).trans (List.infix_append _ _ _)

/-- The declarations describe a function where it is declared and where it is listed. -/
theorem LibraryDeclarations.describingLines_infix_lines :
    describingLines margin function.source.tag.description <:+: lines functions types := by
  simp only [descriptionMargins, List.mem_cons, List.not_mem_nil, or_false] at hmargin
  rcases hmargin with rfl | rfl
  · have hown : LibraryRuntime.descriptionLines "" function <:+: functionLines function := by
      rw [functionLines, hkind, if_neg Bool.false_ne_true, requestLines]
      exact (List.infix_append _ _ _).trans
        ((List.prefix_append _ _).trans (List.prefix_append _ _)).isInfix
    have hall : functionLines function <:+: functions.flatMap functionLines :=
      List.infix_of_mem_flatten (List.mem_map_of_mem hmem)
    rw [lines]
    exact (hown.trans hall).trans ((List.infix_append _ _ _).trans
      ((List.prefix_append _ _).trans (List.prefix_append _ _)).isInfix)
  · have hown : LibraryRuntime.descriptionLines "  " function <:+: entryLines function := by
      rw [entryLines, hkind]
      exact (List.prefix_append _ _).isInfix
    have hall : entryLines function <:+: functions.flatMap entryLines :=
      List.infix_of_mem_flatten (List.mem_map_of_mem hmem)
    rw [lines]
    exact (hown.trans hall).trans (List.infix_append _ _ _)

end

theorem LibraryDeclarations.typeLines_eq (type : LibraryType) :
    typeLines type = [""] ++ describingLines "" type.source.tag.description ++
      ["export type " ++ capitalizeFirst type.source.fragment.name ++ " = " ++ type.signature ++
        ";"] := by
  simp [typeLines, describingLines]

/-- The declarations describe the type of a fragment where it is declared. -/
theorem LibraryDeclarations.describingLines_infix_lines_of_type {functions : List LibraryFunction}
    {types : List LibraryType} {type : LibraryType} (hmem : type ∈ types) :
    describingLines "" type.source.tag.description <:+: lines functions types := by
  have hown : describingLines "" type.source.tag.description <:+: typeLines type :=
    typeLines_eq type ▸ List.infix_append _ _ _
  have hall : typeLines type <:+: types.flatMap typeLines :=
    List.infix_of_mem_flatten (List.mem_map_of_mem hmem)
  rw [lines]
  exact (hown.trans hall).trans ((List.infix_append _ _ _).trans
    (((List.prefix_append _ _).trans (List.prefix_append _ _)).trans
      (List.prefix_append _ _)).isInfix)

/-! ### Code without descriptions -/

/-- The lines are read as the same code. -/
def SharesCode (lines others : List String) : Prop :=
  ∃ found, ReadsLines (lineChars lines) found ∧ ReadsLines (lineChars others) found

theorem Listing.Tells.sharesCode {listing : Listing} {lines names : List String}
    (h : listing.Tells lines names) : SharesCode lines lines :=
  h.imp fun _ hfound => ⟨hfound.1, hfound.1⟩

theorem ListsMembers.sharesCode {lines names : List String} (h : ListsMembers lines names) :
    SharesCode lines lines :=
  h.imp fun _ hfound => ⟨hfound.1, hfound.1⟩

namespace SharesCode

variable {lines others : List String}

theorem line {line : String} {code : List Char} (h : ReadsCode line.toList code)
    (hcode : ∃ c ∈ code, c ≠ ' ') : SharesCode [line] [line] :=
  ⟨_, readsLines_line h hcode, readsLines_line h hcode⟩

theorem append {more rest : List String} (h : SharesCode lines others)
    (hmore : SharesCode more rest) : SharesCode (lines ++ more) (others ++ rest) := by
  obtain ⟨found, hlines, hothers⟩ := h
  obtain ⟨last, hlast, hrest⟩ := hmore
  refine ⟨found ++ last, ?_, ?_⟩
  · rw [lineChars_append]
    exact hlines.append hlast
  · rw [lineChars_append]
    exact hothers.append hrest

theorem flatMap {α : Type} {xs : List α} {write other : α → List String}
    (h : ∀ x ∈ xs, SharesCode (write x) (other x)) :
    SharesCode (xs.flatMap write) (xs.flatMap other) := by
  induction xs with
  | nil => exact ⟨[], .nil, .nil⟩
  | cons x xs ih =>
      rw [List.flatMap_cons, List.flatMap_cons]
      exact (h x List.mem_cons_self).append (ih fun y hy => h y (List.mem_cons_of_mem _ hy))

/-- Another comment in the same place changes nothing. -/
theorem comment {before after comment other : List String} (hbefore : SharesCode before before)
    (hcomment : ReadsLines (lineChars comment) []) (hother : ReadsLines (lineChars other) [])
    (hwhole : SharesCode (before ++ other ++ after) (before ++ other ++ after)) :
    SharesCode (before ++ comment ++ after) (before ++ other ++ after) := by
  obtain ⟨found, hwhole, -⟩ := hwhole
  refine ⟨found, fun above => ?_, hwhole⟩
  obtain ⟨first, hfirst, -⟩ := hbefore
  have hrest := hwhole above
  simp only [lineChars_append, CodeReader.run_append, hfirst above, hother _, hcomment _]
    at hrest ⊢
  exact hrest

end SharesCode

/-- The type with an empty description. -/
def LibraryType.undescribed (type : LibraryType) : LibraryType :=
  { type with source := { type.source with tag := { type.source.tag with description := "" } } }

/-- What a description has to be like so that nothing of it becomes code. -/
def LibraryFunction.StaysInComments (function : LibraryFunction) : Prop :=
  function.isSubscription = false → Unclosed (commentBody function.source.tag.description).toList

section

variable {function : LibraryFunction} (h : function.undescribed.Legible)
  (hstays : function.StaysInComments)

include h hstays

/-- Lines that show the description in one place, except for events. -/
theorem SharesCode.described {margin : String} (hmargin : IsMargin margin)
    {lines others before : List String} (after : List String) (hothers : SharesCode others others)
    (hevents : function.isSubscription = true → lines = others) (hbefore : SharesCode before before)
    (hparts : function.isSubscription = false →
      lines = before ++ LibraryRuntime.descriptionLines margin function ++ after ∧
        others = before ++ LibraryRuntime.descriptionLines margin function.undescribed ++ after) :
    SharesCode lines others := by
  cases hkind : function.isSubscription with
  | true => exact (hevents hkind).symm ▸ hothers
  | false =>
      obtain ⟨rfl, rfl⟩ := hparts hkind
      exact .comment hbefore (readsLines_commentLines margin hmargin (hstays hkind))
        (h.readsLines_descriptionLines margin hmargin) hothers

namespace LibraryRuntime

theorem sharesCode_functionLines (settings : Settings) :
    SharesCode (functionLines settings function) (functionLines settings function.undescribed) := by
  have hkinds : function.undescribed.isSubscription = function.isSubscription := rfl
  refine .described h hstays isMargin_empty ((requestFunction settings.moduleStyle function).drop 3)
    (tells_functionLines settings h).sharesCode (fun hkind => ?_)
    (tells_blank (Listing.runtime .esm)).sharesCode (fun hkind => ⟨?_, ?_⟩)
  · rw [functionLines, functionLines, hkinds, hkind, if_pos rfl, if_pos rfl]
    rfl
  · rw [functionLines, hkind]
    rfl
  · rw [functionLines, hkinds, hkind]
    rfl

theorem sharesCode_entryLines (settings : Settings) :
    SharesCode (entryLines settings function) (entryLines settings function.undescribed) := by
  have hkinds : function.undescribed.isSubscription = function.isSubscription := rfl
  refine .described h hstays isMargin_indent
    ["  " ++ function.name ++ ": " ++ settings.moduleStyle.exported function.name ++ ","]
    (lists_entryLines settings h).sharesCode (fun hkind => ?_) ListsMembers.nil.sharesCode
    (fun hkind => ⟨?_, ?_⟩)
  · rw [entryLines, entryLines, hkinds, hkind, if_pos rfl, if_pos rfl]
    rfl
  · rw [entryLines, hkind]
    rfl
  · rw [entryLines, hkinds, hkind]
    rfl

end LibraryRuntime

namespace LibraryDeclarations

theorem sharesCode_functionLines :
    SharesCode (functionLines function) (functionLines function.undescribed) := by
  have hkinds : function.undescribed.isSubscription = function.isSubscription := rfl
  have hrequest (other : LibraryFunction) :
      requestLines other = _ ++ LibraryRuntime.descriptionLines "" other ++ _ :=
    (List.append_assoc _ _ _).trans (List.append_assoc _ _ _)
  have hfunction (other : LibraryFunction) (hother : other.isSubscription = false) :
      functionLines other = requestLines other := by
    rw [functionLines, hother]
    rfl
  refine .described h hstays isMargin_empty _ (tells_functionLines h).sharesCode
    (fun hkind => ?_) (tells_requestTypes h).sharesCode
    (fun hkind => ⟨(hfunction _ hkind).trans (hrequest _),
      (hfunction _ (hkinds.trans hkind)).trans (hrequest _)⟩)
  rw [functionLines, functionLines, hkinds, hkind, if_pos rfl, if_pos rfl]
  rfl

theorem sharesCode_entryLines :
    SharesCode (entryLines function) (entryLines function.undescribed) := by
  have hkinds : function.undescribed.isSubscription = function.isSubscription := rfl
  refine .described h hstays isMargin_indent
    ["  " ++ function.name ++ ": typeof " ++ function.name ++ ";"]
    (lists_entryLines h).sharesCode (fun hkind => ?_) ListsMembers.nil.sharesCode
    (fun hkind => ⟨?_, ?_⟩)
  · rw [entryLines, entryLines, hkinds, hkind, if_pos rfl, if_pos rfl]
    rfl
  · rw [entryLines, hkind]
    rfl
  · rw [entryLines, hkinds, hkind]
    rfl

end LibraryDeclarations

end

theorem LibraryDeclarations.sharesCode_typeLines {type : LibraryType} (h : type.Legible) :
    SharesCode (typeLines type) (typeLines type.undescribed) := by
  have hundescribed : type.undescribed.Legible := ⟨h.name, unclosed_commentBody_empty, h.signature⟩
  have hwhole := (tells_typeLines hundescribed).sharesCode
  rw [typeLines_eq type.undescribed] at hwhole ⊢
  rw [typeLines_eq type]
  exact .comment (LibraryRuntime.tells_blank Listing.declarations).sharesCode
    (readsLines_commentLines "" (by decide) h.description)
    (readsLines_commentLines "" (by decide) unclosed_commentBody_empty) hwhole

section

variable {functions : List LibraryFunction}
  (h : ∀ function ∈ functions, function.undescribed.Legible)
  (hstays : ∀ function ∈ functions, function.StaysInComments)

include h hstays

theorem LibraryRuntime.sharesCode_lines {settings : Settings} (hid : QuotesId settings) :
    SharesCode (lines settings functions)
      (lines settings (functions.map LibraryFunction.undescribed)) := by
  have hsigned : (functions.map LibraryFunction.undescribed).any LibraryFunction.isSubscription =
      functions.any LibraryFunction.isSubscription := by
    rw [List.any_map]
    rfl
  have hcomment := (tells_fixedParts settings.moduleStyle
    ["", "/**", " * The generated NetlifyGraph library with your operations", " */"]
      (by simp [fixedParts])).sharesCode
  have hopening : SharesCode ["const functions = \x7b"] ["const functions = \x7b"] :=
    .line (.literal rfl) ⟨'c', by decide, by decide⟩
  have hclosing : SharesCode ["\x7d;"] ["\x7d;"] :=
    .line (.literal rfl) ⟨';', by decide, by decide⟩
  have hlast := (tells_fixedParts settings.moduleStyle
    ["", settings.moduleStyle.exportingDefault "functions" ++ ";"]
      (by simp [fixedParts])).sharesCode
  rw [lines, lines, hsigned, List.flatMap_map, List.flatMap_map]
  exact (((((tells_preamble settings hid _).sharesCode.append
    (.flatMap fun function hmem =>
      sharesCode_functionLines (h function hmem) (hstays function hmem) settings)).append
    (hcomment.append hopening)).append
    (.flatMap fun function hmem =>
      sharesCode_entryLines (h function hmem) (hstays function hmem) settings)).append
    (hclosing.append hlast))

theorem LibraryDeclarations.sharesCode_lines {types : List LibraryType}
    (htypes : ∀ type ∈ types, type.Legible) :
    SharesCode (lines functions types)
      (lines (functions.map LibraryFunction.undescribed) (types.map LibraryType.undescribed)) := by
  have hcommon := ((tells_fixedParts LibraryRuntime.heading (by simp [fixedParts])).append
    (tells_fixedParts commonLines (by simp [fixedParts]))).sharesCode
  have hblank := (LibraryRuntime.tells_blank Listing.declarations).sharesCode
  have hopening : SharesCode ["export interface Functions \x7b"]
      ["export interface Functions \x7b"] := .line (.literal rfl) ⟨'e', by decide, by decide⟩
  have hclosing : SharesCode ["\x7d"] ["\x7d"] :=
    .line (.literal rfl) ⟨'\x7d', by decide, by decide⟩
  have hlast := (tells_fixedParts
    ["", "export const functions: Functions;", "", "export default functions;"]
      (by simp [fixedParts])).sharesCode
  rw [lines, lines, List.flatMap_map, List.flatMap_map, List.flatMap_map]
  exact ((((hcommon.append
    (.flatMap fun type hmem => sharesCode_typeLines (htypes type hmem))).append
    (.flatMap fun function hmem =>
      sharesCode_functionLines (h function hmem) (hstays function hmem))).append
    (hblank.append hopening)).append
    (.flatMap fun function hmem =>
      sharesCode_entryLines (h function hmem) (hstays function hmem))).append
    (hclosing.append hlast)

end

/-- The file is read as the code of lines. -/
def OutputFile.HasCodeOf (file : OutputFile) (lines : List String) : Prop :=
  ∃ code, codeLines? file.contents.toList = some code ∧ codeLines? (lineChars lines) = some code

theorem Generator.hasCodeOf_file {generator : Generator} (hbuiltIn : generator.overrides = [])
    (hbanners : generator.hooks.banners = []) (template : String) (name : List String)
    (language : HandlerLanguage) {lines others : List String} (h : SharesCode lines others) :
    (generator.file template name language lines).HasCodeOf others := by
  obtain ⟨found, hlines, hothers⟩ := h
  refine ⟨found, ?_, hothers.codeLines?⟩
  rw [generator.contents_file hbuiltIn, Hooks.finish, hbanners, List.foldl_nil,
    String.toList_ofList, codeLines?_collapseBlankLines, toList_linesText]
  exact hlines.codeLines?

section

variable {generator : Generator} {source : String} {document : Document} {library : Library}

theorem Generator.files_libraryOf {kept : List LibraryFunction} {types : List LibraryType}
    (h : (generator.libraryOf kept types).value = .ok library) :
    library.runtime = generator.file "runtime.js.j2" generator.settings.runtimeFilename .javaScript
        (LibraryRuntime.lines generator.settings kept) ∧
      ∃ name, library.declarations = generator.file "index.d.ts.j2" name .typeScript
        (LibraryDeclarations.lines kept types) := by
  unfold Generator.libraryOf at h
  dsimp only at h
  split at h
  · exact nomatch h
  · obtain rfl := Except.ok.inj h
    exact ⟨rfl, _, rfl⟩

/-- **Descriptions and their comments.** What is written for a description has a comment end in it,
and the comments that it stands in end early, if and only if the description has an asterisk,
comment ends and a slash in a row. The description of every function is in such comments in the
runtime and in the declarations, the one of every type is in one in the declarations; and where none
of them has these in a row, nothing of any of them becomes code. -/
theorem descriptions_commented_iff (hparse : Document.parse source = .ok document)
    (hlegible : generator.Legible)
    (hlibrary : (generator.library document).value = .ok library)
    (hbuiltIn : generator.overrides = []) (hbanners : generator.hooks.banners = []) :
    (∀ description : String,
      (commentEnd <:+: (commentBody description).toList ↔ RejoinsEnd description.toList) ∧
      ∀ margin ∈ descriptionMargins,
        (EndsItself (commentInside margin (commentBody description)) ↔
          ¬ RejoinsEnd description.toList)) ∧
    (∀ function ∈ library.functions, function.isSubscription = false →
      ∀ margin ∈ descriptionMargins,
        descriptionComment margin function.source.tag.description <:+:
            library.runtime.contents.toList ∧
          descriptionComment margin function.source.tag.description <:+:
            library.declarations.contents.toList) ∧
    (∀ type ∈ library.types, descriptionComment "" type.source.tag.description <:+:
      library.declarations.contents.toList) ∧
    ((∀ function ∈ library.functions, function.isSubscription = false →
        ¬ RejoinsEnd function.source.tag.description.toList) →
      (∀ type ∈ library.types, ¬ RejoinsEnd type.source.tag.description.toList) →
      library.runtime.HasCodeOf (LibraryRuntime.lines generator.settings
          (library.functions.map LibraryFunction.undescribed)) ∧
        library.declarations.HasCodeOf (LibraryDeclarations.lines
          (library.functions.map LibraryFunction.undescribed)
          (library.types.map LibraryType.undescribed))) := by
  obtain ⟨functions, hmembers, hkept, hmade⟩ := Generator.exists_libraryOf hlibrary
  obtain ⟨hruntime, declarationsName, hdeclarations⟩ := Generator.files_libraryOf hmade
  have hundescribed (function : LibraryFunction) (hmem : function ∈ library.functions) :
      function.undescribed.Legible :=
    hlegible.undescribed hparse hmembers (hkept.subset hmem)
  have hstays (h : ∀ function ∈ library.functions, function.isSubscription = false →
      ¬ RejoinsEnd function.source.tag.description.toList) (function : LibraryFunction)
      (hmem : function ∈ library.functions) : function.StaysInComments :=
    fun hkind => unclosed_commentBody_iff.mpr (h function hmem hkind)
  refine ⟨fun description => ⟨?_, fun margin hmargin => ?_⟩,
    fun function hmem hkind margin hmargin => ⟨?_, ?_⟩, fun type hmem => ?_,
    fun hfunctions htypes => ⟨?_, ?_⟩⟩
  · rw [← not_iff_not, ← unclosed_iff_not_infix, unclosed_commentBody_iff]
  · rw [endsItself_iff_unclosed, ← unclosed_commentBody_iff]
    exact unclosed_commentInside_iff (isMargin_of_mem hmargin)
  · rw [hruntime]
    exact generator.describes_file hbuiltIn _ _ _ (isMargin_of_mem hmargin)
      (LibraryRuntime.describingLines_infix_lines hmem hkind hmargin _)
  · rw [hdeclarations]
    exact generator.describes_file hbuiltIn _ _ _ (isMargin_of_mem hmargin)
      (LibraryDeclarations.describingLines_infix_lines hmem hkind hmargin)
  · rw [hdeclarations]
    exact generator.describes_file hbuiltIn _ _ _ isMargin_empty
      (LibraryDeclarations.describingLines_infix_lines_of_type hmem)
  · rw [hruntime]
    exact generator.hasCodeOf_file hbuiltIn hbanners _ _ _
      (LibraryRuntime.sharesCode_lines hundescribed (hstays hfunctions) hlegible.id)
  · rw [hdeclarations]
    exact generator.hasCodeOf_file hbuiltIn hbanners _ _ _
      (LibraryDeclarations.sharesCode_lines hundescribed (hstays hfunctions) fun type hmem =>
        hlegible.type hparse hmembers hmem (unclosed_commentBody_iff.mpr (htypes type hmem)))

end

namespace DescribedQuery

open EventsOfSubscription (generator answerText)

/-- A query with this description. -/
def operation (description : String) : Operation :=
  ⟨none, .query, some "Q", [],
    [⟨"netlify", [⟨"id", .string "q" false⟩, ⟨"doc", .string description false⟩]⟩],
    [.field ⟨none, "a", [], []⟩ none]⟩

def document (description : String) : Document :=
  [.executable (.operation (operation description))]

/-- A description with an asterisk, a comment end and a slash. -/
def rejoined : String := "**// alert(1)"

def rejoinedSource : String :=
  "query Q @netlify(id: \"q\", doc: \"**// alert(1)\") \x7b a \x7d"

/-- A description with a comment end and two lines. -/
def ended : String := "first */\nlast"

def endedSource : String :=
  "query Q @netlify(id: \"q\", doc: \"first */\\nlast\") \x7b a \x7d"

def annotated (description : String) : AnnotatedOperation :=
  annotatedOperation (document description) ⟨"q", description, .dynamic⟩ (operation description)

def function (description : String) : LibraryFunction :=
  ⟨annotated description, "fetchQ", templateLiteralText (annotated description).persistableText,
    answerText, "\x7b\x7d", []⟩

def library (description : String) : Library :=
  ⟨(generator .node).file "runtime.js.j2" ["netlify", "functions", "netlifyGraph", "index.js"]
      .javaScript (LibraryRuntime.lines (generator .node).settings [function description]),
    (generator .node).file "index.d.ts.j2" ["netlify", "functions", "netlifyGraph", "index.d.ts"]
      .typeScript (LibraryDeclarations.lines [function description] []), [function description], []⟩

theorem parse_rejoinedSource : Document.parse rejoinedSource = .ok (document rejoined) := by
  decide +kernel

theorem parse_endedSource : Document.parse endedSource = .ok (document ended) := by
  decide +kernel

section

variable (description : String)

theorem libraryFunction?_eq :
    (libraryFunction? ((generator .node).context (document description).lastFragments)
      (annotated description)).run.value = .ok (some (function description)) := by
  have hname : functionName (annotated description).operation.kind.keyword
      (annotated description).operation.name = .ok "fetchQ" := rfl
  have hinputs : (variablesShape (generator .node).schema .standard
      (operation description)).settle.run.value = .ok (.object [] none) := rfl
  exact libraryFunction?_of_shapes hname hinputs (SampleAnswer.responseShape_eq rfl rfl rfl rfl rfl)
    SampleAnswer.signature_shape rfl

theorem library_eq :
    ((generator .node).library (document description)).value = .ok (library description) := by
  have hfound : (extractAnnotations .generation (generator .node).ids
      (document description)).value = ⟨[("q", annotated description)], []⟩ :=
    value_extractAnnotations .generation _ _
  have hkept := Generator.members_singleton hfound (libraryFunction?_eq description) rfl
  rw [Generator.library, Logged.value_bind, hkept]
  rfl

end

theorem not_rejoinsEnd_ended : ¬ RejoinsEnd ended.toList := by
  rw [← unclosed_commentBody_iff, unclosed_iff_not_infix]
  decide

/-- A description stays in its comments. -/
theorem first_line_commented :
    Document.parse endedSource = .ok (document ended) ∧ (generator .node).Legible ∧
      ((generator .node).library (document ended)).value = .ok (library ended) ∧
      (generator .node).overrides = [] ∧ (generator .node).hooks.banners = [] ∧
      commentBody ended = "first \n * last" ∧
      EndsItself (commentInside "" (commentBody ended)) ∧
      descriptionComment "" ended <:+: (library ended).runtime.contents.toList ∧
      (library ended).runtime.HasCodeOf (LibraryRuntime.lines (generator .node).settings
        [(function ended).undescribed]) := by
  have hlegible := EventsOfSubscription.generator_legible .node
  obtain ⟨hends, hfunctions, -, hcode⟩ := descriptions_commented_iff parse_endedSource hlegible
    (library_eq ended) rfl rfl
  refine ⟨parse_endedSource, hlegible, library_eq ended, rfl, rfl, by decide,
    ((hends ended).2 "" (by decide)).mpr not_rejoinsEnd_ended,
    (hfunctions _ (List.mem_singleton_self _) rfl "" (by decide)).1, (hcode ?_ ?_).1⟩
  · intro made hmade _
    rw [List.mem_singleton.mp hmade]
    exact not_rejoinsEnd_ended
  · exact fun _ htype => absurd htype List.not_mem_nil

/-- A description ends the comments that it stands in. -/
theorem rejoined_read_as_code :
    Document.parse rejoinedSource = .ok (document rejoined) ∧
      ((generator .node).library (document rejoined)).value = .ok (library rejoined) ∧
      (generator .node).overrides = [] ∧ (generator .node).hooks = .none ∧
      commentBody rejoined = "*/ alert(1)" ∧
      descriptionComment "" rejoined <:+: (library rejoined).runtime.contents.toList ∧
      ∀ rest, behindCommentEnd (commentInside "" (commentBody rejoined) ++ rest) =
        " alert(1)\n ".toList ++ rest := by
  have hbody : commentBody rejoined = "*/ alert(1)" := by decide
  refine ⟨parse_rejoinedSource, library_eq rejoined, rfl, rfl, hbody, ?_, fun rest => ?_⟩
  · exact (generator .node).describes_file rfl _ _ _ isMargin_empty
      (LibraryRuntime.describingLines_infix_lines (List.mem_singleton_self (function rejoined)) rfl
        (by decide) _)
  · rw [hbody]
    simp only [commentInside, toList_literal]
    rfl

end DescribedQuery

end OperationLibrary
