import OperationLibrary.Document.Normal
import OperationLibrary.Proofs.ComputedEquality
import OperationLibrary.Proofs.GrammarReading
import OperationLibrary.Proofs.PrintedText
import OperationLibrary.Proofs.ReaderSoundness

/-!
The canonical text of a document. Strings of several lines become blocks, and a block drops the
indentation that its lines share and its blank lines at both ends. The canonical text is read as the
canonical definitions if and only if no string that became a block has any of that, and no carriage
return.
-/

namespace OperationLibrary

open Syntax

/-! ### The order of the definitions -/

theorem normalDefinitions_perm (definitions : List Executable) :
    (normalDefinitions definitions).Perm (definitions.map Executable.blockStrings) := by
  have hfilter := List.filter_append_perm isFragment (sortByName sortName definitions)
  exact (hfilter.trans (List.mergeSort_perm _ _)).map _

theorem normalDefinitions_singleton (d : Executable) :
    normalDefinitions [d] = [d.blockStrings] := by
  rw [normalDefinitions, sortByName, List.mergeSort_singleton]
  cases d <;> rfl

@[simp] theorem isFragment_blockStrings (d : Executable) :
    isFragment d.blockStrings = isFragment d := by
  cases d <;> rfl

/-- Fragments stand before operations. -/
theorem normalDefinitions_pairwise (definitions : List Executable) :
    (normalDefinitions definitions).Pairwise fun d later =>
      isFragment later = true → isFragment d = true := by
  rw [normalDefinitions, List.pairwise_map]
  simp only [isFragment_blockStrings]
  refine List.pairwise_append.mpr ⟨?_, ?_, ?_⟩
  · exact List.pairwise_of_forall_mem_list fun d hd _ _ _ => (List.mem_filter.mp hd).2
  · refine List.pairwise_of_forall_mem_list fun d _ later hlater hfragment => ?_
    simp [hfragment] at hlater
  · exact fun d hd _ _ _ => (List.mem_filter.mp hd).2

/-! ### Lexemes of the canonical text -/

theorem lexemes_normalText {definitions : List Executable}
    (h : ∀ d ∈ normalDefinitions definitions, d.Fits Description.Printable) :
    lexemes (normalText definitions).toList =
      (normalDefinitions definitions).flatMap
        (fun d => (d.mapStrings Description.reread).lexemes) ++ [.eof] := by
  have hgap : IsGap "\n\n".toList := by simp [IsGap, isIgnored]
  have hclosed := (writes_intercalate hgap fun d hd => (h d hd).writes).append_closed
    (closed_ignored rfl : Closed ['\n'] []) rfl
  rw [normalText, String.toList_append]
  exact hclosed.lexemes_eq.trans (by rw [List.append_nil])

/-! ### The definitions that are read -/

/-- The strings of a text are settled, and so are those of the definitions that are read from it. -/
theorem fits_of_parse {source : String} {document : Document}
    (hparse : Document.parse source = .ok document) :
    ∀ d ∈ document, d.Fits Description.Settled := by
  rw [Document.parse, Reader.run] at hparse
  split at hparse
  · contradiction
  · contradiction
  · rename_i first later _ hscan
    have htokens : ∀ token ∈ first :: later, token.lexeme.WellFormed Description.Settled := by
      rw [← hscan]
      exact fun token htoken => wellFormed_of_mem_scanFrom htoken
    have hcursor : Cursor.WellFormed Description.Settled ⟨first, later⟩ :=
      ⟨htokens first List.mem_cons_self, fun token htoken =>
        htokens token (List.mem_cons_of_mem _ htoken)⟩
    obtain ⟨⟨found, next⟩, hrun, rfl⟩ := exists_of_map_ok hparse
    exact (Ensures.readDocument _ hcursor found next hrun).1

theorem executable_mem {document : Document} {d : Executable} (h : d ∈ document.executables) :
    .executable d ∈ document := by
  obtain ⟨definition, hdefinition, hsome⟩ := List.mem_filterMap.mp h
  cases definition with
  | executable other =>
      obtain rfl := Option.some.inj hsome
      exact hdefinition
  | typeSystem definition => contradiction

theorem mem_normalDefinitions {definitions : List Executable} {d : Executable} :
    d ∈ normalDefinitions definitions ↔ ∃ source ∈ definitions, source.blockStrings = d := by
  rw [(normalDefinitions_perm definitions).mem_iff, List.mem_map]

/-! ### Reading the canonical text -/

/-- A string with a line feed in it. -/
theorem Syntax.Description.blockString_eq {value : String} (hfeed : '\n' ∈ value.toList) :
    Description.blockString ⟨value, false⟩ = ⟨value, true⟩ := by
  simp [Description.blockString, isMultiline, hfeed]

theorem Syntax.Description.blockString_eq_self {literal : Description}
    (h : literal.block = false → '\n' ∉ literal.text.toList) : literal.blockString = literal := by
  obtain ⟨text, _ | _⟩ := literal
  · simpa [Description.blockString, isMultiline] using h
  · rfl

/-- A string of several lines between quotes, which becomes a block. -/
def IsFolded (definitions : List Executable) (value : String) : Prop :=
  ∃ d ∈ definitions, .string value ∈ d.lexemes ∧ '\n' ∈ value.toList

/-- The strings of the canonical definitions are settled, or else strings that became blocks. -/
theorem fits_normalDefinitions {definitions : List Executable} {p : Description → Prop}
    (h : ∀ d ∈ definitions, d.Fits Description.Settled)
    (hsettled : ∀ literal, literal.Settled → p literal)
    (hfolded : ∀ value, IsFolded definitions value → p ⟨value, true⟩) :
    ∀ d ∈ normalDefinitions definitions, d.Fits p := by
  intro d hd
  obtain ⟨source, hsource, rfl⟩ := mem_normalDefinitions.mp hd
  have hstrings : ∀ literal : Description, literal.lexeme ∈ source.lexemes → literal.Settled →
      p literal.blockString := by
    intro literal hliteral hold
    by_cases hfold : literal.block = false ∧ '\n' ∈ literal.text.toList
    · obtain ⟨text, block⟩ := literal
      obtain ⟨rfl, hfeed⟩ := hfold
      rw [Description.blockString_eq hfeed]
      exact hfolded text ⟨source, hsource, hliteral, hfeed⟩
    · rw [Description.blockString_eq_self fun hquoted hfeed => hfold ⟨hquoted, hfeed⟩]
      exact hsettled literal hold
  rw [Executable.blockStrings_eq]
  exact ((h source hsource).and hstrings).mapStrings fun _ ⟨hold, hp⟩ => hp hold

theorem Syntax.Description.settled_iff_kept {value : String} (hfeed : '\n' ∈ value.toList) :
    Description.Settled ⟨value, true⟩ ↔ BlockString.Kept value.toList := by
  rw [BlockString.kept_iff hfeed]
  simp [Description.Settled]

theorem Syntax.Description.Settled.reread_eq {literal : Description} (h : literal.Settled) :
    literal.reread = literal := by
  obtain ⟨text, _ | _⟩ := literal
  · rfl
  · simp [Description.reread, (h rfl).2]

theorem Syntax.Description.Settled.printable {literal : Description} (h : literal.Settled) :
    literal.Printable :=
  fun hblock => (h hblock).1

theorem lexemes_reread {d : Executable} (h : d.Fits Description.Settled) :
    (d.mapStrings Description.reread).lexemes = d.lexemes := by
  have hsame : ∀ lexeme ∈ d.lexemes, lexeme.mapString Description.reread = lexeme := by
    intro lexeme hlexeme
    have hliteral : ∀ literal : Description, literal.lexeme = lexeme →
        lexeme.mapString Description.reread = lexeme := by
      rintro literal rfl
      rw [Description.mapString_lexeme, (h.of_mem hlexeme).reread_eq]
    cases lexeme with
    | string text => exact hliteral ⟨text, false⟩ rfl
    | blockString text => exact hliteral ⟨text, true⟩ rfl
    | _ => rfl
  rw [Executable.lexemes_mapStrings, List.map_congr_left hsame, List.map_id']

theorem normalDefinitions_ne_nil {definitions : List Executable} (hne : definitions ≠ []) :
    normalDefinitions definitions ≠ [] := by
  intro hnil
  have hperm := normalDefinitions_perm definitions
  rw [hnil] at hperm
  exact hne (List.map_eq_nil_iff.mp hperm.nil_eq.symm)

/-- What is read where strings of several lines can be printed. -/
theorem parse_normalText {definitions : List Executable} (hne : definitions ≠ [])
    (h : ∀ d ∈ normalDefinitions definitions, d.Fits Description.Printable) :
    Document.parse (normalText definitions) = .ok ((normalDefinitions definitions).map fun d =>
      .executable (d.mapStrings Description.reread)) := by
  have hfits : ∀ d ∈ (normalDefinitions definitions).map (Executable.mapStrings
      Description.reread), d.Fits fun _ => True :=
    List.forall_mem_map.mpr fun d hd => (h d hd).mapStrings fun _ _ => trivial
  have hlexemes := lexemes_normalText h
  rw [← List.flatMap_map] at hlexemes
  rw [parse_of_lexemes (by simpa using normalDefinitions_ne_nil hne) hfits hlexemes, List.map_map]
  rfl

/-- The canonical text is read as the canonical definitions if and only if blocks keep the strings
that become blocks. -/
theorem parse_normalText_iff {definitions : List Executable} (hne : definitions ≠ [])
    (h : ∀ d ∈ definitions, d.Fits Description.Settled) :
    Document.parse (normalText definitions) =
        .ok ((normalDefinitions definitions).map Definition.executable) ↔
      ∀ value, IsFolded definitions value → BlockString.Kept value.toList := by
  constructor
  · -- what is read is settled, and the string is a block of it
    rintro hparse value ⟨d, hd, hvalue, hfeed⟩
    have hblock : d.blockStrings ∈ normalDefinitions definitions :=
      mem_normalDefinitions.mpr ⟨d, hd, rfl⟩
    have hfits : d.blockStrings.Fits Description.Settled :=
      fits_of_parse hparse _ (List.mem_map_of_mem hblock)
    have hlexeme : (Description.lexeme ⟨value, true⟩) ∈ d.blockStrings.lexemes := by
      rw [Executable.blockStrings_eq, Executable.lexemes_mapStrings, List.mem_map]
      refine ⟨_, hvalue, ?_⟩
      rw [Lexeme.mapString, Description.blockString_eq hfeed]
    exact (Description.settled_iff_kept hfeed).mp (hfits.of_mem hlexeme)
  · intro hkept
    have hsettled : ∀ d ∈ normalDefinitions definitions, d.Fits Description.Settled :=
      fits_normalDefinitions h (fun _ hsettled => hsettled) fun value hfolded =>
        (Description.settled_iff_kept hfolded.choose_spec.2.2).mpr (hkept value hfolded)
    have hfits : ∀ d ∈ normalDefinitions definitions, d.Fits Description.Printable :=
      fits_normalDefinitions h (fun _ hsettled => hsettled.printable) fun value hfolded _ =>
        (hkept value hfolded).return_not_mem
    have hlexemes := lexemes_normalText hfits
    rw [List.flatMap_congr fun d hd => lexemes_reread (hsettled d hd)] at hlexemes
    exact parse_of_lexemes (normalDefinitions_ne_nil hne) hsettled hlexemes

/-- Normalizing a document of which some definition can be run gives a text of these definitions,
each once and fragments first. The text is read as these definitions, with strings of several lines
as blocks, if and only if blocks keep the strings that become blocks; without carriage returns in
such strings, each of them is read as a block without its common indentation and its blank lines at
both ends. -/
theorem normalize_preserves_iff {source : String} {document : Document}
    (hparse : Document.parse source = .ok document) (hne : document.executables ≠ []) :
    ∃ text, normalize source = .ok text ∧
      (normalDefinitions document.executables).Perm
        (document.executables.map Executable.blockStrings) ∧
      ((normalDefinitions document.executables).Pairwise fun d later =>
        isFragment later = true → isFragment d = true) ∧
      (Document.parse text =
          .ok ((normalDefinitions document.executables).map Definition.executable) ↔
        ∀ value, IsFolded document.executables value → BlockString.Kept value.toList) ∧
      ((∀ value, IsFolded document.executables value → '\r' ∉ value.toList) →
        Document.parse text = .ok ((normalDefinitions document.executables).map fun d =>
          .executable (d.mapStrings Description.reread))) := by
  have hfits : ∀ d ∈ document.executables, d.Fits Description.Settled := fun d hd =>
    fits_of_parse hparse _ (executable_mem hd)
  refine ⟨normalText document.executables, ?_, normalDefinitions_perm _,
    normalDefinitions_pairwise _, parse_normalText_iff hne hfits, fun hreturn => ?_⟩
  · rw [normalize, hparse]
    rfl
  · exact parse_normalText hne (fits_normalDefinitions hfits
      (fun _ hsettled => hsettled.printable) fun value hfolded _ => hreturn value hfolded)

namespace IndentedLines

/-- A query with a string in it. -/
def document (text : String) (block : Bool) : Document :=
  [.executable (.operation ⟨none, .query, none, [], [],
    [.field ⟨none, "a", [⟨"x", .string text block⟩], []⟩ none]⟩)]

def source : String :=
  "\x7b a(x: \" a\\n b\") \x7d"

/-- The canonical text of the document. -/
def text : String :=
  "\x7b\n  a(x: \"\"\"\n   a\n   b\n  \"\"\")\n\x7d\n"

theorem parse_source : Document.parse source = .ok (document " a\n b" false) := by
  decide +kernel

theorem normalText_eq : normalText (document " a\n b" false).executables = text := by
  decide +kernel

theorem parse_text : Document.parse text = .ok (document "a\nb" true) := by
  decide +kernel

theorem normalize_source : normalize source = .ok text := by
  rw [normalize, parse_source]
  exact congrArg Except.ok normalText_eq

/-- The lines of the string come back without the blank in front of each of them. -/
theorem value_changed :
    Document.parse source = .ok (document " a\n b" false) ∧
      ∃ text, normalize source = .ok text ∧ Document.parse text = .ok (document "a\nb" true) :=
  ⟨parse_source, text, normalize_source, parse_text⟩

end IndentedLines

namespace SteppedLines

open IndentedLines (document)

/-- A query with a string whose first line is not indented. -/
def source : String :=
  "\x7b a(x: \"a\\n b\") \x7d"

theorem parse_source : Document.parse source = .ok (document "a\n b" false) := by
  decide +kernel

theorem kept : BlockString.Kept "a\n b".toList :=
  ⟨by decide, ⟨by decide, by decide⟩, by decide⟩

theorem eq_of_isFolded {value : String}
    (h : IsFolded (document "a\n b" false).executables value) : value = "a\n b" := by
  obtain ⟨d, hd, hvalue, -⟩ := h
  obtain rfl := List.mem_singleton.mp hd
  simpa [Executable.lexemes, Operation.lexemes, Operation.isShort, selectionLexemes,
    Selection.lexemes, FieldHead.lexemes, argumentLexemes, enclosedLexemes, Argument.lexemes,
    Value.lexemes, Description.lexeme, directiveLexemes] using hvalue

theorem value_kept :
    ∃ text, normalize source = .ok text ∧ Document.parse text = .ok (document "a\n b" true) := by
  have hne : (document "a\n b" false).executables ≠ [] := List.cons_ne_nil _ _
  obtain ⟨text, hnormal, -, -, hparse, -⟩ := normalize_preserves_iff parse_source hne
  have hsame : (normalDefinitions (document "a\n b" false).executables).map
      Definition.executable = document "a\n b" true :=
    congrArg (List.map Definition.executable) (normalDefinitions_singleton _)
  refine ⟨text, hnormal, hsame ▸ hparse.mpr fun value hfolded => ?_⟩
  rw [eq_of_isFolded hfolded]
  exact kept

end SteppedLines

end OperationLibrary
