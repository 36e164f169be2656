import OperationLibrary.Proofs.KeyedSort
import OperationLibrary.Proofs.NormalForm

/-!
The canonical text of a document is canonical. Where fragments have different names and operations
do, the order of a document makes no difference to it, and neither do the definitions of a type
system. And whatever names repeat, the canonical text of a canonical text is this text again, since
definitions that are in order stay where they are.
-/

namespace OperationLibrary

open Syntax

/-! ### Definitions in canonical form -/

theorem Syntax.Description.blockString_comp :
    Description.blockString ∘ Description.blockString = Description.blockString := by
  funext description
  simp [Description.blockString]

theorem Syntax.Executable.blockStrings_blockStrings (d : Executable) :
    d.blockStrings.blockStrings = d.blockStrings := by
  rw [Executable.blockStrings_eq, Executable.blockStrings_eq, Executable.mapStrings_mapStrings,
    Description.blockString_comp]

@[simp] theorem sortName_blockStrings (d : Executable) : sortName d.blockStrings = sortName d := by
  cases d <;> rfl

/-- The part of the definitions that are fragments, or the other one, in order of their names. -/
def partInOrder (fragments : Bool) (definitions : List Executable) : List Executable :=
  (sortByName sortName definitions).filter fun d => isFragment d == fragments

theorem normalDefinitions_eq (definitions : List Executable) :
    normalDefinitions definitions =
      (partInOrder true definitions ++ partInOrder false definitions).map
        Executable.blockStrings := by
  simp [normalDefinitions, partInOrder]

theorem mem_partInOrder {fragments : Bool} {definitions : List Executable} {d : Executable}
    (h : d ∈ partInOrder fragments definitions) : isFragment d = fragments := by
  simpa using (List.mem_filter.mp h).2

theorem pairwise_partInOrder (fragments : Bool) (definitions : List Executable) :
    (partInOrder fragments definitions).Pairwise fun d later =>
      nameKey (sortName d) ≤ nameKey (sortName later) :=
  (pairwise_mergeSort_key fun d later => nameBefore_iff (sortName d) (sortName later)).filter _

/-! ### The order of the document -/

/-- No two fragments have one name, and no two operations are ordered by one name. -/
def DistinctlyNamed (definitions : List Executable) : Prop :=
  ∀ fragments, ((definitions.filter fun d => isFragment d == fragments).map sortName).Nodup

/-- Under different names the order of the document does not count. -/
theorem normalDefinitions_eq_of_perm {definitions others : List Executable}
    (hnames : DistinctlyNamed definitions) (hperm : definitions.Perm others) :
    normalDefinitions definitions = normalDefinitions others := by
  have hpart : ∀ fragments, partInOrder fragments definitions = partInOrder fragments others := by
    intro fragments
    have hkeys := (hnames fragments).map nameKey_injective
    rw [List.map_map] at hkeys
    exact filter_mergeSort_key_eq_of_perm
      (fun d later => nameBefore_iff (sortName d) (sortName later)) hkeys hperm
  rw [normalDefinitions_eq, normalDefinitions_eq, hpart, hpart]

/-! ### Definitions in order -/

theorem filter_normalDefinitions (fragments : Bool) (definitions : List Executable) :
    (normalDefinitions definitions).filter (fun d => isFragment d == fragments) =
      (partInOrder fragments definitions).map Executable.blockStrings := by
  have hpart : ∀ part, ((partInOrder part definitions).filter fun d => isFragment d == fragments) =
      if part = fragments then partInOrder part definitions else [] := by
    intro part
    split
    · exact List.filter_eq_self.mpr fun d hd => by simp_all [mem_partInOrder hd]
    · exact List.filter_eq_nil_iff.mpr fun d hd => by simp_all [mem_partInOrder hd]
  have hparts : ((partInOrder true definitions ++ partInOrder false definitions).filter
      fun d => isFragment d == fragments) = partInOrder fragments definitions := by
    rw [List.filter_append, hpart, hpart]
    cases fragments <;> simp
  have hsame : (fun d => isFragment d == fragments) ∘ Executable.blockStrings =
      fun d => isFragment d == fragments := by
    funext d
    simp
  rw [normalDefinitions_eq, List.filter_map, hsame, hparts]

/-- Canonical definitions stay as they are, also where names repeat: equal names keep their
order. -/
theorem normalDefinitions_normalDefinitions (definitions : List Executable) :
    normalDefinitions (normalDefinitions definitions) = normalDefinitions definitions := by
  have hpart : ∀ fragments, partInOrder fragments (normalDefinitions definitions) =
      (partInOrder fragments definitions).map Executable.blockStrings := by
    intro fragments
    rw [← filter_normalDefinitions]
    apply filter_mergeSort_key_of_pairwise
      (fun d later => nameBefore_iff (sortName d) (sortName later))
    rw [filter_normalDefinitions, List.pairwise_map]
    simpa using pairwise_partInOrder fragments definitions
  have hblocks : Executable.blockStrings ∘ Executable.blockStrings = Executable.blockStrings :=
    funext Executable.blockStrings_blockStrings
  rw [normalDefinitions_eq (normalDefinitions definitions), hpart, hpart, ← List.map_append,
    List.map_map, hblocks, ← normalDefinitions_eq]

/-! ### Canonical texts -/

theorem normalize_of_parse {source : String} {document : Document}
    (hparse : Document.parse source = .ok document) :
    normalize source = .ok (normalText document.executables) := by
  rw [normalize, hparse]
  rfl

theorem executables_map_executable (definitions : List Executable) :
    Document.executables (definitions.map Definition.executable) = definitions := by
  rw [Document.executables, List.filterMap_map]
  exact List.filterMap_some

/-- **The canonical text is canonical.** Documents with the same operations and fragments in any
order, where no two fragments have one name and no two operations are ordered by one name, have one
canonical text, whatever they define of a type system. And the canonical text of any document, where
it is read as the canonical definitions, has itself as its canonical text. -/
theorem normalize_canonical :
    (∀ {source other : String} {document second : Document},
      Document.parse source = .ok document → Document.parse other = .ok second →
      document.executables.Perm second.executables → DistinctlyNamed document.executables →
      ∃ text, normalize source = .ok text ∧ normalize other = .ok text) ∧
    ∀ {source text : String} {document : Document},
      Document.parse source = .ok document → normalize source = .ok text →
      Document.parse text =
        .ok ((normalDefinitions document.executables).map Definition.executable) →
      normalize text = .ok text := by
  constructor
  · intro source other document second hparse hother hperm hnames
    refine ⟨_, normalize_of_parse hparse, ?_⟩
    rw [normalize_of_parse hother, normalText, normalText,
      normalDefinitions_eq_of_perm hnames hperm]
  · intro source text document hparse hnormal hagain
    obtain rfl := Except.ok.inj ((normalize_of_parse hparse).symm.trans hnormal)
    rw [normalize_of_parse hagain, executables_map_executable, normalText, normalText,
      normalDefinitions_normalDefinitions]

namespace ReorderedTexts

/-- A query of one field. -/
def query (field : String) : Executable :=
  .operation ⟨none, .query, some "B", [], [], [.field ⟨none, field, [], []⟩ none]⟩

def fragment : Executable :=
  .fragment ⟨none, "f", "T", [], [.field ⟨none, "a", [], []⟩ none]⟩

/-- Begins with a definition of a type system. -/
def source : String :=
  "scalar S query B\x7bb\x7d fragment f on T\x7ba\x7d"

def document : Document :=
  [.typeSystem (.type ⟨none, "S", [], .scalar⟩), .executable (query "b"),
    .executable fragment]

def other : String :=
  "fragment f on T\x7ba\x7d query B\x7bb\x7d"

def second : Document :=
  [.executable fragment, .executable (query "b")]

/-- The canonical text of both. -/
def text : String :=
  "fragment f on T \x7b\n  a\n\x7d\n\nquery B \x7b\n  b\n\x7d\n"

def repeatedSource : String :=
  "query B\x7bb\x7d query B\x7ba\x7d"

/-- Two queries of one name. -/
def repeated : Document :=
  [.executable (query "b"), .executable (query "a")]

def repeatedText : String :=
  "query B \x7b\n  b\n\x7d\n\nquery B \x7b\n  a\n\x7d\n"

theorem parse_source : Document.parse source = .ok document := by
  decide +kernel

theorem parse_other : Document.parse other = .ok second := by
  decide +kernel

theorem parse_repeatedSource : Document.parse repeatedSource = .ok repeated := by
  decide +kernel

theorem normalize_source : normalize source = .ok text := by
  have hsorted : sortByName sortName document.executables = document.executables :=
    List.mergeSort_of_pairwise (by decide)
  have hdefinitions : normalDefinitions document.executables = [fragment, query "b"] := by
    rw [normalDefinitions, hsorted]
    rfl
  rw [normalize_of_parse parse_source, normalText, hdefinitions]
  decide

theorem normalDefinitions_repeated :
    normalDefinitions repeated.executables = [query "b", query "a"] := by
  have hsorted : sortByName sortName repeated.executables = repeated.executables :=
    List.mergeSort_of_pairwise (by decide)
  rw [normalDefinitions, hsorted]
  rfl

theorem normalText_repeated : normalText repeated.executables = repeatedText := by
  rw [normalText, normalDefinitions_repeated]
  decide

theorem parse_repeatedText : Document.parse repeatedText =
    .ok ((normalDefinitions repeated.executables).map Definition.executable) := by
  have hfits : ∀ d ∈ repeated.executables, d.Fits Description.Settled := fun d hd =>
    fits_of_parse parse_repeatedSource _ (executable_mem hd)
  have hno_strings : ∀ d ∈ repeated.executables, ∀ value, .string value ∉ d.lexemes := by
    simp [repeated, query, Document.executables, Executable.lexemes, Operation.lexemes,
      Operation.isShort, Operation.headLexemes, descriptionLexemes, selectionLexemes,
      Selection.lexemes, FieldHead.lexemes, argumentLexemes, enclosedLexemes, directiveLexemes]
  rw [← normalText_repeated]
  refine (parse_normalText_iff (List.cons_ne_nil _ _) hfits).mpr ?_
  rintro value ⟨d, hd, hvalue, -⟩
  exact absurd hvalue (hno_strings d hd value)

theorem distinctlyNamed : DistinctlyNamed document.executables := by
  intro fragments
  cases fragments <;> decide

/-- Two texts with the same definitions have one canonical text, and the canonical text of two
queries of one name is its own. -/
theorem one_text :
    Document.parse source = .ok document ∧ Document.parse other = .ok second ∧
      document.executables.Perm second.executables ∧ DistinctlyNamed document.executables ∧
      normalize source = .ok text ∧ normalize other = .ok text ∧
      Document.parse repeatedSource = .ok repeated ∧
      normalize repeatedSource = .ok repeatedText ∧
      Document.parse repeatedText =
        .ok ((normalDefinitions repeated.executables).map Definition.executable) ∧
      normalize repeatedText = .ok repeatedText := by
  have hperm : document.executables.Perm second.executables := .swap _ _ _
  have hnormal : normalize repeatedSource = .ok repeatedText := by
    rw [normalize_of_parse parse_repeatedSource, normalText_repeated]
  obtain ⟨same, hsource, hother⟩ :=
    normalize_canonical.1 parse_source parse_other hperm distinctlyNamed
  obtain rfl := Except.ok.inj (normalize_source.symm.trans hsource)
  exact ⟨parse_source, parse_other, hperm, distinctlyNamed, hsource, hother,
    parse_repeatedSource, hnormal, parse_repeatedText,
    normalize_canonical.2 parse_repeatedSource hnormal parse_repeatedText⟩

end ReorderedTexts

end OperationLibrary
