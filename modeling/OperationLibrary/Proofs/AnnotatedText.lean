import OperationLibrary.Proofs.AnnotationTables
import OperationLibrary.Proofs.KeyedTables
import OperationLibrary.Proofs.NormalForm

/-!
The texts of annotated definitions. A definition that was read from a document is read again from
what is printed of it, so the text in the table of operations stands for the operation that it was
made of.
-/

namespace OperationLibrary

open Syntax

/-! ### Printed definitions -/

/-- The text that a definition is printed as has its lexemes. -/
theorem lexemes_print {d : Executable} (h : d.Fits Description.Settled) :
    lexemes d.print.toList = d.lexemes ++ [.eof] := by
  have hseparated : Separated [] := by
    intro c hc
    cases hc
  have hread := (h.mono fun _ hliteral => hliteral.printable).writes 0 [] hseparated
  rwa [shifted_zero, List.append_nil, lexemes_nil, lexemes_reread h] at hread

/-- A definition of a document is read from its own text. -/
theorem parse_print {source : String} {document : Document}
    (hparse : Document.parse source = .ok document) {d : Executable}
    (hd : d ∈ document.executables) : Document.parse d.print = .ok [.executable d] := by
  have hsettled : d.Fits Description.Settled := fits_of_parse hparse _ (executable_mem hd)
  have hlexemes := lexemes_print hsettled
  have hfits : ∀ other ∈ [d], other.Fits Description.Settled := by
    simpa using hsettled
  exact parse_of_lexemes (List.cons_ne_nil d []) hfits (by simpa using hlexemes)

/-! ### Entries of tables -/

theorem mem_of_mem_tagged {topic : Topic} {supply : IdSupply} {next : Nat}
    {definitions : List Executable} {entry : Tag × Executable}
    (h : entry ∈ tagged topic supply next definitions) : entry.2 ∈ definitions := by
  induction definitions generalizing next with
  | nil => cases h
  | cons definition rest ih =>
      rw [tagged] at h
      split at h
      · exact List.mem_cons_of_mem _ (ih h)
      · rcases List.mem_cons.mp h with rfl | h
        · exact List.mem_cons_self
        · exact List.mem_cons_of_mem _ (ih h)

/-- What the table of operations has under an id is made of an operation of the document. -/
theorem exists_of_mem_functions {topic : Topic} {supply : IdSupply} {document : Document}
    {id : String} {entry : AnnotatedOperation}
    (h : (id, entry) ∈ (extractAnnotations topic supply document).value.functions) :
    ∃ tag, tag.id = id ∧ .operation entry.operation ∈ document.executables ∧
      entry = annotatedOperation document tag entry.operation := by
  rw [value_extractAnnotations] at h
  obtain ⟨⟨tag, definition⟩, htagged, hentry⟩ := List.mem_filterMap.mp (Keyed.mem_ofList h)
  cases definition with
  | fragment fragment => cases hentry
  | operation operation =>
      obtain ⟨rfl, rfl⟩ := Prod.mk.inj (Option.some.inj hentry)
      exact ⟨tag, rfl, mem_of_mem_tagged htagged, rfl⟩

theorem id_of_mem_functions {topic : Topic} {supply : IdSupply} {document : Document}
    {id : String} {entry : AnnotatedOperation}
    (h : (id, entry) ∈ (extractAnnotations topic supply document).value.functions) :
    entry.tag.id = id := by
  obtain ⟨tag, htag, -, hmade⟩ := exists_of_mem_functions h
  rw [hmade]
  exact htag

/-- Every id is in the table of operations once. -/
theorem eq_of_mem_functions {topic : Topic} {supply : IdSupply} {document : Document}
    {id : String} {entry other : AnnotatedOperation}
    (h : (id, entry) ∈ (extractAnnotations topic supply document).value.functions)
    (hother : (id, other) ∈ (extractAnnotations topic supply document).value.functions) :
    other = entry := by
  rw [value_extractAnnotations] at h hother
  have hsame := List.inj_on_of_nodup_map (Keyed.nodup_ofList _) hother h rfl
  exact (Prod.mk.inj hsame).2

end OperationLibrary
