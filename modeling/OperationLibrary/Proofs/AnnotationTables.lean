import Mathlib.Data.List.Nodup
import OperationLibrary.Document.Annotated

/-!
The tables of annotated definitions. Extraction tags the annotated definitions in the order of the
document, supplies the ids that are missing, and enters the operations into one table and the
fragments into another one. Where every id is given, the tag of a definition depends on nothing but
its annotation, and where no id repeats, the tables list the definitions in their order.
-/

namespace OperationLibrary

open Syntax

theorem Logged.value_foldlM {α β : Type} (f : β → α → Logged β) (init : β) (xs : List α) :
    (xs.foldlM f init).value = xs.foldl (fun b a => (f b a).value) init := by
  induction xs generalizing init with
  | nil => rfl
  | cons x rest ih => rw [List.foldlM_cons, Logged.value_bind, ih, List.foldl_cons]

/-! ### Entries -/

/-- What the tables hold of an operation with a tag. -/
def annotatedOperation (document : Document) (tag : Tag) (operation : Operation) :
    AnnotatedOperation :=
  let caching :=
    if operation.kind = .query then readCacheControl operation.directives else (none, false)
  { tag := tag
    name := operation.name.getD unknownName
    operation := operation
    text := operation.print
    textWithoutTooling := (Executable.operation operation).stripOwnTooling.print
    persistableText := (persistableOperation document operation).value.text
    cache := caching.1
    fallbackOnError := caching.2 }

/-- What the tables hold of a fragment with a tag. -/
def annotatedFragment (tag : Tag) (fragment : Fragment) : AnnotatedFragment :=
  ⟨tag, fragment, fragment.print, (Executable.fragment fragment).stripOwnTooling.print⟩

/-- The annotated definitions with their tags; missing ids are supplied in turn, from `next` on. -/
def tagged (topic : Topic) (supply : IdSupply) (next : Nat) :
    List Executable → List (Tag × Executable)
  | [] => []
  | definition :: rest =>
    match findDirective definition.directives annotationDirective with
    | none => tagged topic supply next rest
    | some directive =>
      let read := (readTag topic supply next directive).value
      (read.1, definition) :: tagged topic supply read.2 rest

def operationEntryOf (document : Document) : Tag × Executable → Option (String × AnnotatedOperation)
  | (tag, .operation o) => some (tag.id, annotatedOperation document tag o)
  | (_, .fragment _) => none

def fragmentEntryOf : Tag × Executable → Option (String × AnnotatedFragment)
  | (_, .operation _) => none
  | (tag, .fragment f) => some (tag.id, annotatedFragment tag f)

/-- Enters a tagged definition into its table. -/
def Annotations.enter (document : Document) (found : Annotations) (entry : Tag × Executable) :
    Annotations where
  functions := (operationEntryOf document entry).elim found.functions fun (id, operation) =>
    Keyed.set id operation found.functions
  fragments := (fragmentEntryOf entry).elim found.fragments fun (id, fragment) =>
    Keyed.set id fragment found.fragments

section

variable (topic : Topic) (supply : IdSupply) (document : Document)

/-- Adding a definition enters it with its tag if it has one. -/
theorem Annotations.value_add (found : Annotations) (next : Nat) (definition : Executable) :
    (Annotations.add topic supply document (found, next) definition).value =
      match findDirective definition.directives annotationDirective with
      | none => (found, next)
      | some directive =>
        let read := (readTag topic supply next directive).value
        (found.enter document (read.1, definition), read.2) := by
  unfold Annotations.add
  cases findDirective definition.directives annotationDirective with
  | none => rfl
  | some directive => cases definition <;> rfl

/-- Adding definitions one after the other enters the tagged ones. -/
theorem value_foldl_add (definitions : List Executable) (found : Annotations) (next : Nat) :
    (definitions.foldl (fun state definition =>
      (Annotations.add topic supply document state definition).value) (found, next)).1 =
        (tagged topic supply next definitions).foldl (Annotations.enter document) found := by
  induction definitions generalizing found next with
  | nil => rfl
  | cons definition rest ih =>
      rw [List.foldl_cons, Annotations.value_add, tagged]
      cases findDirective definition.directives annotationDirective with
      | none => exact ih found next
      | some directive => exact ih _ _

theorem foldl_enter (entries : List (Tag × Executable)) (found : Annotations) :
    entries.foldl (Annotations.enter document) found =
      { functions := (entries.filterMap (operationEntryOf document)).foldl
          (fun known entry => Keyed.set entry.1 entry.2 known) found.functions
        fragments := (entries.filterMap fragmentEntryOf).foldl
          (fun known entry => Keyed.set entry.1 entry.2 known) found.fragments } := by
  induction entries generalizing found with
  | nil => rfl
  | cons entry rest ih =>
      obtain ⟨tag, definition⟩ := entry
      rw [List.foldl_cons, ih]
      cases definition <;> rfl

/-- **The tables of a document.** Operations and fragments are entered into tables of their own, by
the ids of their tags. -/
theorem value_extractAnnotations :
    (extractAnnotations topic supply document).value =
      let entries := tagged topic supply 0 document.executables
      ⟨Keyed.ofList (entries.filterMap (operationEntryOf document)),
        Keyed.ofList (entries.filterMap fragmentEntryOf)⟩ := by
  unfold extractAnnotations
  rw [Logged.value_bind, Logged.value_foldlM]
  exact (value_foldl_add topic supply document document.executables ⟨[], []⟩ 0).trans
    (foldl_enter document _ ⟨[], []⟩)

end

/-! ### Given ids -/

namespace Syntax.Executable

def isAnnotated (definition : Executable) : Bool :=
  (findDirective definition.directives annotationDirective).isSome

/-- The id that the annotation of a definition gives as a string. -/
def givenId? (definition : Executable) : Option String :=
  (findDirective definition.directives annotationDirective).bind (·.string? "id")

/-- The tag of the annotation of a definition, if that gives an id. -/
def givenTag? (topic : Topic) (definition : Executable) : Option Tag :=
  (findDirective definition.directives annotationDirective).bind fun directive =>
    (directive.string? "id").map fun id =>
      ⟨id, (directive.string? "doc").getD "",
        (readStrategy topic (directive.enum? "executionStrategy")).value⟩

theorem isAnnotated_of_givenTag? {topic : Topic} {definition : Executable} {tag : Tag}
    (h : definition.givenTag? topic = some tag) : definition.isAnnotated := by
  obtain ⟨directive, hdirective, -⟩ := Option.bind_eq_some_iff.mp h
  simp [isAnnotated, hdirective]

theorem id_givenTag? (topic : Topic) (definition : Executable) :
    (definition.givenTag? topic).map Tag.id = definition.givenId? := by
  unfold givenTag? givenId?
  cases findDirective definition.directives annotationDirective with
  | none => rfl
  | some directive => cases h : directive.string? "id" <;> simp [h]

end Syntax.Executable

/-- Where every annotation gives an id, nothing is supplied. -/
theorem tagged_of_given (topic : Topic) (supply : IdSupply) (next : Nat)
    {definitions : List Executable}
    (hgiven : ∀ definition ∈ definitions, definition.isAnnotated → definition.givenId?.isSome) :
    tagged topic supply next definitions =
      definitions.filterMap fun definition => (definition.givenTag? topic).map (·, definition) := by
  induction definitions with
  | nil => rfl
  | cons definition rest ih =>
      have hrest := ih fun other hother => hgiven other (List.mem_cons_of_mem _ hother)
      have hfirst := hgiven definition List.mem_cons_self
      rw [tagged, List.filterMap_cons, ← hrest]
      cases hdirective : findDirective definition.directives annotationDirective with
      | none => simp [Executable.givenTag?, hdirective]
      | some directive =>
          obtain ⟨id, hid⟩ : ∃ id, directive.string? "id" = some id := by
            simpa [Executable.isAnnotated, Executable.givenId?, hdirective,
              Option.isSome_iff_exists] using hfirst
          simp [Executable.givenTag?, readTag, hdirective, hid]

end OperationLibrary
