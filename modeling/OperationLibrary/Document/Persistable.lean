import OperationLibrary.Document.Closure
import OperationLibrary.Document.Tooling
import OperationLibrary.Syntax.Printer
import OperationLibrary.Text.LetterCase

/-!
The self-contained text of an operation: the operation without tooling directives, followed by the
fragments it needs in the order of their names.
-/

namespace OperationLibrary

open Syntax

/-- Names are ordered without regard to case, and equal ones of those with regard to it. -/
def nameBefore (left right : String) : Bool :=
  let foldedLeft := Text.foldNameCase left
  let foldedRight := Text.foldNameCase right
  foldedLeft < foldedRight || (foldedLeft == foldedRight && left ≤ right)

def sortByName {α : Type} (nameOf : α → String) (xs : List α) : List α :=
  xs.mergeSort fun x y => nameBefore (nameOf x) (nameOf y)

structure PersistableOperation where
  text : String
  fragments : List Fragment

/-- The persistable form of an operation of the document. -/
def persistableOperation (document : Document) (operation : Operation) :
    Logged PersistableOperation := do
  let needed ← neededFragments document.lastFragments operation
  let fragments := sortByName Fragment.name needed
  let parts := operation.stripTooling.print :: fragments.map Fragment.print
  return ⟨"\n\n".intercalate parts, fragments⟩

end OperationLibrary
