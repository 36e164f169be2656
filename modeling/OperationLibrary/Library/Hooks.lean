import OperationLibrary.Notice
import OperationLibrary.Text.Blank

/-!
Hooks around the writing of a library. Selections run before it, each on what the one before it
kept, and drop functions by kind or by how their names begin. Banners run on each finished file,
the first one first, so that the last one ends up at the top.
-/

namespace OperationLibrary

/-- Which functions to keep. -/
structure FunctionFilter where
  excludedStart : Option String
  requiredStart : Option String
  excludedKinds : List String
  deriving DecidableEq

namespace FunctionFilter

/-- Whether a function of this kind and operation name is kept. -/
def keeps (filter : FunctionFilter) (kind name : String) : Bool :=
  !filter.excludedKinds.contains kind &&
    (filter.requiredStart.all fun start => start.toList.isPrefixOf name.toList) &&
    !filter.excludedStart.any fun start => start.toList.isPrefixOf name.toList

/-- The functions that are kept, with a notice of how many are not. -/
def apply {α : Type} (filter : FunctionFilter) (kind name : α → String) (functions : List α) :
    Logged (List α) := do
  let kept := functions.filter fun f => filter.keeps (kind f) (name f)
  if kept.length ≠ functions.length then
    Logged.debug .hooks ("Filtered out " ++ toString (functions.length - kept.length) ++ " of " ++
      toString functions.length ++ " functions")
  return kept

end FunctionFilter

/-- A text that stands at the top of a file. -/
structure Banner where
  text : String
  deriving DecidableEq

/-- The contents behind the banner and a blank line. -/
def Banner.apply (banner : Banner) (contents : String) : String :=
  String.ofList (Text.dropEndWhile (· == '\n') banner.text.toList) ++ "\n\n" ++ contents

structure Hooks where
  filters : List FunctionFilter
  banners : List Banner
  deriving DecidableEq

namespace Hooks

def none : Hooks := ⟨[], []⟩

/-- The functions that all filters keep. -/
def select {α : Type} (hooks : Hooks) (kind name : α → String) (functions : List α) :
    Logged (List α) :=
  hooks.filters.foldlM (fun kept filter => filter.apply kind name kept) functions

/-- The contents of a file below all banners. -/
def finish (hooks : Hooks) (contents : String) : String :=
  hooks.banners.foldl (fun contents banner => banner.apply contents) contents

end Hooks

end OperationLibrary
