import OperationLibrary.Library.Hooks
import OperationLibrary.Library.Settings

/-!
Generated files. A file has a path in segments; one without any is a snippet that its user places.
Contents are put together from lines, and wherever more than one blank line comes out in a row, one
is left.
-/

namespace OperationLibrary

structure OutputFile where
  contents : String
  language : HandlerLanguage
  name : List String
  deriving DecidableEq

namespace OutputFile

def isNamed (file : OutputFile) : Bool :=
  !file.name.isEmpty

/-- Whether a segment leads anywhere. -/
def isStep (segment : String) : Bool :=
  segment ∉ ["", ".", "./"]

/-- The path of a file name. -/
def pathOf (name : List String) : String :=
  "/".intercalate (name.filter isStep)

def path (file : OutputFile) : String :=
  pathOf file.name

end OutputFile

/-! ### Contents -/

/-- The text of lines, each with its line feed. -/
def linesText (lines : List String) : String :=
  String.join (lines.map fun line => line ++ "\n")

/-- Texts that stand in for the built-in contents of files, by the names of these. -/
abbrev Overrides := List (String × String)

/-- A finished file: the text that stands in for the built-in one, or that one, below the
banners. -/
def finishFile (hooks : Hooks) (overrides : Overrides) (template : String) (name : List String)
    (language : HandlerLanguage) (builtIn : String) : OutputFile :=
  let text := ((overrides.lookup template).map Text.ofFile).getD builtIn
  ⟨hooks.finish (String.ofList (Text.collapseBlankLines text.toList)), language, name⟩

/-! ### Imports and exports -/

namespace ModuleStyle

/-- The start of a statement that exports a value under a name. -/
def exporting (style : ModuleStyle) (name : String) : String :=
  match style with
  | .commonJs => "exports." ++ name
  | .esm => "export const " ++ name

def exportingDefault (style : ModuleStyle) (name : String) : String :=
  match style with
  | .commonJs => "exports.default = " ++ name
  | .esm => "export default " ++ name

def importing (style : ModuleStyle) (name package : String) : String :=
  match style with
  | .commonJs => "const " ++ name ++ " = require(\"" ++ package ++ "\")"
  | .esm => "import " ++ name ++ " from \"" ++ package ++ "\""

/-- A reference to an exported value from its own module. -/
def exported (style : ModuleStyle) (name : String) : String :=
  match style with
  | .commonJs => "exports." ++ name
  | .esm => name

end ModuleStyle

end OperationLibrary
