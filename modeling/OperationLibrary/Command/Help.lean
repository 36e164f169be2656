import OperationLibrary.Command.Subcommand
import OperationLibrary.Text.Fill

/-!
Pages that explain how the commands are used: a line on their arguments, what they are for, and a
table of their options.
-/

namespace OperationLibrary.Command

/-! ### Layout -/

/-- The width of a page. -/
def pageWidth : Nat := 78

/-- How wide the first column of a table may get; what is wider has its explanation below it. -/
def columnLimit : Nat := 30

/-- Lines behind a margin. -/
def behind (margin : Nat) (lines : List String) : List String :=
  lines.map (Text.blanks margin ++ ·)

/-- Paragraphs with a blank line between them. -/
def paragraphs (blocks : List (List String)) : List String :=
  [""].intercalate blocks

/-- A paragraph behind a margin. -/
def paragraph (margin : Nat) (text : String) : List String :=
  behind margin (Text.fill (pageWidth - margin) (Text.words text))

/-- A table of terms and their explanations. -/
def table (rows : List (String × List Text.Word)) : List String :=
  let widest := (rows.map fun row => row.1.length).foldl max 0
  let column := min widest columnLimit + 2
  rows.flatMap fun (term, explanation) =>
    let lines := Text.fill (pageWidth - column - 2) explanation
    if term.length + 2 ≤ column then
      behind 2 ((term ++ Text.blanks (column - term.length) ++ lines.headD "") ::
        behind column lines.tail)
    else behind 2 (term :: behind column lines)

/-! ### Options -/

/-- The word for the value of an option. -/
def ValueRule.placeholder? : ValueRule → Option String
  | .flag => none
  | .text => some "TEXT"
  | .path _ kind => some (pathNoun kind).toUpper
  | .choice words => some ("[" ++ "|".intercalate words ++ "]")

namespace OptionRule

/-- The names of an option, short ones first, and what stands for its value. -/
def term (rule : OptionRule) : String :=
  let (long, short) := rule.names.partition isLongName
  ", ".intercalate (short ++ long) ++ (rule.value.placeholder?.elim "" (" " ++ ·))

/-- What an option is for, and in brackets what holds when it is not given. -/
def explanation (rule : OptionRule) : List Text.Word :=
  let absence := match rule.isRequired, rule.preset with
    | true, _ => [⟨2, "[required]"⟩]
    | false, some value => [⟨2, "[default:"⟩, ⟨1, value ++ "]"⟩]
    | false, none => []
  Text.words rule.about ++ absence

end OptionRule

def optionsTable (rules : List OptionRule) : List String :=
  "Options:" :: table (rules.map fun rule => (rule.term, rule.explanation))

/-! ### Pages -/

/-- How a command is used, in one line. -/
def usage : Option Subcommand → String
  | none => "Usage: main [OPTIONS] COMMAND [ARGS]..."
  | some subcommand => "Usage: main " ++ subcommand.word ++ " [OPTIONS]"

/-- What the program is for. -/
def programPurpose : List String :=
  ["Netlify Graph style library generator.",
    "Generate a JavaScript runtime, TypeScript declarations and handler snippets from a GraphQL " ++
      "schema and an operations document."]

/-- The subcommands in the order of their words. -/
def commandsTable : List String :=
  let sorted := Subcommand.all.mergeSort fun a b => a.word ≤ b.word
  "Commands:" :: table (sorted.map fun s => (s.word, Text.words s.purpose))

/-- What a subcommand says about itself. -/
def Subcommand.description (subcommand : Subcommand) : List (List String) :=
  (subcommand.purpose :: subcommand.remarks).map (paragraph 2) ++
    if subcommand.examples.isEmpty then []
    else paragraph 2 "Examples:" :: subcommand.examples.map (paragraph 6)

/-- The page on a subcommand, or on the whole program. -/
def helpPage (subcommand : Option Subcommand) : String :=
  let blocks := match subcommand with
    | none => programPurpose.map (paragraph 2) ++ [optionsTable mainRules, commandsTable]
    | some s => s.description ++ [optionsTable s.rules]
  String.join ((paragraphs ([usage subcommand] :: blocks)).map (· ++ "\n"))

end OperationLibrary.Command
