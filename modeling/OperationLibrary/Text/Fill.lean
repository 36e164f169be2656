/-!
Prose on lines of limited width. A line takes words for as long as they fit; a word that is wider
than any line has a line of its own.
-/

namespace OperationLibrary.Text

/-- A word, and the number of blanks between it and a word in front of it on the same line. -/
structure Word where
  gap : Nat
  text : String
  deriving DecidableEq

def blanks (count : Nat) : String :=
  String.ofList (List.replicate count ' ')

/-- The words of a text, one blank apart. -/
def words (text : String) : List Word :=
  (text.splitOn " ").map (⟨1, ·⟩)

/-- The lines for words behind the beginning of a line. -/
def fillAfter (width : Nat) (line : String) : List Word → List String
  | [] => [line]
  | word :: rest =>
    let longer := line ++ blanks word.gap ++ word.text
    if longer.length ≤ width then fillAfter width longer rest
    else line :: fillAfter width word.text rest

/-- Words on lines of at most `width` characters. -/
def fill (width : Nat) : List Word → List String
  | [] => []
  | first :: rest => fillAfter width first.text rest

end OperationLibrary.Text
