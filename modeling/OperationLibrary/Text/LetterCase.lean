import OperationLibrary.Text.LetterCaseTable

/-!
Letter case over all of Unicode. The upper case of a character may be several characters, so the
upper case of a text is the concatenation of what its characters become; no character looks at
its neighbours.
-/

namespace OperationLibrary.Text

/-- The full upper case of one character. -/
def upperCase (c : Char) : List Char :=
  let code := c.toNat
  match upperExpansions.lookup code with
  | some codes => codes.map Char.ofNat
  | none =>
    match upperRuns.find? (·.contains code) with
    | some run => [Char.ofNat ((code : Int) + run.shift).toNat]
    | none => [c]

/-- Whether a character counts as upper case, titlecase letters apart. -/
def isUpperCase (c : Char) : Bool :=
  upperCaseRuns.any fun (first, last, step) =>
    first ≤ c.toNat && c.toNat ≤ last && (c.toNat - first) % step == 0

/-- The full upper case of a text. -/
def toUpperCase (text : String) : String :=
  String.ofList (text.toList.flatMap upperCase)

/-- The text with the upper case of its first character in place of that character. -/
def capitalizeFirst (text : String) : String :=
  match text.toList with
  | [] => ""
  | c :: rest => String.ofList (upperCase c ++ rest)

/-- Names of the query language are ASCII, so their case folds by the ASCII letters alone. -/
def foldNameCase (name : String) : String :=
  String.ofList (name.toList.map Char.toLower)

end OperationLibrary.Text
