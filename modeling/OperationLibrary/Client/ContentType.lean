import OperationLibrary.Text.Blank
import OperationLibrary.Text.Charset
import OperationLibrary.Text.Lines

/-!
The character set in a content type. A content type has parameters behind semicolons, one of which
may name the character set.
-/

namespace OperationLibrary.ContentType

/-- The parts between semicolons. Inside quotes a semicolon is a part of the text, and so is a
quote behind a backslash anywhere. -/
def parts (quoted : Bool) : List Char → List (List Char)
  | [] => [[]]
  | '\\' :: '"' :: rest => Text.consLine '\\' (Text.consLine '"' (parts quoted rest))
  | '"' :: rest => Text.consLine '"' (parts (!quoted) rest)
  | ';' :: rest => if quoted then Text.consLine ';' (parts true rest) else [] :: parts false rest
  | c :: rest => Text.consLine c (parts quoted rest)

/-- The name of a parameter, which ends at the equals sign. -/
def parameterName (part : List Char) : String :=
  (Text.trimBlank (String.ofList (part.takeWhile (· != '=')))).map Char.toLower

/-- The label of the character set: the value of the first parameter of that name. The quotes
around it make no difference to a label. -/
def charsetLabel? (contentType : String) : Option String :=
  ((parts false contentType.toList).find? fun part => parameterName part == "charset").map
    fun part => String.ofList ((part.dropWhile (· != '=')).drop 1)

/-- The character set, which is UTF-8 unless a known one is named. -/
def charset (contentType : String) : Text.Charset :=
  ((charsetLabel? contentType).bind Text.Charset.ofLabel?).getD .utf8

end OperationLibrary.ContentType
