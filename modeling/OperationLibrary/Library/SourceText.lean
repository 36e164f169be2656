import OperationLibrary.Text.LetterCase
import OperationLibrary.Text.WordCharacter

/-!
Values inside generated code: names that may be reserved words, texts in template literals and in
comments, and expressions that turn a text into a value of a variable's type.
-/

namespace OperationLibrary.SourceText

/-! ### Names -/

/-- Words that cannot name a variable of the generated code. -/
def reservedWords : List String :=
  ["abstract", "any", "as", "async", "await", "boolean", "break", "case", "catch", "class",
    "const", "constructor", "continue", "debugger", "declare", "default", "delete", "do", "else",
    "enum", "export", "extends", "false", "finally", "for", "from", "function", "get", "if",
    "implements", "import", "in", "instanceof", "interface", "is", "let", "module", "namespace",
    "new", "null", "number", "of", "package", "private", "protected", "public", "require",
    "return", "set", "static", "string", "super", "switch", "symbol", "this", "throw", "true",
    "try", "type", "typeof", "var", "void", "while", "with", "yield"]

/-- The name, with a low line in front of a reserved word. -/
def variableName (name : String) : String :=
  if reservedWords.contains name then "_" ++ name else name

/-! ### Template literals -/

/-- The characters of a template literal that stands for the text: backslashes, back quotes and
the openings of substitutions are escaped. -/
def templateLiteral : List Char → List Char
  | [] => []
  | '\\' :: rest => '\\' :: '\\' :: templateLiteral rest
  | '\x60' :: rest => '\\' :: '\x60' :: templateLiteral rest
  | '$' :: '\x7b' :: rest => '\\' :: '$' :: '\x7b' :: templateLiteral rest
  | c :: rest => c :: templateLiteral rest

/-- The text as the body of a template literal. -/
def templateLiteralText (text : String) : String :=
  String.ofList (templateLiteral text.toList)

/-! ### Comments -/

/-- The text without the comment ends in it. -/
def dropCommentEnds : List Char → List Char
  | '*' :: '/' :: rest => dropCommentEnds rest
  | c :: rest => c :: dropCommentEnds rest
  | [] => []

/-- The text as the body of a comment, with a margin in front of every further line. -/
def commentBody (text : String) : String :=
  String.ofList ((dropCommentEnds text.toList).flatMap fun c =>
    if c = '\n' then ['\n', ' ', '*', ' '] else [c])

/-! ### Parameters -/

/-- The expression for a value of a type, given the expression for the text of the value. -/
def parsedParameter (type expression : String) : String :=
  let name := Text.foldNameCase (String.ofList (type.toList.filter Text.isWordCharacter))
  if name == "int" then "parseInt(" ++ expression ++ ")"
  else if name == "float" then "parseFloat(" ++ expression ++ ")"
  else if name == "boolean" then expression ++ " === 'true'"
  else expression

end OperationLibrary.SourceText
