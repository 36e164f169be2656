/-!
Tokens of the query language, what can be wrong with the characters of a source text, and the
wording of both.
-/

namespace OperationLibrary.Syntax

inductive Punctuator where
  | bang
  | dollar
  | ampersand
  | parenOpen
  | parenClose
  | ellipsis
  | colon
  | equals
  | at
  | bracketOpen
  | bracketClose
  | braceOpen
  | pipe
  | braceClose
  deriving DecidableEq

def Punctuator.text : Punctuator → String
  | .bang => "!"
  | .dollar => "$"
  | .ampersand => "&"
  | .parenOpen => "("
  | .parenClose => ")"
  | .ellipsis => "..."
  | .colon => ":"
  | .equals => "="
  | .at => "@"
  | .bracketOpen => "["
  | .bracketClose => "]"
  | .braceOpen => "\x7b"
  | .pipe => "|"
  | .braceClose => "\x7d"

/-- The punctuators that are one character. -/
def Punctuator.ofChar? : Char → Option Punctuator
  | '!' => some .bang
  | '$' => some .dollar
  | '&' => some .ampersand
  | '(' => some .parenOpen
  | ')' => some .parenClose
  | ':' => some .colon
  | '=' => some .equals
  | '@' => some .at
  | '[' => some .bracketOpen
  | ']' => some .bracketClose
  | '\x7b' => some .braceOpen
  | '|' => some .pipe
  | '\x7d' => some .braceClose
  | _ => none

/-! ### Faults of the source characters -/

/-- What stops the reading of tokens. -/
inductive ScanFault where
  | unexpectedCharacter (found : Char)
  | singleQuote
  | twoDots
  | leadingDot (digits : String)
  | digitAfterZero (found : Char)
  | expectedDigit (found : Option Char)
  | unterminatedString
  | characterEscape (text : String)
  | unicodeEscape (text : String)
  deriving DecidableEq

/-- A number in upper case hexadecimal, with at least `width` digits. -/
def upperHex (width n : Nat) : String :=
  let digits := (Nat.toDigits 16 n).map Char.toUpper
  String.ofList (List.replicate (width - digits.length) '0' ++ digits)

/-- How a message shows a character: printable ones in quotes, others by code point. -/
def describeCharacter (c : Char) : String :=
  if c = '"' then "'\"'"
  else if 0x20 ≤ c.toNat ∧ c.toNat ≤ 0x7e then "'" ++ c.toString ++ "'"
  else "U+" ++ upperHex 4 c.toNat

def ScanFault.message : ScanFault → String
  | .unexpectedCharacter c => "Unexpected character: " ++ describeCharacter c ++ "."
  | .singleQuote =>
    "Unexpected single quote character ('), did you mean to use a double quote (\")?"
  | .twoDots => "Unexpected '..', did you mean '...'?"
  | .leadingDot digits =>
    "Invalid number, expected digit before '.', did you mean '0." ++ digits ++ "'?"
  | .digitAfterZero c =>
    "Invalid number, unexpected digit after 0: " ++ describeCharacter c ++ "."
  | .expectedDigit found =>
    "Invalid number, expected digit but got: " ++
      (found.map describeCharacter).getD "<EOF>" ++ "."
  | .unterminatedString => "Unterminated string."
  | .characterEscape text => "Invalid character escape sequence: '" ++ text ++ "'."
  | .unicodeEscape text => "Invalid Unicode escape sequence: '" ++ text ++ "'."

/-! ### Tokens -/

/-- What a token is. The last token of a text is `eof`, or `invalid` where reading stopped. -/
inductive Lexeme where
  | punctuator (mark : Punctuator)
  | name (text : String)
  | int (digits : String)
  | float (digits : String)
  | string (text : String)
  | blockString (text : String)
  | eof
  | invalid (fault : ScanFault)
  deriving DecidableEq

/-- A lexeme and the number of characters in front of it. -/
structure Token where
  lexeme : Lexeme
  offset : Nat
  deriving DecidableEq

namespace Lexeme

/-- The text a token stands for, where it stands for any. -/
def text? : Lexeme → Option String
  | .name s | .int s | .float s | .string s | .blockString s => some s
  | _ => none

def kindName : Lexeme → String
  | .punctuator mark => "'" ++ mark.text ++ "'"
  | .name _ => "Name"
  | .int _ => "Int"
  | .float _ => "Float"
  | .string _ => "String"
  | .blockString _ => "BlockString"
  | .eof => "<EOF>"
  | .invalid _ => "Invalid"

/-- How a message names a token: its kind and the text it stands for. -/
def describe (lexeme : Lexeme) : String :=
  match lexeme.text? with
  | some text => lexeme.kindName ++ " '" ++ text ++ "'"
  | none => lexeme.kindName

end Lexeme

end OperationLibrary.Syntax
