import OperationLibrary.Syntax.BlockString
import OperationLibrary.Syntax.Token
import OperationLibrary.Text.Hexadecimal

/-!
Reading the tokens of a source text. Every step takes at least one character off the front, so the
list of tokens ends: with the end of the text, or with the fault that stopped the reading. Offsets
count characters from the start of the text.
-/

namespace OperationLibrary.Syntax

open Text (hexDigit? hexNumber? hexUnit?)

/-! ### Character classes -/

def isNameStart (c : Char) : Bool :=
  c.isAlpha || c == '_'

def isNameContinue (c : Char) : Bool :=
  c.isAlphanum || c == '_'

/-- Blanks, tabs, commas, line ends and byte order marks mean nothing between tokens. -/
def isIgnored (c : Char) : Bool :=
  c == ' ' || c == '\t' || c == ',' || c == '\n' || c == '\r' || c == '\ufeff'

def isLineEnd (c : Char) : Bool :=
  c == '\n' || c == '\r'

/-- Code points that are characters: all but the surrogates. -/
def isCharacterCode (n : Nat) : Bool :=
  n < 0xd800 || (0xe000 ≤ n && n < 0x110000)

/-! ### Numbers -/

/-- What a part of a number is read to: its characters, or what is wrong and how many characters are
in front of that. -/
abbrev ScannedPart := Except (ScanFault × Nat) (List Char)

/-- The digits at the front, of which there must be one. -/
def scanDigits (text : List Char) (offset : Nat) : ScannedPart :=
  match text.takeWhile Char.isDigit with
  | [] => .error (.expectedDigit text.head?, offset)
  | digits => .ok digits

/-- The digits in front of the point; a zero stands alone. -/
def scanWhole (text : List Char) (offset : Nat) : ScannedPart :=
  match text with
  | '0' :: c :: _ => if c.isDigit then .error (.digitAfterZero c, offset + 1) else .ok ['0']
  | _ => scanDigits text offset

/-- The point and the digits behind it, if there is a point. -/
def scanFraction (text : List Char) (offset : Nat) : ScannedPart :=
  match text with
  | '.' :: rest => (scanDigits rest (offset + 1)).map ('.' :: ·)
  | _ => .ok []

/-- The sign at the front of the digits of an exponent. -/
def exponentSign (text : List Char) : List Char :=
  (text.take 1).filter fun c => c == '+' || c == '-'

/-- The mark of an exponent, its sign and its digits, if there is a mark. -/
def scanExponent (text : List Char) (offset : Nat) : ScannedPart :=
  match text with
  | e :: rest =>
    if e == 'e' || e == 'E' then
      let sign := exponentSign rest
      (scanDigits (rest.drop sign.length) (offset + 1 + sign.length)).map (e :: sign ++ ·)
    else .ok []
  | [] => .ok []

/-- Takes a number off the front: its text and whether it has a fraction or an exponent. The
fault comes with the number of characters in front of the one that is wrong. -/
def scanNumber (text : List Char) : Except (ScanFault × Nat) (List Char × Bool) := do
  let sign := text.takeWhile (· == '-') |>.take 1
  let whole ← scanWhole (text.drop sign.length) sign.length
  let written := sign ++ whole
  let fraction ← scanFraction (text.drop written.length) written.length
  let written := written ++ fraction
  let exponent ← scanExponent (text.drop written.length) written.length
  let written := written ++ exponent
  match text.drop written.length with
  | c :: _ =>
    if c == '.' || isNameStart c then .error (.expectedDigit (some c), written.length)
    else .ok (written, !(fraction.isEmpty && exponent.isEmpty))
  | [] => .ok (written, !(fraction.isEmpty && exponent.isEmpty))

/-! ### Strings -/

/-- The escapes that are one letter. -/
def escapedCharacter? : Char → Option Char
  | '"' => some '"'
  | '\\' => some '\\'
  | '/' => some '/'
  | 'b' => some '\x08'
  | 'f' => some '\x0c'
  | 'n' => some '\n'
  | 'r' => some '\r'
  | 't' => some '\t'
  | _ => none

/-- Characters an escape of variable width spans at most, from the backslash to the brace. -/
def variableEscapeLimit : Nat := 12

/-- The escape whose backslash is gone: the character, and how many characters write it after the
backslash. Two escapes of four digits that form a surrogate pair are one character. -/
def scanEscape : List Char → Except ScanFault (Char × Nat)
  | 'u' :: '\x7b' :: digits =>
    let known := digits.takeWhile fun c => (hexDigit? c).isSome
    let width := min (min (variableEscapeLimit - 3) digits.length) (known.length + 1)
    let written := digits.take width
    let fault := ScanFault.unicodeEscape ("\\u\x7b" ++ String.ofList written)
    match written.getLast?, hexNumber? written.dropLast with
    | some '\x7d', some n =>
      if 2 ≤ width && isCharacterCode n then .ok (Char.ofNat n, 2 + width) else .error fault
    | _, _ => .error fault
  | 'u' :: rest =>
    let fault := ScanFault.unicodeEscape ("\\u" ++ String.ofList (rest.take 4))
    match hexUnit? rest, rest.drop 4 with
    | none, _ => .error fault
    | some high, later =>
      if isCharacterCode high then .ok (Char.ofNat high, 5)
      else
        match later with
        | '\\' :: 'u' :: second =>
          match hexUnit? second with
          | some low =>
            if high < 0xdc00 && 0xdc00 ≤ low && low < 0xe000 then
              .ok (Char.ofNat (0x10000 + (high - 0xd800) * 0x400 + (low - 0xdc00)), 11)
            else .error fault
          | none => .error fault
        | _ => .error fault
  | c :: _ =>
    match escapedCharacter? c with
    | some d => .ok (d, 1)
    | none => .error (.characterEscape (String.ofList ['\\', c]))
  | [] => .error (.characterEscape "\\")

/-- The value of the string whose opening quote is gone, and the offset behind its closing quote.
The first character of the text stands at `offset`. -/
def scanString (text : List Char) (offset : Nat) : Except (ScanFault × Nat) (List Char × Nat) :=
  match text with
  | [] => .error (.unterminatedString, offset)
  | c :: rest =>
    if c == '"' then .ok ([], offset + 1)
    else if c == '\\' then
      match scanEscape rest with
      | .error fault => .error (fault, offset)
      | .ok (d, width) =>
        (scanString (rest.drop width) (offset + 1 + width)).map fun (ds, stop) => (d :: ds, stop)
    else if isLineEnd c then .error (.unterminatedString, offset)
    else (scanString rest (offset + 1)).map fun (ds, stop) => (c :: ds, stop)
termination_by text.length
decreasing_by
  all_goals simp only [List.length_drop, List.length_cons]
  all_goals omega

/-- The raw text and the end of the block string whose opening quotes are gone. An escaped triple
quote stands for itself. -/
def scanBlock : List Char → Nat → Except (ScanFault × Nat) (List Char × Nat)
  | '"' :: '"' :: '"' :: _, offset => .ok ([], offset + 3)
  | '\\' :: '"' :: '"' :: '"' :: rest, offset =>
    (scanBlock rest (offset + 4)).map fun (cs, stop) => ('"' :: '"' :: '"' :: cs, stop)
  | c :: rest, offset => (scanBlock rest (offset + 1)).map fun (cs, stop) => (c :: cs, stop)
  | [], offset => .error (.unterminatedString, offset)

/-! ### Tokens -/

/-- The lexeme that `c` and the characters after it start, and how many of those after it belong
to it; `c` is no ignored character and starts no comment. Faults count from `c`. -/
def scanLexeme (c : Char) (rest : List Char) : Except (ScanFault × Nat) (Lexeme × Nat) :=
  match c, rest with
  | '"', '"' :: '"' :: body =>
    (scanBlock body 3).map fun (raw, stop) =>
      (.blockString (String.ofList (BlockString.valueOfLines (Text.sourceLines raw))), stop - 1)
  | '"', _ => (scanString rest 1).map fun (value, stop) => (.string (String.ofList value), stop - 1)
  | '.', '.' :: '.' :: _ => .ok (.punctuator .ellipsis, 2)
  | '.', '.' :: _ => .error (.twoDots, 0)
  | '.', _ =>
    match rest.takeWhile Char.isDigit with
    | [] => .error (.unexpectedCharacter '.', 0)
    | digits => .error (.leadingDot (String.ofList digits), 0)
  | '\'', _ => .error (.singleQuote, 0)
  | _, _ =>
    match Punctuator.ofChar? c with
    | some mark => .ok (.punctuator mark, 0)
    | none =>
      if c.isDigit || c == '-' then
        (scanNumber (c :: rest)).map fun (digits, isFloat) =>
          let text := String.ofList digits
          (if isFloat then .float text else .int text, digits.length - 1)
      else if isNameStart c then
        let more := rest.takeWhile isNameContinue
        .ok (.name (String.ofList (c :: more)), more.length)
      else .error (.unexpectedCharacter c, 0)

/-- The tokens of `text`, whose first character stands at `offset`. -/
def scanFrom (text : List Char) (offset : Nat) : List Token :=
  match text with
  | [] => [⟨.eof, offset⟩]
  | c :: rest =>
    if isIgnored c then scanFrom rest (offset + 1)
    else if c == '#' then
      let comment := rest.takeWhile fun d => !isLineEnd d
      scanFrom (rest.drop comment.length) (offset + 1 + comment.length)
    else
      match scanLexeme c rest with
      | .error (fault, n) => [⟨.invalid fault, offset + n⟩]
      | .ok (lexeme, n) => ⟨lexeme, offset⟩ :: scanFrom (rest.drop n) (offset + 1 + n)
termination_by text.length
decreasing_by
  all_goals simp only [List.length_drop, List.length_cons]
  all_goals omega

/-- The tokens of a source text. -/
def Token.scan (source : String) : List Token :=
  scanFrom source.toList 0

end OperationLibrary.Syntax
