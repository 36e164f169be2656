import OperationLibrary.Json.Value
import OperationLibrary.Keyed
import OperationLibrary.Text.Hexadecimal

/-!
Reading JSON. Besides the standard's values the words for the special floating point numbers are
read. A fault names the place where the reading could not go on, by the characters left there.
There are limits on numbers, and a strict way of reading that sets more of them.
-/

namespace OperationLibrary.Json

inductive Fault where
  | expectedValue
  | expectedKey
  | expectedColon
  | expectedComma
  | extraData
  | unterminatedString
  | controlCharacter
  | invalidEscape
  | invalidUnicodeEscape
  | byteOrderMark
  | tooManyDigits
  | unpairedSurrogate
  deriving DecidableEq

def Fault.message : Fault → String
  | .expectedValue => "Expecting value"
  | .expectedKey => "Expecting property name enclosed in double quotes"
  | .expectedColon => "Expecting ':' delimiter"
  | .expectedComma => "Expecting ',' delimiter"
  | .extraData => "Extra data"
  | .unterminatedString => "Unterminated string starting at"
  | .controlCharacter => "Invalid control character at"
  | .invalidEscape => "Invalid \\escape"
  | .invalidUnicodeEscape => "Invalid \\uXXXX escape"
  | .byteOrderMark => "Unexpected UTF-8 BOM (decode using utf-8-sig)"
  | .tooManyDigits => "Too many digits in number"
  | .unpairedSurrogate => "Unpaired surrogate in \\uXXXX escape"

/-- Reading is lenient where nothing else is said. Strict reading takes no half of a surrogate
pair, bounds all numbers alike, and bounds the nesting. -/
inductive Strictness where
  | lenient
  | strict
  deriving DecidableEq

/-- A step takes characters off the front, or fails with the text that was left. -/
abbrev Step (α : Type) := Except (Fault × List Char) (α × List Char)

def isSpace (c : Char) : Bool :=
  c == ' ' || c == '\t' || c == '\n' || c == '\r'

def skipSpace (text : List Char) : List Char :=
  text.dropWhile isSpace

/-! ### Strings -/

def escapeLetter? : Char → Option Char
  | '"' => some '"'
  | '\\' => some '\\'
  | '/' => some '/'
  | 'b' => some '\x08'
  | 'f' => some '\x0c'
  | 'n' => some '\n'
  | 'r' => some '\r'
  | 't' => some '\t'
  | _ => none

/-- The character of an escape whose backslash is gone, and how many characters it takes behind the
`u` that `text` starts with. A unit that is half of a surrogate pair joins the escape after it. At
least one character must follow the digits. -/
def readUnit (strictness : Strictness) (text : List Char) :
    Except (Fault × List Char) (Char × Nat) :=
  let digits := text.drop 1
  if (digits.drop 4).isEmpty then .error (.invalidUnicodeEscape, text)
  else
    match Text.hexUnit? digits with
    | none => .error (.invalidUnicodeEscape, text)
    | some unit =>
      if unit < 0xd800 || 0xdc00 ≤ unit || (digits.drop 10).isEmpty then single unit
      else
        match digits.drop 4 with
        | '\\' :: 'u' :: later =>
          match Text.hexUnit? later with
          | none => .error (.invalidUnicodeEscape, 'u' :: later)
          | some low =>
            if 0xdc00 ≤ low && low < 0xe000 then
              .ok (Char.ofNat (0x10000 + (unit - 0xd800) * 0x400 + (low - 0xdc00)), 10)
            else single unit
        | _ => single unit
where
  /-- A unit by itself; the half of a pair is no character. -/
  single (unit : Nat) : Except (Fault × List Char) (Char × Nat) :=
    if strictness = .strict ∧ 0xd800 ≤ unit ∧ unit < 0xe000 then
      .error (.unpairedSurrogate, text)
    else .ok (Char.ofNat unit, 4)

/-- The string whose opening quote is gone; `opening` is the text with that quote. -/
def readString (strictness : Strictness) (opening text : List Char) : Step (List Char) :=
  match text with
  | [] => .error (.unterminatedString, opening)
  | '"' :: rest => .ok ([], rest)
  | '\\' :: 'u' :: rest =>
    match readUnit strictness ('u' :: rest) with
    | .error fault => .error fault
    | .ok (c, width) =>
      (readString strictness opening (rest.drop width)).map fun (cs, left) => (c :: cs, left)
  | '\\' :: c :: rest =>
    match escapeLetter? c with
    | some d => (readString strictness opening rest).map fun (cs, left) => (d :: cs, left)
    | none => .error (.invalidEscape, text)
  | ['\\'] => .error (.unterminatedString, opening)
  | c :: rest =>
    if c.toNat < 0x20 then .error (.controlCharacter, text)
    else (readString strictness opening rest).map fun (cs, left) => (c :: cs, left)
termination_by text.length
decreasing_by
  all_goals simp only [List.length_drop, List.length_cons]
  all_goals omega

/-! ### Numbers -/

def digitsValue (digits : List Char) : Nat :=
  digits.foldl (fun n c => n * 10 + (c.toNat - 48)) 0

/-- The digits in front of a fraction; none is behind a zero. -/
def wholeRun (text : List Char) : List Char :=
  match text with
  | '0' :: _ => ['0']
  | _ => text.takeWhile Char.isDigit

/-- The mark and digits of a fraction, where both are there. -/
def fractionRun (text : List Char) : List Char :=
  match text with
  | '.' :: rest =>
    let digits := rest.takeWhile Char.isDigit
    if digits.isEmpty then [] else '.' :: digits
  | _ => []

def exponentRun (text : List Char) : List Char :=
  match text with
  | e :: rest =>
    if e == 'e' || e == 'E' then
      let sign := (rest.take 1).filter fun c => c == '+' || c == '-'
      let digits := (rest.drop sign.length).takeWhile Char.isDigit
      if digits.isEmpty then [] else e :: (sign ++ digits)
    else []
  | [] => []

/-- Longer runs of digits are not read as a number. -/
def digitLimit : Nat := 4300

/-- A number, or a fault where none starts here. The limit is on integers, and when reading
strictly on whatever stands in front of a fraction as well, its sign included. -/
def readNumber (strictness : Strictness) (text : List Char) : Step Json :=
  let sign := (text.take 1).filter (· == '-')
  let body := text.drop sign.length
  let whole := wholeRun body
  if whole.isEmpty then .error (.expectedValue, text)
  else
    let fraction := fractionRun (body.drop whole.length)
    let exponent := exponentRun ((body.drop whole.length).drop fraction.length)
    let rest := ((body.drop whole.length).drop fraction.length).drop exponent.length
    let isInteger := fraction.isEmpty && exponent.isEmpty
    let counted := match strictness with
      | .lenient => if isInteger then whole.length else 0
      | .strict => sign.length + whole.length
    if digitLimit < counted then .error (.tooManyDigits, text)
    else if isInteger then
      let n : Int := digitsValue whole
      .ok (.int (if sign.isEmpty then n else -n), rest)
    else
      let written := sign ++ whole ++ fraction ++ exponent
      .ok (.float (Decimal.Binary64.ofText (String.ofList written)), rest)

/-! ### Values -/

/-- A value of one word, or a number. -/
def readWord (strictness : Strictness) (text : List Char) : Step Json :=
  match words.find? fun word => word.1.toList.isPrefixOf text with
  | some (word, value) => .ok (value, text.drop word.length)
  | none => readNumber strictness text
where
  words : List (String × Json) :=
    [("null", .null), ("true", .bool true), ("false", .bool false), ("NaN", .float .nan),
      ("Infinity", .float (.infinite false)), ("-Infinity", .float (.infinite true))]

mutual

/-- A value; every call takes one of the rounds, and no text needs more than twice its length. -/
def readValue (strictness : Strictness) : Nat → List Char → Step Json
  | 0, text => .error (.expectedValue, text)
  | rounds + 1, text =>
    match text with
    | [] => .error (.expectedValue, [])
    | '"' :: rest =>
      (readString strictness text rest).map fun (cs, left) =>
        (.string (String.ofList cs), left)
    | '[' :: rest =>
      match skipSpace rest with
      | ']' :: left => .ok (.array [], left)
      | inner => (readItems strictness rounds inner).map fun (items, left) => (.array items, left)
    | '\x7b' :: rest =>
      match skipSpace rest with
      | '\x7d' :: left => .ok (.object [], left)
      | inner =>
        (readMembers strictness rounds inner).map fun (members, left) => (.object members, left)
    | _ => readWord strictness text

/-- The items of an array up to and with the closing bracket. -/
def readItems (strictness : Strictness) : Nat → List Char → Step (List Json)
  | 0, text => .error (.expectedValue, text)
  | rounds + 1, text =>
    match readValue strictness rounds text with
    | .error fault => .error fault
    | .ok (item, rest) =>
      match skipSpace rest with
      | ']' :: left => .ok ([item], left)
      | ',' :: more =>
        (readItems strictness rounds (skipSpace more)).map fun (items, left) =>
          (item :: items, left)
      | other => .error (.expectedComma, other)

/-- The members of an object up to and with the closing brace. -/
def readMembers (strictness : Strictness) : Nat → List Char → Step (List (String × Json))
  | 0, text => .error (.expectedKey, text)
  | rounds + 1, text =>
    match text with
    | '"' :: afterQuote =>
      match readString strictness text afterQuote with
      | .error fault => .error fault
      | .ok (key, afterKey) =>
        match skipSpace afterKey with
        | ':' :: afterColon =>
          match readValue strictness rounds (skipSpace afterColon) with
          | .error fault => .error fault
          | .ok (value, rest) =>
            match skipSpace rest with
            | '\x7d' :: left => .ok ([(String.ofList key, value)], left)
            | ',' :: more =>
              (readMembers strictness rounds (skipSpace more)).map fun (members, left) =>
                ((String.ofList key, value) :: members, left)
            | other => .error (.expectedComma, other)
        | other => .error (.expectedColon, other)
    | _ => .error (.expectedKey, text)

end

mutual

/-- The value with repeated keys joined: the last value counts, at the first place. -/
def joinKeys : Json → Json
  | array items => array (joinKeysItems items)
  | object members => object (Keyed.ofList (joinKeysMembers members))
  | other => other

def joinKeysItems : List Json → List Json
  | [] => []
  | item :: rest => joinKeys item :: joinKeysItems rest

def joinKeysMembers : List (String × Json) → List (String × Json)
  | [] => []
  | (key, value) :: rest => (key, joinKeys value) :: joinKeysMembers rest

end

/-- A fault with the number of characters in front of it. -/
structure SyntaxError where
  fault : Fault
  offset : Nat
  deriving DecidableEq

/-- The value that a text holds, with blanks around it and with all that it repeats. -/
def read (strictness : Strictness) (source : String) : Except SyntaxError Json :=
  let text := source.toList
  let total := text.length
  if text.head? = some '\ufeff' then .error ⟨.byteOrderMark, 0⟩
  else
    match readValue strictness (2 * total + 2) (skipSpace text) with
    | .error (fault, left) => .error ⟨fault, total - left.length⟩
    | .ok (value, rest) =>
      match skipSpace rest with
      | [] => .ok value
      | left => .error ⟨.extraData, total - left.length⟩

/-- The value that a text holds. -/
def parse (source : String) : Except SyntaxError Json :=
  (read .lenient source).map joinKeys

/-- How deep values may nest when they are read strictly. -/
def depthLimit : Nat := 200

/-- The value that a text holds by the strict rules. -/
def parseStrictly? (source : String) : Option Json :=
  match read .strict source with
  | .ok value => if value.depth ≤ depthLimit then some value.joinKeys else none
  | .error _ => none

/-- The wording of a fault with its place in the text. -/
def SyntaxError.message (source : String) (error : SyntaxError) : String :=
  let before := source.toList.take error.offset
  let line := (before.filter (· == '\n')).length + 1
  let column := (before.reverse.takeWhile (· != '\n')).length + 1
  error.fault.message ++ ": line " ++ toString line ++ " column " ++ toString column ++
    " (char " ++ toString error.offset ++ ")"

end OperationLibrary.Json
