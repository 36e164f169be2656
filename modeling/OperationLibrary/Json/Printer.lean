import OperationLibrary.Json.Value

/-!
JSON as text. All printers escape quotes, backslashes and the control characters below the blank;
they differ in whether other characters are escaped as well, in the marks between the parts, and in
the order of the members.
-/

namespace OperationLibrary.Json

/-! ### Strings -/

/-- Four hexadecimal digits in lower case. -/
def hex4 (n : Nat) : List Char :=
  [n / 4096, n / 256, n / 16, n].map fun d => Nat.digitChar (d % 16)

def unicodeEscape (unit : Nat) : List Char :=
  '\\' :: 'u' :: hex4 unit

/-- The escapes of one letter. -/
def shortEscape? : Char → Option (List Char)
  | '"' => some ['\\', '"']
  | '\\' => some ['\\', '\\']
  | '\n' => some ['\\', 'n']
  | '\r' => some ['\\', 'r']
  | '\t' => some ['\\', 't']
  | '\x0c' => some ['\\', 'f']
  | '\x08' => some ['\\', 'b']
  | _ => none

/-- A character in printable ASCII; those beyond the basic plane become a surrogate pair. -/
def asciiEscape (c : Char) : List Char :=
  match shortEscape? c with
  | some escape => escape
  | none =>
    let n := c.toNat
    if 0x20 ≤ n ∧ n < 0x7f then [c]
    else if n < 0x10000 then unicodeEscape n
    else
      unicodeEscape (0xd800 + (n - 0x10000) / 0x400) ++
        unicodeEscape (0xdc00 + (n - 0x10000) % 0x400)

/-- A character as itself, unless it is a quote, a backslash or a control character. -/
def plainEscape (c : Char) : List Char :=
  match shortEscape? c with
  | some escape => escape
  | none => if c.toNat < 0x20 then unicodeEscape c.toNat else [c]

def quoteWith (escape : Char → List Char) (text : String) : String :=
  String.ofList ('"' :: text.toList.flatMap escape ++ ['"'])

/-! ### Values -/

/-- How values are written: the escapes of characters, and the marks between items and between a
key and its value. -/
structure Style where
  escape : Char → List Char
  itemMark : String
  keyMark : String

/-- Printable ASCII without blanks. -/
def Style.compactAscii : Style := ⟨asciiEscape, ",", ":"⟩

/-- Printable ASCII with a blank behind every mark. -/
def Style.spacedAscii : Style := ⟨asciiEscape, ", ", ": "⟩

/-- No blanks, and every character but the control characters as itself. -/
def Style.compact : Style := ⟨plainEscape, ",", ":"⟩

def numberText : Decimal.Binary64 → String
  | .nan => "NaN"
  | .infinite negative => if negative then "-Infinity" else "Infinity"
  | x => x.toText

mutual

def print (style : Style) : Json → String
  | null => "null"
  | bool value => if value then "true" else "false"
  | int value => toString value
  | float value => numberText value
  | string text => quoteWith style.escape text
  | array items => "[" ++ style.itemMark.intercalate (printItems style items) ++ "]"
  | object members =>
    "\x7b" ++ style.itemMark.intercalate (printMembers style members) ++ "\x7d"

def printItems (style : Style) : List Json → List String
  | [] => []
  | item :: rest => print style item :: printItems style rest

def printMembers (style : Style) : List (String × Json) → List String
  | [] => []
  | (key, value) :: rest =>
    (quoteWith style.escape key ++ style.keyMark ++ print style value) :: printMembers style rest

end

/-! ### Sorted members -/

def keyBefore (left right : String × Json) : Bool :=
  left.1 ≤ right.1

mutual

/-- The value with the members of every object in the order of their keys. -/
def sortKeys : Json → Json
  | array items => array (sortKeysItems items)
  | object members => object ((sortKeysMembers members).mergeSort keyBefore)
  | other => other

def sortKeysItems : List Json → List Json
  | [] => []
  | item :: rest => sortKeys item :: sortKeysItems rest

def sortKeysMembers : List (String × Json) → List (String × Json)
  | [] => []
  | (key, value) :: rest => (key, sortKeys value) :: sortKeysMembers rest

end

/-- One text for all objects that differ in the order of their members only. -/
def canonicalText (value : Json) : String :=
  print .compactAscii value.sortKeys

end OperationLibrary.Json
