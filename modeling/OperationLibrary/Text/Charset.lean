import OperationLibrary.Text.Charset.UpperHalf

/-!
Texts as bytes. Reading never stops: it goes on behind bytes that stand for nothing, and whoever
asked decides whether that is a fault or calls for the replacement character.
-/

namespace OperationLibrary.Text

/-! ### Pieces -/

/-- What bytes were read as. -/
inductive Piece where
  | char (c : Char)
  /-- One half of a surrogate pair without the other. -/
  | half
  | nothing
  deriving DecidableEq

/-- Stands for what has no character. -/
def replacement : Char := '\ufffd'

namespace Piece

def toChar : Piece → Char
  | .char c => c
  | .half | .nothing => replacement

/-- The piece of a code point. -/
def ofCode (n : Nat) : Piece :=
  if n < 0xd800 ∨ (0xe000 ≤ n ∧ n < 0x110000) then .char (Char.ofNat n)
  else if n < 0xe000 then .half
  else .nothing

/-- The text of pieces. -/
def text (pieces : List Piece) : String :=
  String.ofList (pieces.map toChar)

end Piece

/-! ### Units of several bytes -/

inductive ByteOrder where
  | bigEndian
  | littleEndian
  deriving DecidableEq

/-- The number that bytes write. -/
def ByteOrder.number (order : ByteOrder) (bytes : List UInt8) : Nat :=
  let inOrder := match order with
    | .bigEndian => bytes
    | .littleEndian => bytes.reverse
  inOrder.foldl (fun n byte => n * 256 + byte.toNat) 0

def isHighSurrogate (unit : Nat) : Bool :=
  0xd800 ≤ unit && unit < 0xdc00

def isLowSurrogate (unit : Nat) : Bool :=
  0xdc00 ≤ unit && unit < 0xe000

/-- The character of a surrogate pair. -/
def joinSurrogates (high low : Nat) : Piece :=
  .ofCode (0x10000 + (high - 0xd800) * 0x400 + (low - 0xdc00))

/-- Units of two bytes, of which two make a pair. Where the bytes end in the middle of something,
what is left is one piece. -/
def units16 (order : ByteOrder) : List UInt8 → List Piece
  | [] => []
  | [_] => [.nothing]
  | a :: b :: rest =>
    let unit := order.number [a, b]
    if isHighSurrogate unit then
      match rest with
      | c :: d :: later =>
        let next := order.number [c, d]
        if isLowSurrogate next then joinSurrogates unit next :: units16 order later
        else .half :: units16 order (c :: d :: later)
      | [] => [.half]
      | [_] => [.nothing]
    else .ofCode unit :: units16 order rest

/-- Units of four bytes. -/
def units32 (order : ByteOrder) : List UInt8 → List Piece
  | [] => []
  | a :: b :: c :: d :: rest => .ofCode (order.number [a, b, c, d]) :: units32 order rest
  | _ => [.nothing]

/-! ### Seven bits

Characters beyond ASCII stand as base 64 digits between a plus sign and a hyphen, or whatever else
is no such digit. -/

/-- The value of a base 64 digit. -/
def base64Digit? (byte : UInt8) : Option Nat :=
  let c := Char.ofNat byte.toNat
  if c.isUpper then some (c.toNat - 65)
  else if c.isLower then some (c.toNat - 71)
  else if c.isDigit then some (c.toNat + 4)
  else if c = '+' then some 62
  else if c = '/' then some 63
  else none

/-- The bits of the digits that no unit was made of yet, and the unit that waits for its half. -/
structure Shift where
  bits : Nat
  count : Nat
  waiting : Option Nat

namespace Shift

def empty : Shift := ⟨0, 0, none⟩

/-- Takes a unit. -/
def takeUnit (shift : Shift) (unit : Nat) : List Piece × Shift :=
  let alone := fun (before : List Piece) =>
    if isHighSurrogate unit then (before, { shift with waiting := some unit })
    else (before ++ [.ofCode unit], { shift with waiting := none })
  match shift.waiting with
  | none => alone []
  | some high =>
    if isLowSurrogate unit then ([joinSurrogates high unit], { shift with waiting := none })
    else alone [.half]

/-- Takes a digit, which may complete a unit. -/
def takeDigit (shift : Shift) (digit : Nat) : List Piece × Shift :=
  let bits := shift.bits * 64 + digit
  let count := shift.count + 6
  if 16 ≤ count then
    let size := 1 <<< (count - 16)
    takeUnit ⟨bits % size, count - 16, shift.waiting⟩ (bits / size)
  else ([], ⟨bits, count, shift.waiting⟩)

/-- The digits may end here if what is left of them is a few zeros. -/
def mayEnd (shift : Shift) : Bool :=
  shift.count < 6 && shift.bits == 0

end Shift

/-- Where a reader of seven bits stands: outside of a run of digits, behind the plus sign that
opens one, or inside. -/
inductive SevenBitState where
  | outside
  | opened
  | inside (shift : Shift)

namespace SevenBitState

/-- Takes a byte outside of digits. -/
def takePlain (byte : UInt8) : List Piece × SevenBitState :=
  if byte = 43 then ([], opened)
  else ([if byte < 128 then .ofCode byte.toNat else .nothing], outside)

/-- Takes a digit of a run. -/
def takeDigit (shift : Shift) (digit : Nat) : List Piece × SevenBitState :=
  let (pieces, shift) := shift.takeDigit digit
  (pieces, inside shift)

/-- Takes a byte. A hyphen behind a run ends it and is no text; right behind a plus sign it makes
that one a text. -/
def take (state : SevenBitState) (byte : UInt8) : List Piece × SevenBitState :=
  match state, base64Digit? byte with
  | outside, _ => takePlain byte
  | opened, some digit => takeDigit .empty digit
  | opened, none => ([if byte = 45 then .char '+' else .nothing], outside)
  | inside shift, some digit => takeDigit shift digit
  | inside shift, none =>
    if !shift.mayEnd then ([.nothing], outside)
    else
      let (pieces, state) := if byte = 45 then ([], outside) else takePlain byte
      ((if shift.waiting.isSome && byte < 128 then [.half] else []) ++ pieces, state)

/-- What is left where the bytes end. -/
def finish : SevenBitState → List Piece
  | inside shift => if shift.mayEnd && shift.waiting.isNone then [] else [.nothing]
  | outside | opened => []

end SevenBitState

/-- Bytes of seven bits. -/
def sevenBit (state : SevenBitState) : List UInt8 → List Piece
  | [] => state.finish
  | byte :: rest =>
    let (pieces, next) := state.take byte
    pieces ++ sevenBit next rest

/-! ### Character sets -/

/-- How bytes write a text. -/
inductive Charset where
  | utf8
  /-- With a mark in front that is not part of the text. -/
  | utf8Marked
  | utf16 (order : ByteOrder)
  | utf32 (order : ByteOrder)
  /-- Units of so many bytes, in the order that a mark in front tells. -/
  | orderMarked (size : Nat)
  | sevenBit
  /-- One byte a character; `upper` has the characters of the bytes from 128 on. -/
  | oneByte (upper : String)
  deriving DecidableEq

namespace Charset

/-- The names of character sets, in lower case with low lines between their parts. -/
def labels : List (List String × Charset) :=
  [(["utf_8", "u8", "utf", "utf8", "cp65001", "utf8_ucs2", "utf8_ucs4"], .utf8),
    (["utf_8_sig"], .utf8Marked),
    (["utf_7", "u7", "utf7", "unicode_1_1_utf_7"], .sevenBit),
    (["utf_16", "u16", "utf16"], .orderMarked 2),
    (["utf_16_le", "utf_16le", "unicodelittleunmarked"], .utf16 .littleEndian),
    (["utf_16_be", "utf_16be", "unicodebigunmarked"], .utf16 .bigEndian),
    (["utf_32", "u32", "utf32"], .orderMarked 4),
    (["utf_32_le", "utf_32le"], .utf32 .littleEndian),
    (["utf_32_be", "utf_32be"], .utf32 .bigEndian),
    (["ascii", "us_ascii", "us", "646", "iso646_us", "iso_646.irv_1991", "iso_ir_6", "cp367",
      "ibm367", "csascii", "ansi_x3.4_1968", "ansi_x3_4_1968", "ansi_x3.4_1986"], .oneByte ""),
    (["latin_1", "latin1", "latin", "l1", "8859", "iso8859", "iso8859_1", "iso_8859_1",
      "iso_8859_1_1987", "iso_ir_100", "cp819", "ibm819", "csisolatin1"],
      .oneByte UpperHalf.latin1),
    (["iso8859_2", "iso_8859_2", "iso_8859_2_1987", "iso_ir_101", "latin2", "l2", "csisolatin2"],
      .oneByte UpperHalf.latin2),
    (["iso8859_15", "iso_8859_15", "latin9", "l9"], .oneByte UpperHalf.latin9),
    (["cp1250", "1250", "windows_1250"], .oneByte UpperHalf.windows1250),
    (["cp1251", "1251", "windows_1251"], .oneByte UpperHalf.windows1251),
    (["cp1252", "1252", "windows_1252"], .oneByte UpperHalf.windows1252),
    (["koi8_r", "cskoi8r"], .oneByte UpperHalf.koi8)]

/-- A label in the form that `labels` has: whatever is no letter, digit or dot only divides. -/
def normalLabel (label : String) : String :=
  let isPart := fun (c : Char) => c.isAlphanum || c == '.'
  let words := (label.toList.map Char.toLower).splitBy fun a b => isPart a == isPart b
  "_".intercalate ((words.filter (·.all isPart)).map String.ofList)

/-- The character set of a label, in which dots may divide as well. -/
def ofLabel? (label : String) : Option Charset :=
  let name := normalLabel label
  let undotted := name.map fun c => if c = '.' then '_' else c
  (labels.find? fun entry => entry.1.contains name || entry.1.contains undotted).map Prod.snd

/-- What the bytes of a text are read as in another character set. The mark that some of them call
for is never among these bytes, and there is no telling then, unless they are fewer than one unit
has. -/
def pieces? (charset : Charset) (text : String) : Option (List Piece) :=
  let bytes := text.toUTF8.toList
  match charset with
  | .utf8 => some (text.toList.map Piece.char)
  | .utf8Marked => some ((withoutMark text.toList).map Piece.char)
  | .utf16 order => some (units16 order bytes)
  | .utf32 order => some (units32 order bytes)
  | .orderMarked size =>
    if bytes.isEmpty then some []
    else if bytes.length < size then some [.nothing]
    else none
  | .sevenBit => some (Text.sevenBit .outside bytes)
  | .oneByte upper => some (bytes.map (ofByte upper.toList))
where
  withoutMark : List Char → List Char
    | '\ufeff' :: rest => rest
    | text => text
  ofByte (upper : List Char) (byte : UInt8) : Piece :=
    if byte < 128 then .ofCode byte.toNat
    else (upper[byte.toNat - 128]?.map Piece.char).getD .nothing

/-- The text that the bytes of another one are in this character set. -/
def reread? (charset : Charset) (text : String) : Option String :=
  (charset.pieces? text).map Piece.text

end Charset

end OperationLibrary.Text
