/-!
Bytes as archives use them: numbers, slices, texts up to a zero byte, and the checksum that tells
whether bytes are undamaged.
-/

namespace OperationLibrary.Bytes

/-! ### Numbers and slices -/

/-- The number in the `width` bytes from a place on, the lowest byte first. -/
def number? (bytes : ByteArray) (start : Nat) : Nat → Option Nat
  | 0 => some 0
  | width + 1 => do
    let byte ← bytes.data[start]?
    let rest ← number? bytes (start + 1) width
    return byte.toNat + 256 * rest

/-- The bytes from a place on, all of them or none. -/
def slice? (bytes : ByteArray) (start length : Nat) : Option ByteArray :=
  if start + length ≤ bytes.size then some (bytes.extract start (start + length)) else none

/-! ### Texts -/

/-- The bytes in front of the first zero. -/
def upToZero (bytes : ByteArray) : ByteArray :=
  bytes.extract 0 ((bytes.findIdx? (· == 0)).getD bytes.size)

/-- The text that bytes write. Where they write none, each one counts as a character. -/
def text (bytes : ByteArray) : String :=
  (String.fromUTF8? bytes).getD
    (String.ofList (bytes.toList.map fun byte => Char.ofNat byte.toNat))

/-! ### Checksums -/

/-- Takes one bit out of the remainder of a division by the polynomial of the checksum. -/
def divideBit (remainder : UInt32) : UInt32 :=
  if remainder &&& 1 = 1 then (remainder >>> 1) ^^^ 0xedb88320 else remainder >>> 1

def addByte (remainder : UInt32) (byte : UInt8) : UInt32 :=
  (List.range 8).foldl (fun r _ => divideBit r) (remainder ^^^ byte.toUInt32)

/-- The cyclic redundancy check of 32 bits. -/
def checksum (bytes : ByteArray) : Nat :=
  (bytes.data.foldl addByte 0xffffffff ^^^ 0xffffffff).toNat

end OperationLibrary.Bytes
