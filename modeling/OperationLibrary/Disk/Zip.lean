import OperationLibrary.Disk.Inflate
import OperationLibrary.Disk.Unpacking
import OperationLibrary.Text.Charset.UpperHalf

/-!
Archives in which files are kept one behind the other, as they are or compressed, with a directory
at the end. Other methods of compression, encrypted entries and archives of more than four gigabytes
cannot be read.
-/

namespace OperationLibrary.Zip

/-! ### Directories -/

/-- An entry of the directory at the end. -/
structure Entry where
  fullName : String
  flags : Nat
  method : Nat
  checksum : Nat
  compressedSize : Nat
  size : Nat
  offset : Nat
  /-- Where the next entry starts, or the directory. -/
  limit : Nat

def endMark : Nat := 0x06054b50
def entryMark : Nat := 0x02014b50
def fileMark : Nat := 0x04034b50

/-- The highest version of the format, in tenths, that entries may call for. -/
def highestVersion : Nat := 63

/-- The last place where the end record may stand: its length is fixed but for a remark. -/
def endRecord? (bytes : ByteArray) : Option Nat :=
  (List.range (bytes.size - 21)).reverse.find? fun start =>
    Bytes.number? bytes start 4 == some endMark

/-- A name, in the character set that the flags beside it tell. -/
def nameOf? (flags : Nat) (bytes : ByteArray) : Option String :=
  if flags.testBit 11 then String.fromUTF8? bytes
  else
    let upper := Text.UpperHalf.codePage437.toList
    let ofByte := fun (byte : UInt8) =>
      if byte < 128 then Char.ofNat byte.toNat else upper.getD (byte.toNat - 128) ' '
    some (String.ofList (bytes.toList.map ofByte))

/-- The entries in the directory between two places. Every entry takes up 46 bytes and its texts,
so as many rounds as there are bytes are enough. -/
def entries? (bytes : ByteArray) (stop : Nat) : Nat → Nat → Option (List Entry)
  | 0, _ => some []
  | rounds + 1, start => do
    if stop ≤ start then return []
    let mark ← Bytes.number? bytes start 4
    let version ← Bytes.number? bytes (start + 6) 1
    let flags ← Bytes.number? bytes (start + 8) 2
    let method ← Bytes.number? bytes (start + 10) 2
    let check ← Bytes.number? bytes (start + 16) 4
    let compressedSize ← Bytes.number? bytes (start + 20) 4
    let size ← Bytes.number? bytes (start + 24) 4
    let nameLength ← Bytes.number? bytes (start + 28) 2
    let extraLength ← Bytes.number? bytes (start + 30) 2
    let remarkLength ← Bytes.number? bytes (start + 32) 2
    let offset ← Bytes.number? bytes (start + 42) 4
    let name ← nameOf? flags (bytes.extract (start + 46) (min stop (start + 46 + nameLength)))
    let rest ← entries? bytes stop rounds (start + 46 + nameLength + extraLength + remarkLength)
    if mark = entryMark ∧ version ≤ highestVersion then
      return ⟨name, flags, method, check, compressedSize, size, offset, stop⟩ :: rest
    else none

/-- The entries of an archive. What stands in front of it shifts all places. -/
def directory? (bytes : ByteArray) : Option (List Entry) := do
  let last ← endRecord? bytes
  let size ← Bytes.number? bytes (last + 12) 4
  let offset ← Bytes.number? bytes (last + 16) 4
  if last < size + offset then none
  else
    let shift := last - size - offset
    let entries ← entries? bytes last bytes.size (offset + shift)
    let starts := entries.map (·.offset + shift)
    return entries.map fun entry =>
      let start := entry.offset + shift
      { entry with
        offset := start
        limit := (starts.filter (start < ·)).foldl min (offset + shift) }

/-! ### Entries -/

namespace Entry

/-- The name of an entry, up to a zero in it. -/
def name (entry : Entry) : String :=
  String.ofList (entry.fullName.toList.takeWhile (· ≠ '\x00'))

def isDirectory (entry : Entry) : Bool :=
  entry.name.endsWith "/"

/-- The place that an entry is unpacked to. It cannot lead out of the target. -/
def place (entry : Entry) : List String :=
  (Path.segments entry.name).filter fun s => !Path.isIdle s && s ≠ ".."

/-- Encrypted entries are not read, nor those that are changes to another archive. -/
def isReadable (entry : Entry) : Bool :=
  !(entry.flags.testBit 0 || entry.flags.testBit 5 || entry.flags.testBit 6)

/-- The bytes that are kept of an entry. In front of them its name is told again. -/
def kept? (bytes : ByteArray) (entry : Entry) : Option ByteArray := do
  let start := entry.offset
  let mark ← Bytes.number? bytes start 4
  let flags ← Bytes.number? bytes (start + 6) 2
  let nameLength ← Bytes.number? bytes (start + 26) 2
  let extraLength ← Bytes.number? bytes (start + 28) 2
  let name ← (Bytes.slice? bytes (start + 30) nameLength).bind (nameOf? flags)
  let first := start + 30 + nameLength + extraLength
  if mark = fileMark ∧ name = entry.fullName ∧ entry.isReadable ∧
      first + entry.compressedSize ≤ entry.limit then
    Bytes.slice? bytes first entry.compressedSize
  else none

/-- What kept bytes stand for. -/
def decompressed? (entry : Entry) (kept : ByteArray) : Option ByteArray :=
  match entry.method with
  | 0 => some kept
  | 8 =>
    let inflated := Inflate.inflate kept 0
    if inflated.fault = some .damaged then none else some inflated.output
  | _ => none

/-- The contents of an entry, where they are undamaged. -/
def contents? (entry : Entry) (kept : ByteArray) : Option ByteArray := do
  let contents := (← entry.decompressed? kept).extract 0 entry.size
  if Bytes.checksum contents = entry.checksum then some contents else none

/-- Unpacks an entry below the directory `root`. Of a damaged file nothing comes out, but it is
there. -/
def unpack (root : String) (bytes : ByteArray) (entry : Entry) : Unpacking Unit := do
  if entry.isDirectory then Unpacking.makeDirectory root entry.place
  else
    let kept ← Unpacking.orBroken (entry.kept? bytes)
    Unpacking.putFile root entry.place .empty
    let contents ← Unpacking.orBroken (entry.contents? kept)
    Unpacking.putFile root entry.place contents

end Entry

/-- Unpacks an archive below the directory `root`. Where entries have one name, the last one stands
for all of them. -/
def unpack (root : String) (bytes : ByteArray) : Unpacked :=
  Unpacking.result do
    let entries ← Unpacking.orBroken (directory? bytes)
    entries.forM fun entry =>
      let latest := entries.reverse.find? (·.name == entry.name)
      (latest.getD entry).unpack root bytes

end OperationLibrary.Zip
