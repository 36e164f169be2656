import OperationLibrary.Disk.Inflate
import OperationLibrary.Disk.Unpacking
import OperationLibrary.Text.Hexadecimal
import OperationLibrary.Text.Quoted

/-!
Compressed files: members one behind the other, each with compressed bytes, their checksum and how
many came out. There may be zeros between them.
-/

namespace OperationLibrary.Gzip

/-- The bytes that can be read from a compressed file, and the fault behind them. -/
structure Stream where
  data : ByteArray
  fault : Option ArchiveFault

def mark : Nat := 0x8b1f

/-- The one method of compression. -/
def deflated : Nat := 8

/-- The place behind the next zero. -/
def behindZero? (bytes : ByteArray) (start : Nat) : Option Nat :=
  (bytes.findIdx? (· == 0) start).map (· + 1)

/-- The place of the compressed bytes of a member. Its flags tell what else stands in front. -/
def compressedStart? (bytes : ByteArray) (start : Nat) : Option Nat := do
  let flags ← Bytes.number? bytes (start + 3) 1
  let place := start + 10
  let place ←
    if flags.testBit 2 then (place + 2 + ·) <$> Bytes.number? bytes place 2 else some place
  let place ← if flags.testBit 3 then behindZero? bytes place else some place
  let place ← if flags.testBit 4 then behindZero? bytes place else some place
  let place := if flags.testBit 1 then place + 2 else place
  if place ≤ bytes.size then some place else none

/-- The place of the compressed bytes of the member at a place, unless the file ends there. -/
def memberStart (bytes : ByteArray) (start : Nat) : Except ArchiveFault (Option Nat) := do
  let magic := bytes.extract start (start + 2)
  if magic.isEmpty then return none
  if Bytes.number? magic 0 2 ≠ some mark then
    throw (.refused ("Not a gzipped file (" ++ Text.quotedBytes magic.toList ++ ")"))
  let some head := Bytes.slice? bytes (start + 2) 8 | throw .broken
  if Bytes.number? head 0 1 ≠ some deflated then throw (.refused "Unknown compression method")
  let some place := compressedStart? bytes start | throw .broken
  return some place

/-- A number as messages show it. -/
def shownChecksum (n : Nat) : String :=
  "0x" ++ String.ofList (Nat.toDigits 16 n)

/-- Checks what came out of a member by the checksum and the length behind it. -/
def checkOutput (bytes output : ByteArray) (stop : Nat) : Except ArchiveFault Unit := do
  let some checksum := Bytes.number? bytes stop 4 | throw .broken
  let some length := Bytes.number? bytes (stop + 4) 4 | throw .broken
  if Bytes.checksum output ≠ checksum then
    throw (.refused ("CRC check failed " ++ shownChecksum checksum ++ " != " ++
      shownChecksum (Bytes.checksum output)))
  if output.size % 0x100000000 ≠ length then throw (.refused "Incorrect length of data produced")

/-- Reads the members from a place on, behind what was read. None of them is empty, so as many
rounds as there are bytes are enough. -/
def members (bytes : ByteArray) : Nat → Nat → ByteArray → Stream
  | 0, _, data => ⟨data, none⟩
  | rounds + 1, start, data =>
    match memberStart bytes start with
    | .error fault => ⟨data, some fault⟩
    | .ok none => ⟨data, none⟩
    | .ok (some place) =>
      let inflated := Inflate.inflate bytes place
      match inflated.fault with
      | some .damaged => ⟨data, some .broken⟩
      | some .cutShort => ⟨data ++ inflated.output, some .broken⟩
      | none =>
        let data := data ++ inflated.output
        match checkOutput bytes inflated.output inflated.stop with
        | .error fault => ⟨data, some fault⟩
        | .ok () =>
          let next := bytes.findIdx? (· ≠ 0) (inflated.stop + 8)
          members bytes rounds (next.getD bytes.size) data

def read (bytes : ByteArray) : Stream :=
  members bytes bytes.size 0 .empty

end OperationLibrary.Gzip
