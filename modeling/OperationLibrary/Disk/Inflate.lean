import OperationLibrary.Disk.Bytes

/-!
Compressed bytes. They come in blocks: bytes that are kept as they are, or symbols that are written
in prefix codes. A symbol stands for a byte or for a stretch that came out before, by its length and
distance; the codes are fixed or stand in front of the symbols. Bits are taken from the bytes lowest
first.
-/

namespace OperationLibrary.Inflate

/-! ### Bits -/

/-- Why compressed bytes cannot be read on. -/
inductive Fault where
  | damaged
  | cutShort
  deriving DecidableEq

/-- The bit to read next, and what came out so far. -/
structure State where
  place : Nat
  output : ByteArray

/-- Reads compressed bytes. What came out before a fault stays. -/
abbrev Reader (α : Type) := ReaderT ByteArray (ExceptT Fault (StateM State)) α

def bit : Reader Nat := do
  let bytes ← read
  let place := (← get).place
  match bytes.data[place / 8]? with
  | none => throw .cutShort
  | some byte =>
    modify fun state => { state with place := place + 1 }
    return (byte.toNat >>> (place % 8)) % 2

/-- The number in so many bits, the lowest bit first. -/
def bits : Nat → Reader Nat
  | 0 => return 0
  | count + 1 => do
    let low ← bit
    return low + 2 * (← bits count)

/-! ### Prefix codes -/

/-- A code in which the words of one length follow on one another, in the order of their symbols,
and longer words on shorter ones. -/
structure Code where
  /-- How many words there are of each length, from one on. -/
  counts : List Nat
  /-- The symbols in the order of their words. -/
  symbols : Array Nat

namespace Code

/-- The longest a word may be. -/
def maxLength : Nat := 15

/-- The code whose words have these lengths, one for each symbol. A symbol without a word has
zero. -/
def ofLengths (lengths : List Nat) : Code :=
  let ofLength := fun n =>
    (lengths.zipIdx.filter fun entry => entry.1 == n + 1).map Prod.snd
  let words := (List.range maxLength).map ofLength
  ⟨words.map List.length, words.flatten.toArray⟩

/-- How many more words of the greatest length there could be; nothing if there are too many. -/
def room? (code : Code) : Option Nat :=
  code.counts.foldlM (fun room count =>
    if count ≤ 2 * room then some (2 * room - count) else none) 1

def isComplete (code : Code) : Bool :=
  code.room? == some 0

/-- Whether symbols may be written in the code: it is complete, or has no words but of one bit. -/
def isUsable (code : Code) : Bool :=
  code.isComplete || code.room?.isSome && (code.counts.drop 1).all (· == 0)

/-- Looks for a word among those of the lengths that are left. The number of the first one of the
next length and the index of its symbol are known. -/
def search (symbols : Array Nat) : List Nat → Nat → Nat → Nat → Reader Nat
  | [], _, _, _ => throw .damaged
  | count :: longer, word, first, index => do
    let word := 2 * word + (← bit)
    if word < first + count then
      match symbols[index + (word - first)]? with
      | some symbol => return symbol
      | none => throw .damaged
    else search symbols longer word (2 * (first + count)) (index + count)

/-- Reads a word and gives its symbol. -/
def next (code : Code) : Reader Nat :=
  search code.symbols code.counts 0 0 0

end Code

/-! ### Symbols -/

def endOfBlock : Nat := 256

/-- Numbers beyond the first few share their symbols, `2 ^ digits` of which have the same number of
further bits behind them. -/
def spread (digits symbol : Nat) : Reader Nat := do
  let group := 1 <<< digits
  if symbol < 2 * group then return symbol
  else
    let further := symbol / group - 1
    return ((group + symbol % group) <<< further) + (← bits further)

/-- The length of a stretch. The last symbol stands for the greatest one. -/
def stretchLength (symbol : Nat) : Reader Nat := do
  if symbol < endOfBlock + 29 then return 3 + (← spread 2 (symbol - (endOfBlock + 1)))
  else if symbol = endOfBlock + 29 then return 258
  else throw .damaged

/-- How far back a stretch begins. -/
def stretchDistance (symbol : Nat) : Reader Nat := do
  if symbol < 30 then return 1 + (← spread 1 symbol) else throw .damaged

/-- Puts a stretch out once more. It may reach into what it puts out itself. -/
def repeatStretch (distance : Nat) : Nat → ByteArray → ByteArray
  | 0, output => output
  | length + 1, output =>
    repeatStretch distance length (output.push (output.data.getD (output.size - distance) 0))

/-- Reads symbols up to the end of a block. Each one takes up a bit at least, so as many rounds as
there are bits are enough. -/
def symbols (literals distances : Code) : Nat → Reader Unit
  | 0 => throw .cutShort
  | rounds + 1 => do
    let symbol ← literals.next
    if symbol < endOfBlock then
      modify fun state => { state with output := state.output.push symbol.toUInt8 }
      symbols literals distances rounds
    else if symbol = endOfBlock then return
    else
      let length ← stretchLength symbol
      let distance ← stretchDistance (← distances.next)
      if (← get).output.size < distance then throw .damaged
      modify fun state => { state with output := repeatStretch distance length state.output }
      symbols literals distances rounds

/-! ### Blocks -/

/-- Bytes as they are, from the next full byte on. Their number is given twice. -/
def plainBlock : Reader Unit := do
  modify fun state => { state with place := (state.place + 7) / 8 * 8 }
  let length ← bits 16
  if length + (← bits 16) ≠ 0xffff then throw .damaged
  let bytes ← read
  let start := (← get).place / 8
  let part := bytes.extract start (start + length)
  modify fun state => ⟨state.place + 8 * part.size, state.output ++ part⟩
  if part.size < length then throw .cutShort

def fixedLiterals : Code :=
  .ofLengths (List.replicate 144 8 ++ List.replicate 112 9 ++ List.replicate 24 7 ++
    List.replicate 8 8)

def fixedDistances : Code :=
  .ofLengths (List.replicate 32 5)

/-- The order in which the lengths of the words for lengths are given. -/
def lengthOrder : List Nat :=
  [16, 17, 18, 0, 8, 7, 9, 6, 10, 5, 11, 4, 12, 3, 13, 2, 14, 1, 15]

/-- The lengths that a symbol stands for: one, or a run of the last one or of zeros. -/
def lengthRun (last : Option Nat) (symbol : Nat) : Reader (List Nat) := do
  if symbol < 16 then return [symbol]
  else if symbol = 16 then
    match last with
    | none => throw .damaged
    | some length => return List.replicate (3 + (← bits 2)) length
  else if symbol = 17 then return List.replicate (3 + (← bits 3)) 0
  else return List.replicate (11 + (← bits 7)) 0

/-- Reads `count` lengths of words. Each symbol gives one at least. -/
def lengths (code : Code) (count : Nat) : Nat → List Nat → Reader (List Nat)
  | 0, found => return found
  | rounds + 1, found => do
    if count ≤ found.length then return found
    let run ← lengthRun found.getLast? (← code.next)
    if count < found.length + run.length then throw .damaged
    lengths code count rounds (found ++ run)

/-- The codes that stand in front of symbols. -/
def writtenCodes : Reader (Code × Code) := do
  let literalCount := 257 + (← bits 5)
  let distanceCount := 1 + (← bits 5)
  let givenCount := 4 + (← bits 4)
  if 286 < literalCount ∨ 30 < distanceCount then throw .damaged
  let given ← (lengthOrder.take givenCount).mapM fun symbol => return (symbol, ← bits 3)
  let code := Code.ofLengths ((List.range 19).map fun symbol => (given.lookup symbol).getD 0)
  if !code.isComplete then throw .damaged
  let count := literalCount + distanceCount
  let all ← lengths code count count []
  let literals := Code.ofLengths (all.take literalCount)
  let distances := Code.ofLengths (all.drop literalCount)
  if all[endOfBlock]? = some 0 ∨ !literals.isUsable ∨ !distances.isUsable then throw .damaged
  return (literals, distances)

/-- Reads blocks up to the last one. Each one takes up three bits at least. -/
def blocks (bitCount : Nat) : Nat → Reader Unit
  | 0 => throw .cutShort
  | rounds + 1 => do
    let isLast := (← bit) = 1
    match ← bits 2 with
    | 0 => plainBlock
    | 1 => symbols fixedLiterals fixedDistances bitCount
    | 2 => do
      let (literals, distances) ← writtenCodes
      symbols literals distances bitCount
    | _ => throw .damaged
    if isLast then return else blocks bitCount rounds

/-! ### All of it -/

/-- What compressed bytes were read as: what came out, the place behind them, and why the reading
ended early, if it did. -/
structure Inflated where
  output : ByteArray
  stop : Nat
  fault : Option Fault

/-- Reads the compressed bytes from a place on. -/
def inflate (bytes : ByteArray) (start : Nat) : Inflated :=
  let bitCount := 8 * bytes.size + 1
  let (result, state) := ((blocks bitCount bitCount).run bytes).run ⟨8 * start, .empty⟩
  ⟨state.output, (state.place + 7) / 8,
    match result with
    | .ok () => none
    | .error fault => some fault⟩

end OperationLibrary.Inflate
