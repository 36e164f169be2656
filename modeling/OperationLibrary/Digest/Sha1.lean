import OperationLibrary.Digest.Padding

/-!
The 160 bit digest of the first generation of the secure hash standard.
-/

namespace OperationLibrary.Digest.Sha1

def initialState : List UInt32 :=
  [0x67452301, 0xefcdab89, 0x98badcfe, 0x10325476, 0xc3d2e1f0]

/-- The words of the message schedule, newest first; sixteen are given. -/
def extend : Nat → List UInt32 → List UInt32
  | 0, ws => ws
  | n + 1, ws =>
    let back := fun (i : Nat) => (ws[i - 1]?).getD 0
    extend n (rotateLeft (back 3 ^^^ back 8 ^^^ back 14 ^^^ back 16) 1 :: ws)

/-- The combination of three words and the constant of a round. -/
def roundFunction (round : Nat) (b c d : UInt32) : UInt32 :=
  if round < 20 then ((b &&& c) ||| ((~~~b) &&& d)) + 0x5a827999
  else if round < 40 then (b ^^^ c ^^^ d) + 0x6ed9eba1
  else if round < 60 then ((b &&& c) ||| (b &&& d) ||| (c &&& d)) + 0x8f1bbcdc
  else (b ^^^ c ^^^ d) + 0xca62c1d6

def mix (state : List UInt32) (input : UInt32 × Nat) : List UInt32 :=
  match state with
  | [a, b, c, d, e] =>
    [rotateLeft a 5 + roundFunction input.2 b c d + e + input.1, a, rotateLeft b 30, c, d]
  | other => other

def absorb (state : List UInt32) (block : List UInt32) : List UInt32 :=
  let schedule := (extend 64 block.reverse).reverse
  List.zipWith (· + ·) state (schedule.zipIdx.foldl mix state)

/-- The digest of the text in UTF-8, in hexadecimal. -/
def hexDigest (text : String) : String :=
  hexText ((messageBlocks text).foldl absorb initialState)

end OperationLibrary.Digest.Sha1
