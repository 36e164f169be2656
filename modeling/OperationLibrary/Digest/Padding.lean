/-!
What the two digests share: a message is padded to whole blocks of sixteen words of 32 bits, each
block mixes into a state, and the state is written in hexadecimal.
-/

namespace OperationLibrary.Digest

/-- A one bit, zeros, and the length in bits as eight bytes. -/
def padding (length : Nat) : List UInt8 :=
  let zeros := (119 - length % 64) % 64
  (0x80 : UInt8) :: List.replicate zeros 0 ++
    [56, 48, 40, 32, 24, 16, 8, 0].map fun shift => UInt8.ofNat ((8 * length) >>> shift)

/-- Four bytes as one word, the highest first. -/
def word (a b c d : UInt8) : UInt32 :=
  a.toUInt32 <<< 24 ||| b.toUInt32 <<< 16 ||| c.toUInt32 <<< 8 ||| d.toUInt32

def words : List UInt8 → List UInt32
  | a :: b :: c :: d :: rest => word a b c d :: words rest
  | _ => []

/-- Cuts words into blocks of sixteen. -/
def blocks (ws : List UInt32) : List (List UInt32) :=
  match ws with
  | [] => []
  | w :: rest => (w :: rest.take 15) :: blocks (rest.drop 15)
termination_by ws.length
decreasing_by simp only [List.length_drop, List.length_cons]; omega

/-- The padded blocks of the text in UTF-8. -/
def messageBlocks (text : String) : List (List UInt32) :=
  let bytes := text.toUTF8.toList
  blocks (words (bytes ++ padding bytes.length))

def rotateLeft (x : UInt32) (n : UInt32) : UInt32 :=
  x <<< n ||| x >>> (32 - n)

def rotateRight (x : UInt32) (n : UInt32) : UInt32 :=
  x >>> n ||| x <<< (32 - n)

/-- Words in hexadecimal, eight digits each. -/
def hexText (state : List UInt32) : String :=
  String.ofList (state.flatMap fun w =>
    [28, 24, 20, 16, 12, 8, 4, 0].map fun shift => Nat.digitChar (w.toNat >>> shift % 16))

end OperationLibrary.Digest
