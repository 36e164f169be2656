import OperationLibrary.Text.Charset

/-!
The character sets of JSON. A text starts with two characters of ASCII, so that the zeros among its
first bytes tell how large its units are and in what order their bytes stand. Without zeros it is
UTF-8.
-/

namespace OperationLibrary.Json

open Text

/-- The character set of a text that starts with these bytes. -/
def charsetOf : List UInt8 → Charset
  | 0xef :: 0xbb :: 0xbf :: _ => .utf8Marked
  | [0, _] => .utf16 .bigEndian
  | [_, 0] => .utf16 .littleEndian
  | 0 :: 0 :: _ :: _ :: _ => .utf32 .bigEndian
  | 0 :: _ :: _ :: _ :: _ => .utf16 .bigEndian
  | _ :: 0 :: 0 :: 0 :: _ => .utf32 .littleEndian
  | _ :: 0 :: _ :: _ :: _ => .utf16 .littleEndian
  | _ => .utf8

/-- The text that the bytes of a body write, if all of them stand for something. -/
def decode? (body : String) : Option String :=
  match (charsetOf body.toUTF8.toList).pieces? body with
  | some pieces => if pieces.contains .nothing then none else some (Piece.text pieces)
  | none => none

end OperationLibrary.Json
