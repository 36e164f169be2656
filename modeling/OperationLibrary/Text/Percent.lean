import OperationLibrary.Text.Hexadecimal

/-!
Percent encoding: a text as a part of an address, in which every byte that could mean something
there stands as its two hexadecimal digits. What is kept are letters, digits, the slash and the
four marks without a meaning.
-/

namespace OperationLibrary.Text.Percent

def isKept (byte : UInt8) : Bool :=
  let c := Char.ofNat byte.toNat
  byte < 0x80 && (c.isAlphanum || c == '_' || c == '.' || c == '-' || c == '~' || c == '/')

/-- A hexadecimal digit in upper case. -/
def digit (n : Nat) : Char :=
  (Nat.digitChar n).toUpper

def encodeByte (byte : UInt8) : List Char :=
  if isKept byte then [Char.ofNat byte.toNat]
  else ['%', digit (byte.toNat / 16), digit (byte.toNat % 16)]

/-- The bytes of a character in UTF-8, encoded one by one. -/
def encodeChar (c : Char) : List Char :=
  (String.utf8EncodeChar c).flatMap encodeByte

def encode (text : String) : String :=
  String.ofList (text.toList.flatMap encodeChar)

/-- The bytes that a text encodes; what is not encoded stands for itself. -/
def decode : List Char → List UInt8
  | [] => []
  | [c] => String.utf8EncodeChar c
  | [c, d] => String.utf8EncodeChar c ++ String.utf8EncodeChar d
  | c :: high :: low :: rest =>
    match if c = '%' then hexNumber? [high, low] else none with
    | some byte => UInt8.ofNat byte :: decode rest
    | none => String.utf8EncodeChar c ++ decode (high :: low :: rest)

end OperationLibrary.Text.Percent
