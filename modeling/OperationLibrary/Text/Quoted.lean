import OperationLibrary.Text.Hexadecimal
import OperationLibrary.Text.HiddenCharacter

/-!
Texts in quotes, as messages show them.
-/

namespace OperationLibrary.Text

def quotedChar (mark c : Char) : List Char :=
  if c = mark ∨ c = '\\' then ['\\', c]
  else if c = '\n' then ['\\', 'n']
  else if c = '\r' then ['\\', 'r']
  else if c = '\t' then ['\\', 't']
  else if !isHidden c then [c]
  else if c.toNat < 0x100 then '\\' :: 'x' :: hexDigits 2 c.toNat
  else if c.toNat < 0x10000 then '\\' :: 'u' :: hexDigits 4 c.toNat
  else '\\' :: 'U' :: hexDigits 8 c.toNat

/-- Characters between single quotes, or double ones where they hold only single ones themselves. -/
def inQuotes (quotedChar : Char → Char → List Char) (chars : List Char) : List Char :=
  let mark := if chars.contains '\'' ∧ ¬ chars.contains '"' then '"' else '\''
  mark :: chars.flatMap (quotedChar mark) ++ [mark]

def quoted (text : String) : String :=
  String.ofList (inQuotes quotedChar text.toList)

/-- Bytes in quotes, those of ASCII as characters. -/
def quotedBytes (bytes : List UInt8) : String :=
  let quotedByte := fun mark (c : Char) =>
    if c.toNat < 0x80 then quotedChar mark c else '\\' :: 'x' :: hexDigits 2 c.toNat
  String.ofList ('b' :: inQuotes quotedByte (bytes.map fun byte => Char.ofNat byte.toNat))

end OperationLibrary.Text
