/-
  MockServer.Url.Percent — bytes written as a percent sign and two
  hexadecimal digits.
-/
import MockServer.Text.Hex
import MockServer.Text.Utf8

namespace MockServer.Url

/-- One byte as a percent sign and two upper-case digits. -/
def percentByte (b : UInt8) : List Char :=
  ['%', Text.Hex.upperDigit (b.toNat / 16), Text.Hex.upperDigit (b.toNat % 16)]

/-- Encodes every character of a set, byte by byte, and keeps the others. -/
def percentEncode (set : Char → Bool) (cs : List Char) : List Char :=
  cs.flatMap fun c => if set c then (String.utf8EncodeChar c).flatMap percentByte else [c]

/-- The value of a byte that is a hexadecimal digit. -/
def hexByte? (b : UInt8) : Option Nat := Text.Hex.value? (Char.ofNat b.toNat)

/-- Decodes every percent sign that two hexadecimal digits follow; all other bytes stay. -/
def percentDecode : List UInt8 → List UInt8
  | [] => []
  | [b] => [b]
  | [b, c] => [b, c]
  | b :: h :: l :: rest =>
    if b = 0x25 then
      match hexByte? h, hexByte? l with
      | some high, some low => UInt8.ofNat (high * 16 + low) :: percentDecode rest
      | _, _ => b :: percentDecode (h :: l :: rest)
    else b :: percentDecode (h :: l :: rest)

/-- The text behind a text with percent signs, if the decoded bytes are one. -/
def decodeText? (cs : List Char) : Option (List Char) :=
  Text.Utf8.decode? (percentDecode (Text.Utf8.encode cs))

end MockServer.Url
