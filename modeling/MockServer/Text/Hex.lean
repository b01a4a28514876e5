/-
  MockServer.Text.Hex — bytes as pairs of hexadecimal digits.

  Digests are shown in lower case; a reader accepts digits of
  either case and nothing else.
-/

namespace MockServer.Text.Hex

/-- The digit of a value below sixteen, in lower case. -/
def digit (n : Nat) : Char :=
  if n < 10 then Char.ofNat (n + 48) else Char.ofNat (n + 87)

/-- The digit of a value below sixteen, in upper case. -/
def upperDigit (n : Nat) : Char :=
  if n < 10 then Char.ofNat (n + 48) else Char.ofNat (n + 55)

/-- The value of one hexadecimal digit of either case. -/
def value? (c : Char) : Option Nat :=
  if '0' ≤ c ∧ c ≤ '9' then some (c.toNat - 48)
  else if 'a' ≤ c ∧ c ≤ 'f' then some (c.toNat - 87)
  else if 'A' ≤ c ∧ c ≤ 'F' then some (c.toNat - 55)
  else none

def encodeByte (b : UInt8) : List Char :=
  [digit (b.toNat / 16), digit (b.toNat % 16)]

/-- A byte sequence as lower-case digits, two for each byte. -/
def encode (bytes : List UInt8) : String :=
  String.ofList (bytes.flatMap encodeByte)

/-- Reads pairs of digits; an odd count or a foreign character is refused. -/
def decode? : List Char → Option (List UInt8)
  | [] => some []
  | [_] => none
  | a :: b :: rest => do
    let high ← value? a
    let low ← value? b
    let tail ← decode? rest
    return UInt8.ofNat (high * 16 + low) :: tail

/-- The number written by hexadecimal digits, most significant first. -/
def number? (digits : List Char) : Option Nat :=
  digits.foldlM (fun acc c => (value? c).map (acc * 16 + ·)) 0

end MockServer.Text.Hex
