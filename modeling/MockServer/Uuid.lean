/-
  MockServer.Uuid — universally unique identifiers (RFC 9562).

  An identifier is 128 bits.  It is written in lower case with hyphens
  and read in any case as plain digits, with hyphens, in braces, or as
  a `urn:uuid:` name.
-/
import MockServer.Text.Hex
import MockServer.Text.Split

namespace MockServer

/-- A 128-bit identifier. -/
structure Uuid where
  bits : BitVec 128
  deriving DecidableEq, Repr, Inhabited

namespace Uuid

/-! ## Text -/

/-- A number as `n` hexadecimal digits. -/
def hexDigits : Nat → Nat → List Char
  | 0, _ => []
  | n + 1, x => hexDigits n (x / 16) ++ [Text.Hex.digit (x % 16)]

/-- Groups of 8, 4, 4, 4 and 12 digits with hyphens between them. -/
def hyphenate (ds : List Char) : List Char :=
  ds.take 8 ++ '-' :: (ds.drop 8).take 4 ++ '-' :: (ds.drop 12).take 4 ++
    '-' :: (ds.drop 16).take 4 ++ '-' :: ds.drop 20

def toText (u : Uuid) : String := String.ofList (hyphenate (hexDigits 32 u.bits.toNat))

def toSimple (u : Uuid) : String := String.ofList (hexDigits 32 u.bits.toNat)

instance : ToString Uuid := ⟨toText⟩

/-! ## Reading -/

def ofSimple? (cs : List Char) : Option Uuid :=
  if cs.length = 32 then (Text.Hex.number? cs).map fun n => ⟨BitVec.ofNat 128 n⟩ else none

/-- Groups of 8, 4, 4, 4 and 12 digits with hyphens between them. -/
def ofHyphenated? (cs : List Char) : Option Uuid :=
  let groups := Text.splitOn '-' cs
  if groups.map List.length = [8, 4, 4, 4, 12] then ofSimple? groups.flatten else none

/-- What stands before the identifier in a name of the `urn` scheme. -/
def urnStart : List Char := ['u', 'r', 'n', ':', 'u', 'u', 'i', 'd', ':']

/-- Reads an identifier in any of its forms. -/
def parse? (s : String) : Option Uuid :=
  let cs := s.toList
  if cs.length = 32 then ofSimple? cs
  else if cs.length = 38 then
    if cs.head? = some '{' ∧ cs.getLast? = some '}' then ofHyphenated? (cs.drop 1).dropLast
    else none
  else if cs.length = 45 then (Text.after? urnStart cs).bind ofHyphenated?
  else ofHyphenated? cs

/-! ## Random identifiers -/

/-- Sets version 4 and the variant of the standard in 128 random bits. -/
def ofRandom (random : Nat) : Uuid :=
  let high := random / Nat.pow 2 80 % Nat.pow 2 48
  let middle := random / Nat.pow 2 64 % Nat.pow 2 12
  let low := random % Nat.pow 2 62
  ⟨BitVec.ofNat 128 (high * Nat.pow 2 80 + (0x4000 + middle) * Nat.pow 2 64 + Nat.pow 2 63 + low)⟩

def isRandom (u : Uuid) : Bool := u.bits.toNat / Nat.pow 2 76 % 16 == 4

end Uuid

end MockServer
