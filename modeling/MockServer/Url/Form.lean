/-
  MockServer.Url.Form — name–value pairs in a query string
  (`application/x-www-form-urlencoded`).

  Reading is lenient: a piece without `=` is a name, a malformed escape
  stands for itself, and malformed UTF-8 becomes the replacement
  character.  Writing is strict, so every pair list has one text.
-/
import MockServer.Text.Split
import MockServer.Url.Percent

namespace MockServer.Url.Form

/-! ## Reading -/

/-- The text of a name or a value: a plus sign is a blank, then escapes are decoded. -/
def decode (bytes : List UInt8) : String :=
  -- plus signs first: an escaped one stays a plus sign
  let spaced := bytes.map fun b => if b = 0x2B then 0x20 else b
  String.ofList (Text.Utf8.decodeLossy (percentDecode spaced))

/-- One piece as a pair, cut at its first `=`. -/
def pair (piece : List UInt8) : String × String :=
  match Text.splitFirst (0x3D : UInt8) piece with
  | some (name, value) => (decode name, decode value)
  | none => (decode piece, "")

/-- The pairs of a query string in order; empty pieces between `&` are skipped. -/
def parse (query : String) : List (String × String) :=
  let pieces := Text.splitOn (0x26 : UInt8) (Text.Utf8.ofString query)
  (pieces.filter fun piece => !piece.isEmpty).map pair

/-! ## Writing -/

/-- The bytes that stand for themselves: letters, digits and `*-._`. -/
def isPlain (b : UInt8) : Bool :=
  (0x30 ≤ b && b ≤ 0x39) || (0x41 ≤ b && b ≤ 0x5A) || (0x61 ≤ b && b ≤ 0x7A) ||
  b = 0x2A || b = 0x2D || b = 0x2E || b = 0x5F

/-- One byte of a name or a value. -/
def encodeByte (b : UInt8) : List Char :=
  if isPlain b then [Char.ofNat b.toNat]
  else if b = 0x20 then ['+']
  else percentByte b

def encode (s : String) : List Char := (Text.Utf8.ofString s).flatMap encodeByte

def encodePair (p : String × String) : List Char := encode p.1 ++ '=' :: encode p.2

def serialize : List (String × String) → List Char
  | [] => []
  | [p] => encodePair p
  | p :: rest => encodePair p ++ '&' :: serialize rest

end MockServer.Url.Form
