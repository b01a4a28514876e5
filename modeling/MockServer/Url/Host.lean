/-
  MockServer.Url.Host — hosts: names and addresses.

  A name whose last part is a number is an address of four bytes, whose
  parts may be decimal, octal or hexadecimal and may be fewer than four.
  An address of eight pieces stands between square brackets; its longest
  run of zeros is written as two colons.
-/
import MockServer.Decimal.Numeral
import MockServer.Url.Domain
import MockServer.Url.Percent

namespace MockServer

/-- Why a text is no absolute URL. -/
inductive UrlError where
  | emptyHost
  | invalidName
  | invalidPort
  | invalidIpv4
  | invalidIpv6
  | invalidCharacter
  | relative
  deriving DecidableEq, Repr

def UrlError.message : UrlError → String
  | .emptyHost => "empty host"
  | .invalidName => "invalid international domain name"
  | .invalidPort => "invalid port number"
  | .invalidIpv4 => "invalid IPv4 address"
  | .invalidIpv6 => "invalid IPv6 address"
  | .invalidCharacter => "invalid domain character"
  | .relative => "relative URL without a base"

namespace Url

/-- The host of a URL. -/
inductive Host where
  | name (text : String)
  | ipv4 (address : Nat)
  | ipv6 (pieces : List Nat)
  deriving DecidableEq, Repr, Inhabited

namespace Host

/-! ## Four bytes -/

/-- What a part of an address means as a number; nothing for a part that is no number, and no value
for one that is too large. -/
def part? (cs : List Char) : Option (Option Nat) :=
  let read (base : Nat) (isDigit : Char → Bool) (ds : List Char) : Option (Option Nat) :=
    if !ds.all isDigit then none
    else
      let n := ds.foldl (fun acc c => acc * base + (Text.Hex.value? c).getD 0) 0
      some (if n < UInt32.size then some n else none)
  let isOctal (c : Char) : Bool := '0' ≤ c && c ≤ '7'
  let isHex (c : Char) : Bool := (Text.Hex.value? c).isSome
  match cs with
  | [] => none
  | '0' :: 'x' :: ds | '0' :: 'X' :: ds => read 16 isHex ds
  | '0' :: d :: ds => read 8 isOctal (d :: ds)
  | ds => read 10 Char.isDigit ds

/-- The parts of a name without an empty one at the end. -/
def parts (cs : List Char) : List (List Char) :=
  let all := Text.splitOn '.' cs
  if all.length > 1 && all.getLast? == some [] then all.dropLast else all

/-- Is the last part of a name a number? -/
def endsInNumber (cs : List Char) : Bool :=
  match (parts cs).getLast? with
  | none => false
  | some last => (!last.isEmpty && last.all Char.isDigit) || (part? last).isSome

/-- The address of a name that ends in a number; its last part fills the bytes that are left. -/
def ipv4? (cs : List Char) : Option Nat := do
  let ps := parts cs
  if ps.length > 4 then none
  else
    let numbers ← ps.mapM fun p => (part? p).bind id
    let last ← numbers.getLast?
    let leading := numbers.dropLast
    -- the last part holds all bytes that are left, the others one each
    if last ≥ Nat.pow 256 (4 - leading.length) || leading.any (· > 255) then none
    else return leading.zipIdx.foldl (fun total (n, i) => total + n * Nat.pow 256 (3 - i)) last

/-! ## Eight pieces -/

/-- The value of a piece of up to four hexadecimal digits. -/
def piece? (cs : List Char) : Option Nat :=
  if cs.isEmpty || cs.length > 4 then none else Text.Hex.number? cs

/-- A byte of an address in decimal digits without leading zeros. -/
def byte? (cs : List Char) : Option Nat :=
  if cs.isEmpty || !cs.all Char.isDigit || (cs.length > 1 && cs.head? == some '0') then none
  else
    let n := Decimal.natOfDigits cs
    if n < 256 then some n else none

/-- The two pieces of an address of four bytes. -/
def embedded? (cs : List Char) : Option (List Nat) :=
  match (Text.splitOn '.' cs).mapM byte? with
  | some [a, b, c, d] => some [a * 256 + b, c * 256 + d]
  | _ => none

/-- The pieces between colons; the last one may be an address of four bytes. -/
def pieces? : List (List Char) → Option (List Nat)
  | [] => some []
  | [last] => if last.contains '.' then embedded? last else (piece? last).map fun n => [n]
  | p :: rest => do
    let n ← piece? p
    let ns ← pieces? rest
    return n :: ns

/-- The pieces of a text that may be empty. -/
def group? (cs : List Char) : Option (List Nat) :=
  if cs.isEmpty then some [] else pieces? (Text.splitOn ':' cs)

/-- The address of a text; two colons stand for the zeros that are left out. -/
def ipv6? (cs : List Char) : Option (List Nat) :=
  match Text.splitAt? [':', ':'] cs with
  | none => do
    let ns ← group? cs
    if ns.length = 8 then some ns else none
  | some (before, after) =>
    if before.contains '.' then none
    else do
      let front ← group? before
      let back ← group? after
      let known := front.length + back.length
      if known < 8 then some (front ++ List.replicate (8 - known) 0 ++ back) else none

/-- The first longest run of zeros from a position on: where it begins, and its length. -/
def longestRun : (position : Nat) → List Nat → Nat × Nat
  | _, [] => (0, 0)
  | i, n :: rest =>
    let here := ((n :: rest).takeWhile (· == 0)).length
    let later := longestRun (i + 1) rest
    if here ≥ later.2 then (i, here) else later

def joined (ns : List Nat) : List Char :=
  List.intercalate [':'] (ns.map fun n => Nat.toDigits 16 n)

/-- The text of an address of eight pieces. -/
def ipv6Text (ns : List Nat) : List Char :=
  let (start, length) := longestRun 0 ns
  if length < 2 then joined ns
  else joined (ns.take start) ++ [':', ':'] ++ joined (ns.drop (start + length))

/-- The text of an address of four bytes. -/
def ipv4Text (n : Nat) : List Char :=
  List.intercalate ['.'] ([24, 16, 8, 0].map fun s => Nat.toDigits 10 (n / Nat.pow 2 s % 256))

def toText : Host → List Char
  | name t => t.toList
  | ipv4 n => ipv4Text n
  | ipv6 ns => '[' :: ipv6Text ns ++ [']']

/-! ## Reading -/

def bracketed (cs : List Char) : Except UrlError Host :=
  match cs.getLast? with
  | some ']' =>
    match ipv6? cs.dropLast with
    | some ns => .ok (.ipv6 ns)
    | none => .error .invalidIpv6
  | _ => .error .invalidIpv6

/-- The host of a URL of one of the common schemes. -/
def parse (cs : List Char) : Except UrlError Host :=
  match cs with
  | '[' :: rest => bracketed rest
  | cs =>
    match (decodeText? cs).bind Domain.toAscii? with
    | none => .error .invalidName
    -- nothing is left of a host of soft hyphens alone
    | some [] => .error .emptyHost
    | some domain =>
      if endsInNumber domain then
        match ipv4? domain with
        | some n => .ok (.ipv4 n)
        | none => .error .invalidIpv4
      else .ok (.name (String.ofList domain))

/-- May the character not stand in the host of another scheme? -/
def isForbidden (c : Char) : Bool := "\x00\t\n\r #/:<>?@[\\]^|".toList.contains c

/-- Is it a control character or no ASCII character? -/
def isControl (c : Char) : Bool := c.toNat < 0x20 || c.toNat ≥ 0x7F

/-- The host of a URL of any other scheme. -/
def parseOpaque (cs : List Char) : Except UrlError Host :=
  match cs with
  | '[' :: rest => bracketed rest
  | cs =>
    if cs.any isForbidden then .error .invalidCharacter
    else .ok (.name (String.ofList (percentEncode isControl cs)))

end Host

end Url

end MockServer
