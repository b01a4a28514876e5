/-
  MockServer.Url.Domain — host names in the letters that the domain
  system knows.

  Letters are folded to lower case, the full-width forms to the common
  ones; a label that still has other characters is written with the
  prefix `xn--` and the differences between its characters.

  Only the letters of the common European alphabets are folded.  The
  rest of the rules for international names is left out: ligatures and
  other forms are not mapped, a label is not checked once it is written
  (nor one that comes with the prefix), and neither is the direction of
  its characters.
-/
import MockServer.Text.Split

namespace MockServer.Url.Domain

/-! ## Folding -/

/-- The lower-case form of a letter of the common European alphabets. -/
def lowerLetter (n : Nat) : Nat :=
  if 0x41 ≤ n && n ≤ 0x5A then n + 32
  else if 0xC0 ≤ n && n ≤ 0xDE && n != 0xD7 then n + 32
  else if 0x100 ≤ n && n ≤ 0x137 && n % 2 == 0 && n != 0x130 then n + 1
  else if 0x139 ≤ n && n ≤ 0x148 && n % 2 == 1 then n + 1
  else if 0x14A ≤ n && n ≤ 0x177 && n % 2 == 0 then n + 1
  else if 0x391 ≤ n && n ≤ 0x3A9 && n != 0x3A2 then n + 32
  else if 0x410 ≤ n && n ≤ 0x42F then n + 32
  else if 0x400 ≤ n && n ≤ 0x40F then n + 80
  else n

/-- What a character of a host name stands for; a soft hyphen stands for nothing. -/
def foldChar (c : Char) : List Char :=
  let n := c.toNat
  if n == 0xAD then []
  else if n == 0x3002 || n == 0xFF61 then ['.']
  else if n == 0xA0 || n == 0x3000 then [' ']
  -- the capital with a dot keeps its dot as a mark of its own
  else if n == 0x130 then ['i', '\u0307']
  else if 0xFF01 ≤ n && n ≤ 0xFF5E then [Char.ofNat (lowerLetter (n - 0xFEE0))]
  else [Char.ofNat (lowerLetter n)]

/-! ## Labels with other characters -/

/-- The character of a digit: `a` to `z`, then `0` to `9`. -/
def digitChar (d : Nat) : Char :=
  if d < 26 then Char.ofNat (0x61 + d) else Char.ofNat (0x30 + d - 26)

/-- The threshold of the digit at a position. -/
def threshold (position bias : Nat) : Nat :=
  if position ≤ bias then 1 else if bias + 26 ≤ position then 26 else position - bias

/-- A number as digits, each with its own threshold; `fuel` bounds their number. -/
def digits (bias : Nat) : (fuel position n : Nat) → List Char
  | 0, _, n => [digitChar n]
  | fuel + 1, position, n =>
    let t := threshold position bias
    if n < t then [digitChar n]
    else digitChar (t + (n - t) % (36 - t)) :: digits bias fuel (position + 36) ((n - t) / (36 - t))

/-- Scales a difference down; `fuel` bounds the number of steps. -/
def scale : (fuel delta k : Nat) → Nat × Nat
  | 0, delta, k => (delta, k)
  | fuel + 1, delta, k => if 455 < delta then scale fuel (delta / 35) (k + 36) else (delta, k)

def adapt (delta count : Nat) (isFirst : Bool) : Nat :=
  let delta := if isFirst then delta / 700 else delta / 2
  let (delta, k) := scale delta (delta + delta / count) 0
  k + 36 * delta / (delta + 38)

/-- The state on the way through a label. -/
structure Progress where
  written : List Char
  delta : Nat
  bias : Nat
  count : Nat

/-- Looks at one character while the characters of one code point are written. -/
def visit (basic code : Nat) (p : Progress) (c : Char) : Progress :=
  if c.toNat < code then { p with delta := p.delta + 1 }
  else if c.toNat == code then
    { written := p.written ++ digits p.bias p.delta 36 p.delta
      delta := 0
      bias := adapt p.delta (p.count + 1) (p.count == basic)
      count := p.count + 1 }
  else p

/-- Writes the characters of the code points in order; `next` is the least one not yet written. -/
def writeCodes (label : List Char) (basic : Nat) : List Nat → Nat → Progress → Progress
  | [], _, p => p
  | code :: rest, next, p =>
    -- all states between the two code points are passed over
    let p := { p with delta := p.delta + (code - next) * (p.count + 1) }
    let p := label.foldl (visit basic code) p
    writeCodes label basic rest (code + 1) { p with delta := p.delta + 1 }

/-- Puts a number into an ordered list without repetition. -/
def place (n : Nat) : List Nat → List Nat
  | [] => [n]
  | m :: rest => if n < m then n :: m :: rest else if n = m then m :: rest else m :: place n rest

def isAscii (c : Char) : Bool := c.toNat < 128

def label (cs : List Char) : List Char :=
  if cs.all isAscii then cs
  else
    let basic := cs.filter isAscii
    let codes := (cs.filter fun c => !isAscii c).foldr (fun c ns => place c.toNat ns) []
    let p := writeCodes cs basic.length codes 128 ⟨[], 0, 72, basic.length⟩
    "xn--".toList ++ basic ++ (if basic.isEmpty then [] else ['-']) ++ p.written

/-- May the character not stand in a host name? -/
def isForbidden (c : Char) : Bool :=
  c.toNat ≤ 0x20 || c.toNat == 0x7F || "%#/:<>?@[\\]^|".toList.contains c

/-- A host name in ASCII, unless it has characters that it must not have. -/
def toAscii? (cs : List Char) : Option (List Char) :=
  let folded := cs.flatMap foldChar
  let name := List.intercalate ['.'] ((Text.splitOn '.' folded).map label)
  if name.any isForbidden then none else some name

end MockServer.Url.Domain
