/-
  MockServer.Decimal.Shortest — the fewest digits that read back.

  Every real in the rounding interval of a double reads back as that
  double.  On the decimal grid with one digit, then two, and so on,
  only the two neighbours of the value can be the nearest point of the
  interval, so the first grid with a neighbour inside the interval
  gives the digits; of two such neighbours the nearer one wins.

  A `Layout` then says how digits and exponent are written: where
  positional notation ends and how an exponent looks.
-/
import MockServer.Decimal.Binary64

namespace MockServer.Decimal

/-- A decimal numeral `0.d₁d₂… · 10^(point)` with its digits as one natural number:
the value is `digits · 10^exp`. -/
structure Digits where
  digits : Nat
  exp : Int
  deriving DecidableEq, Repr, Inhabited

namespace Shortest

/-- How many decimal digits a positive natural has. -/
def width (n : Nat) : Nat := (Nat.toDigits 10 n).length

/-- `a · 10^k` against `b` for a possibly negative `k`: both sides as naturals. -/
def withPower (a : Nat) (k : Int) (b : Nat) : Nat × Nat :=
  if 0 ≤ k then (a * Nat.pow 10 k.toNat, b) else (a, b * Nat.pow 10 (-k).toNat)

/-- The decimal exponent of the first digit of `num / den`, for a quotient of at least `10^-330`. -/
def leading (num den : Nat) : Int :=
  (width (num * Nat.pow 10 330 / den) : Int) - 331

/-- The ends of the interval that rounds to a positive double, in quarters of its unit `2^exp`. -/
def interval (x : Binary64) : Nat × Nat :=
  -- below a power of two the doubles are twice as dense
  let low := if x.mant = Nat.pow 2 52 ∧ -1074 < x.exp then 4 * x.mant - 1 else 4 * x.mant - 2
  (low, 4 * x.mant + 2)

/-- Does `d · 10^u` round to `x`?  The ends of the interval belong to it for an even significand. -/
def readsBack (x : Binary64) (d : Nat) (u : Int) : Bool :=
  let (low, high) := interval x
  let power := Nat.pow 2 (x.exp - 2).natAbs
  let (n, s) := withPower d u 1
  let (value, unit) := if 0 ≤ x.exp - 2 then (n, s * power) else (n * power, s)
  if x.mant % 2 = 0 then decide (low * unit ≤ value) && decide (value ≤ high * unit)
  else decide (low * unit < value) && decide (value < high * unit)

/-- The neighbours of `x` on the grid `10^u`, and whether the lower one is at least as near. -/
def neighbours (x : Binary64) (u : Int) : Nat × Nat × Bool :=
  let (num, den) := x.ratio
  let (den', num') := withPower den u num
  let q := num' / den'
  let r := num' % den'
  (q, q + 1, decide (2 * r < den') || (decide (2 * r = den') && q % 2 == 0))

/-- The digits on the grid with `n` digits, if a neighbour there reads back. -/
def onGrid (x : Binary64) (lead : Int) (n : Nat) : Option Digits :=
  let u := lead - (n : Int) + 1
  let (low, high, lowNearer) := neighbours x u
  let lowIn := readsBack x low u
  let highIn := readsBack x high u
  -- the nearer of two neighbours wins, and a tie goes to the lower one if it is even
  if lowIn && (lowNearer || !highIn) then some ⟨low, u⟩
  else if highIn then some ⟨high, u⟩
  else none

/-- Tries `n`, `n + 1`, … digits; seventeen always suffice. -/
def search (x : Binary64) (lead : Int) (n : Nat) : Nat → Digits
  | 0 => ⟨(neighbours x (lead - 16)).1, lead - 16⟩
  | fuel + 1 => (onGrid x lead n).getD (search x lead (n + 1) fuel)

def trim (d : Digits) : Nat → Digits
  | 0 => d
  | fuel + 1 => if d.digits % 10 = 0 ∧ d.digits ≠ 0 then trim ⟨d.digits / 10, d.exp + 1⟩ fuel else d

/-- The shortest digits of the magnitude of a double; zero has the digit zero. -/
def digits (x : Binary64) : Digits :=
  if x.mant = 0 then ⟨0, 0⟩
  else
    let (num, den) := x.ratio
    trim (search x (leading num den) 1 17) 20

end Shortest

/-! ## Notation -/

/-- How a double is written. -/
structure Layout where
  /-- Least decimal exponent of the first digit that is written positionally. -/
  least : Int
  /-- Greatest such exponent. -/
  greatest : Int
  /-- Whether a whole number gets the fraction `.0`. -/
  fraction : Bool
  deriving DecidableEq, Repr

namespace Layout

/-- Digits and a decimal point; `point` digits stand before it. -/
def positional (fraction : Bool) (ds : List Char) (point : Int) : List Char :=
  if point ≤ 0 then
    '0' :: '.' :: List.replicate (-point).toNat '0' ++ ds
  else
    let p := point.toNat
    if ds.length ≤ p then
      ds ++ List.replicate (p - ds.length) '0' ++ (if fraction then ['.', '0'] else [])
    else ds.take p ++ '.' :: ds.drop p

/-- One digit, the rest after a point, and an exponent whose sign is always written. -/
def scientific (ds : List Char) (k : Int) : List Char :=
  let mantissa := match ds with
    | [] => ['0']
    | [d] => [d]
    | d :: rest => d :: '.' :: rest
  let sign := if k < 0 then '-' else '+'
  mantissa ++ 'e' :: sign :: Nat.toDigits 10 k.natAbs

/-- The text of a double in a layout. -/
def render (layout : Layout) (x : Binary64) : List Char :=
  let d := Shortest.digits x
  let ds := Nat.toDigits 10 d.digits
  let k : Int := d.exp + (ds.length : Int) - 1
  let body :=
    if x.mant = 0 then (if layout.fraction then ['0', '.', '0'] else ['0'])
    else if layout.least ≤ k ∧ k ≤ layout.greatest then positional layout.fraction ds (k + 1)
    else scientific ds k
  if x.neg then '-' :: body else body

/-- Digits without any exponent, a whole number without a fraction. -/
def plain : Layout := ⟨-400, 400, false⟩

end Layout

/-! ## Fixed places -/

/-- The magnitude with exactly `places` digits after the point, a tie going to the even last
digit. -/
def fixed (places : Nat) (x : Binary64) : List Char :=
  let (num, den) := x.ratio
  let scaled := Binary64.roundEven (num * Nat.pow 10 places) den
  let ds := Nat.toDigits 10 scaled
  let ds := List.replicate (places + 1 - ds.length) '0' ++ ds
  let point := ds.length - places
  (if x.neg then ['-'] else []) ++ ds.take point ++
    (if places = 0 then [] else '.' :: ds.drop point)

end MockServer.Decimal
