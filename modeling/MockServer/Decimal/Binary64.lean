/-
  MockServer.Decimal.Binary64 — finite double-precision numbers,
  kept exactly.

  A value is a sign and a magnitude `mant · 2^exp`.  Every
  operation of the library that ends in a double is one rounding of
  an exact quotient, so a single function, `ofRatio?`, holds all the
  rounding there is: nearest, ties to the even significand, nothing
  when the result would be infinite.
-/

namespace MockServer.Decimal

/-- A finite double: `(-1)^neg · mant · 2^exp`, with `mant < 2^53` and `-1074 ≤ exp ≤ 971`;
a significand below `2^52` only with the least exponent. -/
structure Binary64 where
  neg : Bool
  mant : Nat
  exp : Int
  deriving DecidableEq, Repr, Inhabited

namespace Binary64

/-! ## Rounding -/

/-- `num / den` in units of `2^exp`, again as a quotient of naturals. -/
def scale (num den : Nat) (exp : Int) : Nat × Nat :=
  if 0 ≤ exp then (num, den * Nat.pow 2 exp.toNat) else (num * Nat.pow 2 (-exp).toNat, den)

/-- The nearest natural to `num / den`; a tie goes to the even neighbour. -/
def roundEven (num den : Nat) : Nat :=
  let q := num / den
  let r := num % den
  if den < 2 * r ∨ (2 * r = den ∧ q % 2 = 1) then q + 1 else q

/-- The exponent of the grid on which `num / den` is rounded: the least one from `-1074` up for
which the whole units fit 53 bits. -/
def gridExp (num den : Nat) : Int :=
  let guess : Int := max (-1074) ((Nat.log2 num : Int) - (Nat.log2 den : Int) - 53)
  -- the guess from the binary lengths is exact or one too small
  let (n, d) := scale num den guess
  if n / d < Nat.pow 2 53 then guess else guess + 1

/-- The double nearest to `num / den` (`den` positive), with the given sign; nothing when that
is beyond the largest finite double. -/
def ofRatio? (neg : Bool) (num den : Nat) : Option Binary64 :=
  if num = 0 then some ⟨neg, 0, -1074⟩
  else
    let exp := gridExp num den
    let (n, d) := scale num den exp
    let mant := roundEven n d
    -- rounding up may need one more bit
    let (mant, exp) := if mant = Nat.pow 2 53 then (Nat.pow 2 52, exp + 1) else (mant, exp)
    if 971 < exp then none else some ⟨neg, mant, exp⟩

def zero : Binary64 := ⟨false, 0, -1074⟩

/-- The double nearest to a natural number below `2^1024`. -/
def ofNat (n : Nat) : Binary64 := (ofRatio? false n 1).getD zero

/-- The double nearest to an integer of magnitude below `2^1024`. -/
def ofInt (n : Int) : Binary64 := (ofRatio? (n < 0) n.natAbs 1).getD zero

/-! ## Views -/

def ratio (x : Binary64) : Nat × Nat :=
  if 0 ≤ x.exp then (x.mant * Nat.pow 2 x.exp.toNat, 1) else (x.mant, Nat.pow 2 (-x.exp).toNat)

/-- The value as an integer, if it is whole. -/
def toInt? (x : Binary64) : Option Int :=
  let (n, d) := x.ratio
  if n % d = 0 then some (if x.neg then -((n / d : Nat) : Int) else ((n / d : Nat) : Int)) else none

/-- The value in units of `2^-1074`; it orders the doubles, with both zeros at the same place. -/
def units (x : Binary64) : Int :=
  let n : Int := ((x.mant * Nat.pow 2 (x.exp + 1074).toNat : Nat) : Int)
  if x.neg then -n else n

/-- Quotient of two doubles, the second one not zero, rounded once. -/
def div (x y : Binary64) : Binary64 :=
  let (a, b) := x.ratio
  let (c, d) := y.ratio
  (ofRatio? (x.neg != y.neg) (a * d) (b * c)).getD zero

/-- Product of two doubles, rounded once. -/
def mul (x y : Binary64) : Binary64 :=
  let (a, b) := x.ratio
  let (c, d) := y.ratio
  (ofRatio? (x.neg != y.neg) (a * c) (b * d)).getD zero

/-- Sum of two doubles, rounded once. -/
def add (x y : Binary64) : Binary64 :=
  let (a, b) := x.ratio
  let (c, d) := y.ratio
  let signed (neg : Bool) (n : Nat) : Int := if neg then -(n : Int) else (n : Int)
  let sum := signed x.neg (a * d) + signed y.neg (c * b)
  (ofRatio? (decide (sum < 0)) sum.natAbs (b * d)).getD zero

end Binary64

/-- A double with the values that are not finite. -/
inductive Real64 where
  | finite (x : Binary64)
  | infinite (neg : Bool)
  | nan
  deriving DecidableEq, Repr, Inhabited

namespace Real64

/-- The order of two values, if neither is `nan`. -/
def compare? : Real64 → Real64 → Option Ordering
  | nan, _ => none
  | _, nan => none
  | finite x, finite y => some (compare x.units y.units)
  | infinite a, infinite b => some (if a = b then .eq else if a then .lt else .gt)
  | infinite a, finite _ => some (if a then .lt else .gt)
  | finite _, infinite b => some (if b then .gt else .lt)

end Real64

end MockServer.Decimal
