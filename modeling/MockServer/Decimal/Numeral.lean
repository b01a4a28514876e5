/-
  MockServer.Decimal.Numeral — decimal numerals read as doubles.

  A numeral is scanned into its digits and a power of ten; the value
  is rounded once.  Exponents far outside the range of doubles are
  decided without building the power.
-/
import MockServer.Decimal.Binary64

namespace MockServer.Decimal

/-- The value of a digit character, zero for any other. -/
def digitValue (c : Char) : Nat := if c.isDigit then c.toNat - 48 else 0

def natOfDigits (ds : List Char) : Nat := ds.foldl (fun acc c => acc * 10 + digitValue c) 0

/-- The double nearest to `digits · 10^exp`, where `digits` has `width` characters; nothing on
overflow.  Numerals of JSON are rounded in the same way here, which a fast reader of them does not
promise: for numerals of many digits (`51.248178375505404`) it may give a neighbour. -/
def ofScientific? (neg : Bool) (digits : Nat) (width : Nat) (exp : Int) : Option Binary64 :=
  if digits = 0 then some ⟨neg, 0, -1074⟩
  else if 400 < exp then none
  else if (width : Int) + exp < -400 then some ⟨neg, 0, -1074⟩
  else if 0 ≤ exp then Binary64.ofRatio? neg (digits * Nat.pow 10 exp.toNat) 1
  else Binary64.ofRatio? neg digits (Nat.pow 10 (-exp).toNat)

namespace Numeral

/-- An exponent part after its `e`: a sign and at least one digit, and nothing else. -/
def exponent? (cs : List Char) : Option Int :=
  let (neg, ds) := match cs with
    | '-' :: r => (true, r)
    | '+' :: r => (false, r)
    | r => (false, r)
  if ds.isEmpty || !ds.all Char.isDigit then none
  else some (if neg then -(natOfDigits ds : Int) else (natOfDigits ds : Int))

/-- Digits with an optional point and at least one digit in all, then an optional exponent. -/
def unsigned? (neg : Bool) (cs : List Char) : Option Real64 :=
  let whole := cs.takeWhile Char.isDigit
  let rest := cs.dropWhile Char.isDigit
  let (frac, rest) := match rest with
    | '.' :: r => (r.takeWhile Char.isDigit, r.dropWhile Char.isDigit)
    | r => ([], r)
  if whole.isEmpty && frac.isEmpty then none
  else
    let ds := whole ++ frac
    let finish (e : Int) : Option Real64 :=
      some <| match ofScientific? neg (natOfDigits ds) ds.length (e - (frac.length : Int)) with
        | some x => .finite x
        | none => .infinite neg
    match rest with
    | [] => finish 0
    | c :: r => if c = 'e' ∨ c = 'E' then (exponent? r).bind finish else none

/-- Reads a whole text as a double: an optional sign, then a numeral (`.5` and `5.` included) or
one of the words for infinity and no-number in any case of its letters. -/
def read? (cs : List Char) : Option Real64 :=
  let (neg, body) := match cs with
    | '-' :: r => (true, r)
    | '+' :: r => (false, r)
    | r => (false, r)
  let word := String.ofList (body.map Char.toLower)
  if word = "inf" ∨ word = "infinity" then some (.infinite neg)
  else if word = "nan" then some .nan
  else unsigned? neg body

end Numeral

end MockServer.Decimal
