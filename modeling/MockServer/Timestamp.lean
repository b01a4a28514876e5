/-
  MockServer.Timestamp — points in time (RFC 3339).

  A point is a count of seconds since the start of 1970 in UTC and of
  nanoseconds within the second.  The reader is lenient: blanks around
  numbers, a blank or a small `t` between date and time, and one-digit
  fields are accepted.  The writer shows UTC with none, three, six or
  nine digits of the second's fraction.  The calendar ends at the years
  `-262143` and `262142`, in UTC too.
-/
import MockServer.Decimal.Numeral
import MockServer.Text.Blank

namespace MockServer

/-- A point in time; `nanos` reaches beyond `10^9` only within a leap second. -/
structure Timestamp where
  seconds : Int
  nanos : Nat
  deriving DecidableEq, Repr, Inhabited

namespace Timestamp

/-! ## The calendar -/

/-- Days from the start of 1970 to a date of the Gregorian calendar. -/
def daysOfDate (year : Int) (month day : Nat) : Int :=
  -- the year is counted from March, so that a leap day ends it
  let y := if month ≤ 2 then year - 1 else year
  let era := y / 400
  let yoe := y % 400
  let mp : Int := (((month + 9) % 12 : Nat) : Int)
  let doy := (153 * mp + 2) / 5 + (day : Int) - 1
  let doe := yoe * 365 + yoe / 4 - yoe / 100 + doy
  era * 146097 + doe - 719468

/-- The date of a day counted from the start of 1970. -/
def dateOfDays (days : Int) : Int × Nat × Nat :=
  let z := days + 719468
  let era := z / 146097
  let doe := z % 146097
  let yoe := (doe - doe / 1460 + doe / 36524 - doe / 146096) / 365
  let doy := doe - (365 * yoe + yoe / 4 - yoe / 100)
  let mp := (5 * doy + 2) / 153
  let day := doy - (153 * mp + 2) / 5 + 1
  let month := if mp < 10 then mp + 3 else mp - 9
  let year := yoe + era * 400 + (if month ≤ 2 then 1 else 0)
  (year, month.toNat, day.toNat)

def isLeap (year : Int) : Bool := (year % 4 == 0 && year % 100 != 0) || year % 400 == 0

def monthLength (year : Int) (month : Nat) : Nat :=
  if month = 2 then (if isLeap year then 29 else 28)
  else if month = 4 ∨ month = 6 ∨ month = 9 ∨ month = 11 then 30
  else 31

/-! ## Reading -/

/-- The text without white space at its start. -/
def skipBlank (cs : List Char) : List Char := cs.dropWhile Text.isBlank

/-- One to `most` digits, after any white space. -/
def field? (most : Nat) (cs : List Char) : Option (Nat × List Char) :=
  let cs := skipBlank cs
  let ds := (cs.take most).takeWhile Char.isDigit
  if ds.isEmpty then none else some (Decimal.natOfDigits ds, cs.drop ds.length)

/-- A year: up to four digits, or any number of digits after a sign. -/
def year? (cs : List Char) : Option (Int × List Char) :=
  let cs := skipBlank cs
  let signed (neg : Bool) (r : List Char) : Option (Int × List Char) :=
    let ds := r.takeWhile Char.isDigit
    if ds.isEmpty then none
    else
      let n : Int := (Decimal.natOfDigits ds : Int)
      some (if neg then -n else n, r.drop ds.length)
  match cs with
  | '-' :: r => signed true r
  | '+' :: r => signed false r
  | _ => (field? 4 cs).map fun (n, r) => ((n : Int), r)

/-- A separator, after any white space. -/
def sign? (c : Char) (cs : List Char) : Option (List Char) :=
  match skipBlank cs with
  | d :: rest => if d = c then some rest else none
  | [] => none

/-- The fraction of a second in nanoseconds; digits after the ninth are dropped. -/
def fraction? (cs : List Char) : Option (Nat × List Char) :=
  match cs with
  | '.' :: rest =>
    let ds := rest.takeWhile Char.isDigit
    if ds.isEmpty then none
    else
      let kept := ds.take 9
      some (Decimal.natOfDigits kept * Nat.pow 10 (9 - kept.length), rest.drop ds.length)
  | _ => some (0, cs)

def twoDigits? (cs : List Char) : Option (Nat × List Char) :=
  match cs with
  | a :: b :: rest =>
    if a.isDigit && b.isDigit then some (Decimal.natOfDigits [a, b], rest) else none
  | _ => none

def offset? (cs : List Char) : Option (Int × List Char) :=
  match skipBlank cs with
  | c :: rest =>
    if c = 'Z' ∨ c = 'z' then some (0, rest)
    else if (c :: rest.take 2).map Char.toLower = ['u', 't', 'c'] then some (0, rest.drop 2)
    else if c = '+' ∨ c = '-' ∨ c = '\u2212' then do
      let (hours, rest) ← twoDigits? rest
      -- the colon between hours and minutes may be missing
      let rest := rest.dropWhile fun c => c = ':' || Text.isBlank c
      let (minutes, rest) ← twoDigits? rest
      let seconds : Int := ((hours * 3600 + minutes * 60 : Nat) : Int)
      if minutes < 60 ∧ seconds < 86400 then
        some (if c = '+' then seconds else -seconds, rest)
      else none
    else none
  | [] => none

def isYear (year : Int) : Bool := -262143 ≤ year && year ≤ 262142

/-- Does the point lie in a year of the calendar? -/
def isDated (t : Timestamp) : Bool := isYear (dateOfDays (t.seconds / 86400)).1

/-- Reads a date, a time and a distance from UTC. -/
def parse? (s : String) : Option Timestamp := do
  let (year, cs) ← year? s.toList
  let cs ← sign? '-' cs
  let (month, cs) ← field? 2 cs
  let cs ← sign? '-' cs
  let (day, cs) ← field? 2 cs
  let cs ← match cs with
    | c :: rest => if c = 'T' ∨ c = 't' ∨ c = ' ' then some rest else none
    | [] => none
  let (hour, cs) ← field? 2 cs
  let cs ← sign? ':' cs
  let (minute, cs) ← field? 2 cs
  let cs ← sign? ':' cs
  let (second, cs) ← field? 2 cs
  let (nanos, cs) ← fraction? cs
  let (offset, cs) ← offset? cs
  if !(skipBlank cs).isEmpty || !isYear year then none
  else if month < 1 ∨ 12 < month ∨ day < 1 ∨ monthLength year month < day then none
  else if 23 < hour ∨ 59 < minute ∨ 60 < second then none
  else
    -- a leap second is the second billion nanoseconds of second 59
    let leap := second = 60
    let clock : Int := ((hour * 3600 + minute * 60 + (if leap then 59 else second) : Nat) : Int)
    let t : Timestamp :=
      ⟨daysOfDate year month day * 86400 + clock - offset,
        if leap then nanos + Nat.pow 10 9 else nanos⟩
    if t.isDated then some t else none

/-! ## Writing -/

/-- A number with at least `width` digits. -/
def padded (width n : Nat) : List Char :=
  let ds := Nat.toDigits 10 n
  List.replicate (width - ds.length) '0' ++ ds

/-- The year with four digits, or with a sign and at least four digits outside `0 … 9999`. -/
def yearText (year : Int) : List Char :=
  if 0 ≤ year ∧ year ≤ 9999 then padded 4 year.toNat
  else (if year < 0 then '-' else '+') :: padded 4 year.natAbs

/-- The fraction of the second with the least of 0, 3, 6 or 9 digits that loses nothing. -/
def fractionText (nanos : Nat) : List Char :=
  if nanos = 0 then []
  else if nanos % Nat.pow 10 6 = 0 then '.' :: padded 3 (nanos / Nat.pow 10 6)
  else if nanos % Nat.pow 10 3 = 0 then '.' :: padded 6 (nanos / Nat.pow 10 3)
  else '.' :: padded 9 nanos

/-- The text of a point in time, in UTC. -/
def toText (t : Timestamp) : String :=
  let (year, month, day) := dateOfDays (t.seconds / 86400)
  let clock := (t.seconds % 86400).toNat
  let leap := Nat.pow 10 9 ≤ t.nanos
  let second := clock % 60 + (if leap then 1 else 0)
  let nanos := if leap then t.nanos - Nat.pow 10 9 else t.nanos
  String.ofList (yearText year ++ '-' :: padded 2 month ++ '-' :: padded 2 day ++
    'T' :: padded 2 (clock / 3600) ++ ':' :: padded 2 (clock / 60 % 60) ++ ':' :: padded 2 second ++
    fractionText nanos ++ ['Z'])

end Timestamp

end MockServer
