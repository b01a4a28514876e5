/-
  MockServer.Json.Token — the tokens of a JSON text (RFC 8259).

  A text is cut into brackets, separators and scalars; blanks between
  them vanish.  Strings are decoded and numbers are valued here, so a
  malformed escape, a raw control character, half of a surrogate pair
  or a number beyond the doubles has no tokens at all.
-/
import MockServer.Json.Basic
import MockServer.Decimal.Numeral
import MockServer.Text.Hex

namespace MockServer

/-- One token of a JSON text. -/
inductive JsonToken where
  | openObject
  | closeObject
  | openArray
  | closeArray
  | comma
  | colon
  /-- A scalar: null, a boolean, a number or a string. -/
  | scalar (v : Json)
  deriving Repr, DecidableEq

namespace JsonToken

/-! ## Strings -/

def hex4? (a b c d : Char) : Option Nat := Text.Hex.number? [a, b, c, d]

def escapeOf? (c : Char) : Option Char :=
  if c = '"' then some '"'
  else if c = '\\' then some '\\'
  else if c = '/' then some '/'
  else if c = 'b' then some '\x08'
  else if c = 'f' then some '\x0c'
  else if c = 'n' then some '\n'
  else if c = 'r' then some '\r'
  else if c = 't' then some '\t'
  else none

/-- The characters of a string up to its closing quote, and the text after the quote. -/
def stringBody : List Char → Option (List Char × List Char)
  | [] => none
  | c :: rest =>
    if c = '"' then some ([], rest)
    else if c = '\\' then
      match rest with
      | [] => none
      | e :: rest =>
        if e = 'u' then
          match rest with
          | a :: b :: c :: d :: rest =>
            match hex4? a b c d with
            | none => none
            | some u =>
              -- the first half of a pair needs the second right behind it
              if 0xD800 ≤ u ∧ u < 0xDC00 then
                match rest with
                | s :: t :: a :: b :: c :: d :: rest =>
                  if s = '\\' ∧ t = 'u' then
                    match hex4? a b c d with
                    | none => none
                    | some l =>
                      if 0xDC00 ≤ l ∧ l < 0xE000 then
                        let code := 0x10000 + (u - 0xD800) * 0x400 + (l - 0xDC00)
                        (stringBody rest).map fun (cs, r) => (Char.ofNat code :: cs, r)
                      else none
                  else none
                | _ => none
              else if 0xDC00 ≤ u ∧ u < 0xE000 then none
              else (stringBody rest).map fun (cs, r) => (Char.ofNat u :: cs, r)
          | _ => none
        else
          match escapeOf? e with
          | none => none
          | some x => (stringBody rest).map fun (cs, r) => (x :: cs, r)
    else if c.toNat < 0x20 then none
    else (stringBody rest).map fun (cs, r) => (c :: cs, r)

/-! ## Numbers -/

/-- An exponent part, if one starts here: its value and the text after it.  A mark without digits
is malformed. -/
def exponentPart (cs : List Char) : Option (Option Int × List Char) :=
  match cs with
  | [] => some (none, [])
  | c :: rest =>
    if c = 'e' ∨ c = 'E' then
      let (neg, rest) := match rest with
        | '-' :: r => (true, r)
        | '+' :: r => (false, r)
        | r => (false, r)
      let ds := rest.takeWhile Char.isDigit
      if ds.isEmpty then none
      else
        let n : Int := (Decimal.natOfDigits ds : Int)
        some (some (if neg then -n else n), rest.dropWhile Char.isDigit)
    else some (none, cs)

/-- A fraction part, if one starts here: its digits and the text after it.  A point without digits
is malformed. -/
def fractionPart (cs : List Char) : Option (Option (List Char) × List Char) :=
  match cs with
  | '.' :: rest =>
    let ds := rest.takeWhile Char.isDigit
    if ds.isEmpty then none else some (some ds, rest.dropWhile Char.isDigit)
  | _ => some (none, cs)

/-- The digits before the point: a lone zero, or digits that do not start with one. -/
def wholePart (cs : List Char) : Option (List Char × List Char) :=
  match cs with
  | '0' :: rest => some (['0'], rest)
  | _ =>
    let ds := cs.takeWhile Char.isDigit
    if ds.isEmpty then none else some (ds, cs.dropWhile Char.isDigit)

/-- An integer literal: it stays an integer when it fits 64 bits, signed or unsigned; minus zero
and larger magnitudes become doubles. -/
def integer? (neg : Bool) (ds : List Char) : Option JsonNumber :=
  let n := Decimal.natOfDigits ds
  if !neg ∧ n < UInt64.size then some (.int n)
  else if neg ∧ 0 < n ∧ n ≤ Nat.pow 2 63 then some (.int (-n))
  else (Decimal.ofScientific? neg n ds.length 0).map .float

/-- A number at the start of the text, and the text after it. -/
def number? (cs : List Char) : Option (JsonNumber × List Char) := do
  let (neg, cs) := match cs with
    | '-' :: r => (true, r)
    | r => (false, r)
  let (whole, cs) ← wholePart cs
  let (frac, cs) ← fractionPart cs
  let (exp, cs) ← exponentPart cs
  match frac, exp with
  -- without fraction and exponent it may stay an integer
  | none, none => return (← integer? neg whole, cs)
  | _, _ =>
    let frac := frac.getD []
    let ds := whole ++ frac
    let x ← Decimal.ofScientific? neg (Decimal.natOfDigits ds) ds.length
      (exp.getD 0 - (frac.length : Int))
    return (.float x, cs)

/-! ## Texts -/

def isBlank (c : Char) : Bool := c = ' ' || c = '\n' || c = '\r' || c = '\t'

/-- The token that starts with `c`, and the text after it. -/
def next? (c : Char) (rest : List Char) : Option (JsonToken × List Char) :=
  match c with
  | '{' => some (openObject, rest)
  | '}' => some (closeObject, rest)
  | '[' => some (openArray, rest)
  | ']' => some (closeArray, rest)
  | ',' => some (comma, rest)
  | ':' => some (colon, rest)
  | '"' => (stringBody rest).map fun (cs, r) => (scalar (.str (String.ofList cs)), r)
  | 't' => match rest with
    | 'r' :: 'u' :: 'e' :: r => some (scalar (.bool true), r)
    | _ => none
  | 'f' => match rest with
    | 'a' :: 'l' :: 's' :: 'e' :: r => some (scalar (.bool false), r)
    | _ => none
  | 'n' => match rest with
    | 'u' :: 'l' :: 'l' :: r => some (scalar .null, r)
    | _ => none
  | _ => (number? (c :: rest)).map fun (n, r) => (scalar (.num n), r)

/-- The tokens of a text; `fuel` bounds their number. -/
def lexUpTo : Nat → List Char → Option (List JsonToken)
  | _, [] => some []
  | 0, _ :: _ => none
  | fuel + 1, c :: rest =>
    if isBlank c then lexUpTo fuel rest
    else match next? c rest with
      | none => none
      | some (t, rest) => (lexUpTo fuel rest).map (t :: ·)

/-- The tokens of a text, if it has any other fault than their order. -/
def lex? (cs : List Char) : Option (List JsonToken) := lexUpTo cs.length cs

end JsonToken

end MockServer
