/-
  MockServer.Document.Scalar — what an unquoted word means (the core
  schema of YAML 1.2).

  A word may be null, a truth value, an integer in base 2, 8, 10 or 16,
  or a double, and is a text otherwise.  A decimal integer does not
  start with a zero that another digit follows: such a word is a text.
-/
import MockServer.Json.Basic
import MockServer.Decimal.Numeral
import MockServer.Text.Hex
import MockServer.Text.Split

namespace MockServer.Document.Scalar

open Decimal

def isNull (word : String) : Bool := ["null", "Null", "NULL", "~"].contains word

def bool? (word : String) : Option Bool :=
  if ["true", "True", "TRUE"].contains word then some true
  else if ["false", "False", "FALSE"].contains word then some false
  else none

/-- Digits of a base, at least one. -/
def digits? (base : Nat) (ds : List Char) : Option Nat :=
  if ds.isEmpty then none
  else ds.foldlM (fun acc c =>
    (Text.Hex.value? c).bind fun d => if d < base then some (acc * base + d) else none) 0

/-- Is the word, after a sign, a zero followed by more decimal digits? -/
def isZeroLed (word : List Char) : Bool :=
  let body := match word with
    | '-' :: r => r
    | '+' :: r => r
    | r => r
  match body with
  | '0' :: rest => !rest.isEmpty && rest.all Char.isDigit
  | _ => false

/-- The base and the digits of a number with a base mark. -/
def based? (cs : List Char) : Option (Nat × List Char) :=
  match cs with
  | '0' :: 'x' :: r => some (16, r)
  | '0' :: 'o' :: r => some (8, r)
  | '0' :: 'b' :: r => some (2, r)
  | _ => none

/-- A natural number, with an optional plus sign. -/
def nat? (word : String) : Option Nat :=
  let cs := word.toList
  let body := match cs with
    | '+' :: r => r
    | r => r
  let decimal :=
    if body.head? = some '+' ∨ isZeroLed cs then none else digits? 10 body
  match based? body with
  | some (base, ds) => (digits? base ds).or decimal
  | none => decimal

def negative? (word : String) : Option Nat :=
  match word.toList with
  | '-' :: r =>
    let decimal := if isZeroLed ('-' :: r) then none else digits? 10 r
    match based? r with
    | some (base, ds) => (digits? base ds).or decimal
    | none => decimal
  | _ => none

/-- A double, the words for infinity and no-number included. -/
def float? (word : String) : Option Real64 :=
  let cs := word.toList
  let body := match cs with
    | '+' :: r => r
    | r => r
  let text := String.ofList body
  -- two signs are one too many
  if body.length < cs.length ∧ (body.head? = some '+' ∨ body.head? = some '-') then none
  else if [".inf", ".Inf", ".INF"].contains text then some (.infinite false)
  else if ["-.inf", "-.Inf", "-.INF"].contains word then some (.infinite true)
  else if [".nan", ".NaN", ".NAN"].contains word then some .nan
  else match Numeral.read? body with
    | some (.finite x) => some (.finite x)
    | _ => none

def integer? (word : String) : Option Json :=
  match nat? word, negative? word with
  | some n, _ => if n < UInt64.size then some (.num (.int n)) else none
  | none, some n => if n ≤ Nat.pow 2 63 then some (.num (.int (-n))) else none
  | none, none => none

def isInteger (word : String) : Bool :=
  match nat? word, negative? word with
  | some n, _ => decide (n < Nat.pow 2 128)
  | none, some n => decide (n ≤ Nat.pow 2 127)
  | none, none => false

/-- A double; there is no value for one that is not finite. -/
def double : Real64 → Json
  | .finite x => .num (.float x)
  | _ => .null

/-- A word that is no integer: a double or a text. -/
def doubleOrText (word : String) : Json :=
  if isZeroLed word.toList then .str word
  else ((float? word).map double).getD (.str word)

/-- What a word means when nothing is asked for; an integer beyond 64 bits means nothing. -/
def value? (word : String) : Option Json :=
  if word.isEmpty || isNull word then some .null
  else match bool? word with
    | some b => some (.bool b)
    | none => if isInteger word then integer? word else some (doubleOrText word)

end MockServer.Document.Scalar
