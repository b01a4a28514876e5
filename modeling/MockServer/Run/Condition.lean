/-
  MockServer.Run.Condition — conditions that guard a step.

  A condition is built from comparisons with `&&`, `||` and brackets;
  `&&` binds tighter than `||`.  Brackets are found first, from the
  last opening one backwards, and each group is replaced by the word
  for its value; only then are variables put into the comparisons.  A
  comparison that names a variable without a value is false.

  Main definitions:
    * `Condition.leaf` — the value of a comparison;
    * `Condition.flat` — the value of a condition without brackets;
    * `Condition.ungroup` — a condition with its groups replaced;
    * `Condition.holds?` — the value of a condition.
-/
import MockServer.Decimal.Numeral
import MockServer.Run.Template
import MockServer.Text.Blank
import MockServer.Text.Split

namespace MockServer.Run.Condition

/-! ## Comparisons -/

/-- How two texts are compared. -/
inductive Operator where
  | eq | ne | ge | le | gt | lt
  deriving DecidableEq, Repr

def Operator.sign : Operator → List Char
  | .eq => ['=', '=']
  | .ne => ['!', '=']
  | .ge => ['>', '=']
  | .le => ['<', '=']
  | .gt => ['>']
  | .lt => ['<']

/-- The comparisons in the order in which their signs are looked for. -/
def operators : List Operator := [.eq, .ne, .ge, .le, .gt, .lt]

def unquote (cs : List Char) : List Char := Text.trimWhile (fun c => c = '"' || c = '\'') cs

/-- The order of two texts: as numbers if both are, else character by character. -/
def order? (a b : List Char) : Option Ordering :=
  match Decimal.Numeral.read? a, Decimal.Numeral.read? b with
  | some x, some y => x.compare? y
  | _, _ => some (compare (String.ofList a) (String.ofList b))

/-- Compares two texts; texts that have no order compare as false. -/
def Operator.compare (op : Operator) (a b : List Char) : Bool :=
  match op with
  | .eq => a == b
  | .ne => a != b
  | .gt => (order? a b).any Ordering.isGT
  | .lt => (order? a b).any Ordering.isLT
  | .ge => (order? a b).any Ordering.isGE
  | .le => (order? a b).any Ordering.isLE

/-- One side of a comparison without blanks and quotes around it. -/
def operand (cs : List Char) : List Char := unquote (Text.trimChars cs)

/-- The value of a comparison whose variables are put in; the first sign that occurs decides, and
without a sign every text but the empty one, `false` and `0` is true. -/
def comparison (cs : List Char) : List Operator → Bool
  | [] =>
    let value := unquote cs
    !value.isEmpty && value != ['f', 'a', 'l', 's', 'e'] && value != ['0']
  | op :: rest =>
    -- signs of two characters come first, so `>=` is not taken for `>`
    match Text.splitAt? op.sign cs with
    | some (left, right) => op.compare (operand left) (operand right)
    | none => comparison cs rest

def leaf (scope : Dict String) (cs : List Char) : Bool :=
  match Template.fillChars scope (Text.trimChars cs) with
  | .ok filled => comparison filled operators
  | .error _ => false

/-! ## Groups -/

def flat (scope : Dict String) (cs : List Char) : Bool :=
  (Text.splitPair '|' '|' cs).any fun part => (Text.splitPair '&' '&' part).all (leaf scope)

def word (b : Bool) : List Char := if b then "true".toList else "false".toList

/-- The condition with every group replaced by the word for its value; nothing if a group is not
closed. -/
def ungroup (scope : Dict String) : List Char → Option (List Char)
  | [] => some []
  | c :: rest =>
    match ungroup scope rest with
    | none => none
    -- what follows is free of groups by now, so the next `)` closes this one
    | some rest =>
      if c = '(' then
        (Text.splitFirst ')' rest).map fun (inner, after) => word (flat scope inner) ++ after
      else some (c :: rest)

/-- What is said of a condition with a group that is not closed. -/
def malformed : String := "Malformed expression"

/-- The value of a condition, which is true when it is blank; nothing if a group is not closed. -/
def holds? (scope : Dict String) (condition : String) : Option Bool :=
  if Text.isBlankText condition then some true
  else (ungroup scope condition.toList).map (flat scope)

end MockServer.Run.Condition
