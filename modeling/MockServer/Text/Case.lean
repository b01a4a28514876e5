/-
  MockServer.Text.Case — letter case.

  Methods are kept in upper case by the full Unicode mapping; header
  names, host names and the like fold ASCII letters only.
-/
import MockServer.Text.UpperTable

namespace MockServer.Text

/-! ## ASCII -/

/-- The lower case of an ASCII letter; any other character is itself. -/
def lowerChar (c : Char) : Char := c.toLower

/-- Lower case of the ASCII letters of a text. -/
def lower (s : String) : String := String.ofList (s.toList.map lowerChar)

/-- Are two texts equal up to the case of ASCII letters? -/
def sameFold (a b : String) : Bool := lower a == lower b

/-! ## Unicode -/

/-- Does a run of the table hold `n`? -/
def inRun (n : Nat) (run : Nat × Nat × Nat × Int) : Bool :=
  run.1 ≤ n && n ≤ run.2.1 && (n - run.1) % run.2.2.1 == 0

def upperChar (c : Char) : List Char :=
  if c.toNat < 128 then [c.toUpper]
  else match UpperTable.expansions.lookup c.toNat with
    | some ns => ns.map Char.ofNat
    | none => match UpperTable.runs.find? (inRun c.toNat) with
      | some run => [Char.ofNat ((c.toNat : Int) + run.2.2.2).toNat]
      | none => [c]

def upper (s : String) : String := String.ofList (s.toList.flatMap upperChar)

end MockServer.Text
