/-
  MockServer.Json.Printer — the text of a document.

  Strings escape the quote, the backslash and the control characters,
  and nothing else.  A double has its shortest digits; it is positional
  from `0.00001` up to sixteen digits before the point, and always shows
  that it is a double.
-/
import MockServer.Json.Basic
import MockServer.Decimal.Shortest
import MockServer.Text.Hex

namespace MockServer.Json

/-! ## Scalars -/

def escapeChar (c : Char) : List Char :=
  if c = '"' then ['\\', '"']
  else if c = '\\' then ['\\', '\\']
  else if c = '\x08' then ['\\', 'b']
  else if c = '\t' then ['\\', 't']
  else if c = '\n' then ['\\', 'n']
  else if c = '\x0c' then ['\\', 'f']
  else if c = '\r' then ['\\', 'r']
  else if c.toNat < 0x20 then
    ['\\', 'u', '0', '0', Text.Hex.digit (c.toNat / 16), Text.Hex.digit (c.toNat % 16)]
  else [c]

def quote (s : String) : List Char := '"' :: s.toList.flatMap escapeChar ++ ['"']

/-- Doubles are positional for decimal exponents from −5 to 15, and whole ones end in `.0`. -/
def floatLayout : Decimal.Layout := ⟨-5, 15, true⟩

def integer (n : Int) : List Char :=
  if n < 0 then '-' :: Nat.toDigits 10 n.natAbs else Nat.toDigits 10 n.natAbs

def number : JsonNumber → List Char
  | .int n => integer n
  | .float x => floatLayout.render x

def boolean (b : Bool) : List Char :=
  if b then ['t', 'r', 'u', 'e'] else ['f', 'a', 'l', 's', 'e']

/-! ## Without blanks -/

mutual

/-- The text without any blanks, members in their order, numbers written by `num`. -/
def write (num : JsonNumber → List Char) : Json → List Char
  | .null => ['n', 'u', 'l', 'l']
  | .bool b => boolean b
  | .num n => num n
  | .str s => quote s
  | .arr [] => ['[', ']']
  | .arr (v :: rest) => '[' :: write num v ++ writeItems num rest
  | .obj [] => ['{', '}']
  | .obj ((name, v) :: rest) => '{' :: quote name ++ ':' :: write num v ++ writeMembers num rest

/-- Items after the first, and the closing bracket. -/
def writeItems (num : JsonNumber → List Char) : List Json → List Char
  | [] => [']']
  | v :: rest => ',' :: write num v ++ writeItems num rest

/-- Members after the first, and the closing brace. -/
def writeMembers (num : JsonNumber → List Char) : List (String × Json) → List Char
  | [] => ['}']
  | (name, v) :: rest => ',' :: quote name ++ ':' :: write num v ++ writeMembers num rest

end

def compact (v : Json) : String := String.ofList (write number v)

/-! ## With one member or item to a line -/

/-- A line break and the indentation of a depth, two blanks each. -/
def newline (depth : Nat) : List Char := '\n' :: List.replicate (2 * depth) ' '

mutual

/-- The indented text; empty containers stay on one line. -/
def writePretty (depth : Nat) : Json → List Char
  | .null => ['n', 'u', 'l', 'l']
  | .bool b => boolean b
  | .num n => number n
  | .str s => quote s
  | .arr [] => ['[', ']']
  | .arr (v :: rest) =>
    '[' :: newline (depth + 1) ++ writePretty (depth + 1) v ++ prettyItems depth rest
  | .obj [] => ['{', '}']
  | .obj ((name, v) :: rest) =>
    '{' :: newline (depth + 1) ++ quote name ++ ':' :: ' ' :: writePretty (depth + 1) v ++
      prettyMembers depth rest

/-- Items after the first, and the closing bracket at the depth of the opening one. -/
def prettyItems (depth : Nat) : List Json → List Char
  | [] => newline depth ++ [']']
  | v :: rest => ',' :: newline (depth + 1) ++ writePretty (depth + 1) v ++ prettyItems depth rest

/-- Members after the first, and the closing brace at the depth of the opening one. -/
def prettyMembers (depth : Nat) : List (String × Json) → List Char
  | [] => newline depth ++ ['}']
  | (name, v) :: rest =>
    ',' :: newline (depth + 1) ++ quote name ++ ':' :: ' ' :: writePretty (depth + 1) v ++
      prettyMembers depth rest

end

def pretty (v : Json) : String := String.ofList (writePretty 0 v)

end MockServer.Json
