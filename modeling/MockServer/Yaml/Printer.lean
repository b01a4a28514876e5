/-
  MockServer.Yaml.Printer — documents written as YAML.

  Tables and lists are written in block form, two spaces deeper for a
  table inside a table and no deeper for a list inside one.  A text is
  written plain if a reader cannot take it for anything else, with its
  lines below each other if it has several, and in quotes otherwise.

  Main definitions:
    * `Style`, `styleOf` — how a text is written;
    * `Json.toYaml` — the text of a document.
-/
import MockServer.Document.Scalar
import MockServer.Json.Printer
import MockServer.Text.Case
import MockServer.Yaml.Cursor

namespace MockServer.Yaml

/-! ## Styles -/

/-- How a text is written. -/
inductive Style where
  | plain
  | single
  | double
  | literal
  deriving DecidableEq, Repr

def isSpecial (c : Char) : Bool :=
  c != '\n' && (!isPrintable c || c = '\t' || c = '\r' || c = '\u0085' || 0x10000 ≤ c.toNat)

/-- Words that older readers take for truth values. -/
def oldWords : List String := ["y", "yes", "n", "no", "on", "off"]

/-- May a reader take the word for something that is no text? -/
def isAmbiguous (s : String) : Bool :=
  let folded := Text.lower s
  Document.Scalar.value? s != some (.str s) || Document.Scalar.isZeroLed s.toList ||
    ["true", "false", "null", "nan"].contains folded || oldWords.contains folded

/-- Is there a blank, a line break or nothing at the beginning? -/
def blankFirst : List Char → Bool
  | [] => true
  | c :: _ => isBlank c || isBreak c

/-- Does a mark of YAML stand inside the text, after its first character? -/
def marksInside : List Char → Bool
  | [] => false
  | [_] => false
  | a :: c :: rest =>
    (c = ':' && blankFirst rest) || (c = '#' && (isBlank a || isBreak a)) ||
      marksInside (c :: rest)

/-- Does the text begin with a mark of YAML? -/
def marksFirst (cs : List Char) : Bool :=
  match cs with
  | [] => true
  | c :: rest =>
    "#,[]\x7b\x7d&*!|>'\"%@\x60".toList.contains c ||
      ((c = '?' || c = ':' || c = '-') && blankFirst rest) ||
      ['-', '-', '-'].isPrefixOf cs || ['.', '.', '.'].isPrefixOf cs

def isPlain (cs : List Char) : Bool :=
  !marksFirst cs && !marksInside cs && !cs.any isSpecial && !cs.any isBreak &&
    cs.head? != some ' ' && cs.getLast? != some ' '

/-- Does a space stand before a line break? -/
def spaceBeforeBreak : List Char → Bool
  | a :: c :: rest => (a = ' ' && isBreak c) || spaceBeforeBreak (c :: rest)
  | _ => false

/-- Can the text be written line by line? -/
def isLiteral (cs : List Char) : Bool :=
  !cs.any isSpecial && !spaceBeforeBreak cs && cs.getLast? != some ' '

def styleOf (s : String) : Style :=
  let cs := s.toList
  if cs.contains '\n' then if isLiteral cs then .literal else .double
  else if cs.any isSpecial then .double
  else if isAmbiguous s || !isPlain cs then .single
  else .plain

/-! ## Texts -/

/-- A number as `width` digits in base sixteen, in upper case. -/
def hexCode : Nat → Nat → List Char
  | 0, _ => []
  | width + 1, n => hexCode width (n / 16) ++ [Text.Hex.upperDigit (n % 16)]

/-- The characters with an escape of their own. -/
def escapes : List (Char × Char) :=
  [('"', '"'), ('\\', '\\'), ('\x00', '0'), ('\x07', 'a'), ('\x08', 'b'), ('\t', 't'), ('\n', 'n'),
   ('\x0b', 'v'), ('\x0c', 'f'), ('\r', 'r'), ('\x1b', 'e'), ('\u0085', 'N'), ('\u2028', 'L'),
   ('\u2029', 'P')]

def escapeChar (c : Char) : List Char :=
  match escapes.lookup c with
  | some e => ['\\', e]
  | none =>
    if isSpecial c then
      let n := c.toNat
      if n < 0x100 then '\\' :: 'x' :: hexCode 2 n
      else if n < 0x10000 then '\\' :: 'u' :: hexCode 4 n
      else '\\' :: 'U' :: hexCode 8 n
    else [c]

def doubleQuote (c : Char) : List Char := if c = '\'' then ['\'', '\''] else [c]

/-- What is said of the line breaks at the end of a text. -/
def chomping (cs : List Char) : List Char :=
  match cs.reverse with
  | '\n' :: '\n' :: _ => ['+']
  | ['\n'] => ['+']
  | '\n' :: _ => []
  | _ => ['-']

/-- A line of a text, indented unless it is empty. -/
def literalLine (indent : Nat) (line : List Char) : List Char :=
  '\n' :: if line.isEmpty then [] else List.replicate indent ' ' ++ line

def literalText (indent : Nat) (cs : List Char) : List Char :=
  let lines := Text.splitOn '\n' cs
  let lines := if cs.getLast? = some '\n' then lines.dropLast else lines
  let hint := if blankFirst cs then ['2'] else []
  '|' :: hint ++ chomping cs ++ lines.flatMap (literalLine indent)

/-- A text; further lines are indented. -/
def writeText (indent : Nat) (s : String) : List Char :=
  let cs := s.toList
  match styleOf s with
  | .plain => cs
  | .single => '\'' :: cs.flatMap doubleQuote ++ ['\'']
  | .double => '"' :: cs.flatMap escapeChar ++ ['"']
  | .literal => literalText indent cs

/-! ## Documents -/

def indentation (n : Nat) : List Char := List.replicate n ' '

mutual

/-- What follows a name or a dash at some indentation: a value on the same line, or further
lines. -/
def writeAfter (indent : Nat) : Json → List Char
  | .null => ' ' :: ['n', 'u', 'l', 'l', '\n']
  | .bool b => ' ' :: Json.boolean b ++ ['\n']
  | .num n => ' ' :: Json.number n ++ ['\n']
  | .str s => ' ' :: writeText (indent + 2) s ++ ['\n']
  | .arr [] => [' ', '[', ']', '\n']
  | .arr (v :: rest) => '\n' :: writeItems indent (v :: rest)
  | .obj [] => [' ', '\x7b', '\x7d', '\n']
  | .obj (m :: rest) => '\n' :: writeMembers (indent + 2) (m :: rest)

/-- The items of a list, each behind a dash; a list or table in it begins on the line of its
dash. -/
def writeItems (indent : Nat) : List Json → List Char
  | [] => []
  -- the first item stands on the line of the dash instead of its indentation
  | .arr (v :: vs) :: rest =>
    indentation indent ++ '-' :: ' ' :: (writeItems (indent + 2) (v :: vs)).drop (indent + 2) ++
      writeItems indent rest
  | .obj (m :: ms) :: rest =>
    indentation indent ++ '-' :: ' ' :: (writeMembers (indent + 2) (m :: ms)).drop (indent + 2) ++
      writeItems indent rest
  | v :: rest => indentation indent ++ '-' :: writeAfter indent v ++ writeItems indent rest

/-- The members of a table, each on a line of its own. -/
def writeMembers (indent : Nat) : List (String × Json) → List Char
  | [] => []
  | (name, v) :: rest =>
    indentation indent ++ writeText indent name ++ ':' :: writeAfter indent v ++
      writeMembers indent rest

end

def ofMembers (members : List (String × Json)) : String :=
  if members.isEmpty then "\x7b\x7d\n" else String.ofList (writeMembers 0 members)

end MockServer.Yaml

namespace MockServer.Json

def toYaml : Json → String
  | .obj members => Yaml.ofMembers members
  | .arr (v :: rest) => String.ofList (Yaml.writeItems 0 (v :: rest))
  | v => String.ofList ((Yaml.writeAfter 0 v).drop 1)

end MockServer.Json
