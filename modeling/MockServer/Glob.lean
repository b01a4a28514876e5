/-
  MockServer.Glob — patterns over whole texts.

  A question mark stands for one character, a star for any text, and
  brackets for one character of a class; no character is special beyond
  that, so `/` is matched like any other.  Two stars form a path
  component of their own: they match nothing, or a text that ends with
  a slash or with the whole.

  Main definitions:
    * `Glob.parse?` — the pattern of a text, or where it is malformed;
    * `Glob.isMatch` — does a text match?
    * `Glob.escape` — the pattern that matches one text only.
-/
import MockServer.Text.Split

namespace MockServer

/-- A member of a class in brackets. -/
inductive GlobSet where
  | single (c : Char)
  | range (low high : Char)
  deriving DecidableEq, Repr

/-- A part of a pattern. -/
inductive GlobToken where
  /-- The character itself. -/
  | char (c : Char)
  /-- Any one character. -/
  | anyChar
  /-- Any text. -/
  | anySequence
  /-- Nothing, or a text up to a slash or to the end. -/
  | anyComponents
  /-- One character of a class, or one outside it. -/
  | oneOf (negated : Bool) (sets : List GlobSet)
  deriving DecidableEq, Repr

/-- What is wrong with a pattern. -/
inductive GlobFault where
  /-- More than two stars in a row. -/
  | wildcards
  /-- Two stars that are no component of their own. -/
  | component
  /-- A bracket without its end. -/
  | bracket
  deriving DecidableEq, Repr

/-- Why a text is no pattern, and at which character. -/
structure GlobError where
  position : Nat
  fault : GlobFault
  deriving DecidableEq, Repr

namespace GlobError

def message (e : GlobError) : String :=
  "Pattern syntax error near position " ++ toString e.position ++ ": " ++
    match e.fault with
    | .wildcards => "wildcards are either regular `*` or recursive `**`"
    | .component => "recursive wildcards must form a single path component"
    | .bracket => "invalid range pattern"

end GlobError

namespace Glob

/-! ## Reading -/

/-- The members of a class from the characters between its brackets. -/
def sets : List Char → List GlobSet
  | [] => []
  | [a] => [.single a]
  | [a, b] => [.single a, .single b]
  | a :: b :: c :: rest =>
    if b = '-' then .range a c :: sets rest else .single a :: sets (b :: c :: rest)

/-- A class from the text after its opening bracket: the part, its length without that bracket,
and the text after it.  The first character of a class is a member even if it is a bracket. -/
def bracket? (cs : List Char) : Option (GlobToken × Nat × List Char) :=
  match cs with
  | '!' :: first :: rest =>
    (Text.splitFirst ']' rest).map fun (inside, after) =>
      (.oneOf true (sets (first :: inside)), inside.length + 3, after)
  | '!' :: [] => none
  | first :: rest =>
    (Text.splitFirst ']' rest).map fun (inside, after) =>
      (.oneOf false (sets (first :: inside)), inside.length + 2, after)
  | [] => none

/-- Adds the part for two stars, unless one was just added. -/
def pushComponents (tokens : List GlobToken) : List GlobToken :=
  match tokens with
  | .anyComponents :: _ :: _ => tokens
  | _ => .anyComponents :: tokens

/-- Reads the rest of a pattern.  `position` counts the characters before it, `previous` is the
last of them, and `tokens` holds the parts so far, newest first; `fuel` bounds the characters. -/
def read : Nat → Nat → Option Char → List GlobToken → List Char →
    Except GlobError (List GlobToken)
  | _, _, _, tokens, [] => .ok tokens.reverse
  | 0, _, _, tokens, _ :: _ => .ok tokens.reverse
  | fuel + 1, position, previous, tokens, c :: rest =>
    if c = '?' then read fuel (position + 1) (some c) (.anyChar :: tokens) rest
    else if c = '*' then
      let stars := 1 + (rest.takeWhile (· = '*')).length
      let rest := rest.dropWhile (· = '*')
      -- the third star in a row is the fault
      if 2 < stars then .error ⟨position + 2, .wildcards⟩
      else if stars = 1 then read fuel (position + 1) (some c) (.anySequence :: tokens) rest
      else if previous = none ∨ previous = some '/' then
        match rest with
        | [] => read fuel (position + 2) (some c) (pushComponents tokens) []
        | d :: rest' =>
          if d = '/' then read fuel (position + 3) (some d) (pushComponents tokens) rest'
          else .error ⟨position + 2, .component⟩
      -- the fault is the character in front of the stars
      else .error ⟨position - 1, .component⟩
    else if c = '[' then
      match bracket? rest with
      | some (token, length, rest) =>
        read fuel (position + 1 + length) (some ']') (token :: tokens) rest
      | none => .error ⟨position, .bracket⟩
    else read fuel (position + 1) (some c) (.char c :: tokens) rest

def parse? (pattern : String) : Except GlobError (List GlobToken) :=
  read pattern.length 0 none [] pattern.toList

/-! ## Matching -/

def GlobSet.has (c : Char) : GlobSet → Bool
  | .single d => c == d
  | .range low high => low ≤ c && c ≤ high

/-- Does a part for one character match it? -/
def accepts (token : GlobToken) (c : Char) : Bool :=
  match token with
  | .char d => c == d
  | .anyChar => true
  | .oneOf negated sets => (sets.any (GlobSet.has c)) != negated
  | .anySequence | .anyComponents => false

/-- What is left after a beginning is dropped: a beginning of any length, or one that ends with a
slash or with the whole text. -/
def endings (onlyAfterSlash : Bool) : List Char → List (List Char)
  | [] => [[]]
  | c :: rest =>
    if onlyAfterSlash && c != '/' then endings onlyAfterSlash rest
    else rest :: endings onlyAfterSlash rest

def isMatch : List GlobToken → List Char → Bool
  | [], cs => cs.isEmpty
  | .anySequence :: rest, cs => (cs :: endings false cs).any (isMatch rest)
  | .anyComponents :: rest, cs => (cs :: endings true cs).any (isMatch rest)
  | _ :: _, [] => false
  | token :: rest, c :: cs => accepts token c && isMatch rest cs

/-! ## Literal patterns -/

def escapeChar (c : Char) : List Char :=
  if c = '?' ∨ c = '*' ∨ c = '[' ∨ c = ']' then ['[', c, ']'] else [c]

def escape (s : String) : String := String.ofList (s.toList.flatMap escapeChar)

end Glob

end MockServer
