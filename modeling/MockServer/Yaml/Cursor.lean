/-
  MockServer.Yaml.Cursor — places in a YAML text.

  A cursor knows what is left of the text and where in the text it is.
  Lines end with a line feed, a carriage return, both together, or one
  of the line breaks of Unicode.
-/

namespace MockServer.Yaml

/-- A place in a text. -/
structure Cursor where
  rest : List Char
  index : Nat
  line : Nat
  column : Nat
  deriving Repr, Inhabited

/-! ## Characters -/

/-- Is the character a space or a tab? -/
def isBlank (c : Char) : Bool := c = ' ' || c = '\t'

def isBreak (c : Char) : Bool :=
  c = '\n' || c = '\r' || c = '\u0085' || c = '\u2028' || c = '\u2029'

def isPrintable (c : Char) : Bool :=
  let n := c.toNat
  n == 0x09 || n == 0x0A || n == 0x0D || (0x20 ≤ n && n ≤ 0x7E) || n == 0x85 ||
  (0xA0 ≤ n && n ≤ 0xFFFD && n != 0xFEFF) || 0x10000 ≤ n

/-- What a line break stands for inside a scalar. -/
def breakChar (c : Char) : Char := if c = '\u2028' || c = '\u2029' then c else '\n'

namespace Cursor

def start (cs : List Char) : Cursor := ⟨cs, 0, 0, 0⟩

/-! ## Looking -/

def atEnd (c : Cursor) : Bool := c.rest.isEmpty

def nextIs (c : Cursor) (p : Char → Bool) : Bool := (c.rest.head?).any p

def startsWith (c : Cursor) (cs : List Char) : Bool := cs.isPrefixOf c.rest

/-- Is the character behind the next `n` ones a blank, a line break or missing? -/
def blankAt (c : Cursor) (n : Nat) : Bool :=
  match c.rest.drop n with
  | [] => true
  | x :: _ => isBlank x || isBreak x

/-- Is there a line that begins or ends a document? -/
def atMarker (c : Cursor) (dash : Char) : Bool :=
  c.column == 0 && c.startsWith [dash, dash, dash] && c.blankAt 3

/-- Is there a line that begins or ends a document? -/
def atDocument (c : Cursor) : Bool := c.atMarker '-' || c.atMarker '.'

/-! ## Moving -/

/-- Behind the next character, which ends no line. -/
def skip (c : Cursor) : Cursor :=
  match c.rest with
  | [] => c
  | _ :: rest => { c with rest, index := c.index + 1, column := c.column + 1 }

/-- Behind a number of characters that end no line. -/
def skipMany (c : Cursor) (n : Nat) : Cursor :=
  { c with rest := c.rest.drop n, index := c.index + n, column := c.column + n }

def skipBreak (c : Cursor) : Cursor :=
  match c.rest with
  | '\r' :: '\n' :: rest => ⟨rest, c.index + 2, c.line + 1, 0⟩
  | _ :: rest => ⟨rest, c.index + 1, c.line + 1, 0⟩
  | [] => c

/-- The characters with a property at the beginning, none of which ends a line, and the place
behind them. -/
def takeWhile (c : Cursor) (p : Char → Bool) : List Char × Cursor :=
  let taken := c.rest.takeWhile p
  (taken, c.skipMany taken.length)

/-- Behind the characters with a property, none of which ends a line. -/
def skipWhile (c : Cursor) (p : Char → Bool) : Cursor := (c.takeWhile p).2

def skipLine (c : Cursor) : Cursor := c.skipWhile fun x => !isBreak x

end Cursor

end MockServer.Yaml
