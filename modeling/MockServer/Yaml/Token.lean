/-
  MockServer.Yaml.Token — the tokens of a YAML text.

  Blocks have no brackets in the text; their beginning and end follow
  from indentation and become tokens of their own.  Whether a scalar is
  a key is only known at the colon behind it, so every place where a key
  may begin is kept as pending, and the tokens for the key are put in
  there afterwards.  A pending key ends with its line.

  Main definitions:
    * `Yaml.Token` — the tokens;
    * `Yaml.Lexer` — the state on the way through a text;
    * `Yaml.tokens?` — the tokens of a text.
-/
import MockServer.Yaml.Scalar
import MockServer.Yaml.Tag

namespace MockServer.Yaml

/-- A token. -/
inductive Token where
  | directive
  | documentStart
  | documentEnd
  | sequenceStart
  | sequenceEnd
  | mappingStart
  | mappingEnd
  | comma
  | blockSequence
  | blockMapping
  | blockEnd
  | entry
  | key
  | value
  | anchor (name : String)
  | alias (name : String)
  /-- A tag; a lone exclamation mark says nothing. -/
  | tag (t : Option Document.Tag)
  /-- A scalar without quotes. -/
  | plain (text : String)
  /-- A scalar in quotes or in a block of its own. -/
  | quoted (text : String)
  deriving DecidableEq, Repr

/-- A place where a key may have begun. -/
structure PendingKey where
  /-- Must it turn out to be a key? -/
  isRequired : Bool
  /-- How many tokens come before it. -/
  position : Nat
  line : Nat
  index : Nat
  column : Nat
  deriving Repr, Inhabited

/-- The state on the way through a text. -/
structure Lexer where
  cursor : Cursor
  /-- The tokens so far, the last one first. -/
  emitted : List Token
  /-- How many flow collections are open. -/
  depth : Nat
  /-- The column of the innermost block. -/
  indent : Int
  /-- The columns of the blocks around it. -/
  outer : List Int
  /-- May a key begin here? -/
  keyAllowed : Bool
  /-- The pending keys of the open flow collections, the innermost first. -/
  keys : List (Option PendingKey)
  deriving Inhabited

namespace Lexer

/-- The state at the beginning of a text. -/
def start (cs : List Char) : Lexer := ⟨.start cs, [], 0, -1, [], true, [none]⟩

def count (l : Lexer) : Nat := l.emitted.length

def emit (l : Lexer) (t : Token) : Lexer := { l with emitted := t :: l.emitted }

/-- Puts a token behind the first `n` tokens. -/
def emitAt (l : Lexer) (n : Nat) (t : Token) : Lexer :=
  let after := l.count - n
  { l with emitted := l.emitted.take after ++ t :: l.emitted.drop after }

/-- Adds a token and goes behind its characters. -/
def consume (l : Lexer) (n : Nat) (t : Token) : Lexer :=
  { l.emit t with cursor := l.cursor.skipMany n }

def allowKey (l : Lexer) (b : Bool) : Lexer := { l with keyAllowed := b }

/-! ## Pending keys -/

def pending (l : Lexer) : Option PendingKey := l.keys.headD none

def setPending (l : Lexer) (k : Option PendingKey) : Lexer := { l with keys := k :: l.keys.tail }

/-- Gives up the innermost pending key, unless it must be one. -/
def dropPending (l : Lexer) : Option Lexer :=
  if l.pending.any PendingKey.isRequired then none else some (l.setPending none)

/-- Keeps the place as one where a key may begin. -/
def savePending (l : Lexer) : Option Lexer :=
  if l.keyAllowed then
    let c := l.cursor
    -- a word at the column of its block can be nothing but a key
    let isRequired := l.depth == 0 && l.indent == (c.column : Int)
    l.dropPending.map fun l =>
      l.setPending (some ⟨isRequired, l.count, c.line, c.index, c.column⟩)
  else some l

/-- Is it too late for a pending key to become one? -/
def isStale (c : Cursor) (k : PendingKey) : Bool :=
  decide (k.line < c.line) || decide (k.index + 1024 < c.index)

/-- Gives up the pending keys for which it is too late, unless one must be a key. -/
def dropStale (l : Lexer) : Option Lexer :=
  if l.keys.any fun k => k.any fun k => k.isRequired && isStale l.cursor k then none
  else some { l with keys := l.keys.map fun k => k.filter fun k => !isStale l.cursor k }

/-! ## Blocks -/

/-- Opens a block at a column unless one is open there; `position` tokens come before it. -/
def openBlock (l : Lexer) (column : Nat) (position : Nat) (t : Token) : Lexer :=
  if l.depth == 0 && decide (l.indent < (column : Int)) then
    { l.emitAt position t with indent := column, outer := l.indent :: l.outer }
  else l

/-- Closes the blocks that are indented by more than a column; `n` bounds their number. -/
def closeBlocks (column : Int) : Nat → Lexer → Lexer
  | 0, l => l
  | n + 1, l =>
    if l.depth == 0 && decide (column < l.indent) then
      closeBlocks column n
        { l.emit .blockEnd with indent := l.outer.headD (-1), outer := l.outer.tail }
    else l

/-- Closes the blocks that are indented by more than a column. -/
def closeTo (l : Lexer) (column : Int) : Lexer := closeBlocks column l.outer.length l

/-! ## Blanks and comments -/

/-- Behind blanks, comments and line breaks; a tab does not count where a key may begin. -/
def skipBlanks : Nat → Lexer → Lexer
  | 0, l => l
  | n + 1, l =>
    let tabs := l.depth != 0 || !l.keyAllowed
    let c := l.cursor.skipWhile fun x => x = ' ' || (tabs && x = '\t')
    -- a comment reaches up to its line break, which is looked at next
    let c := if c.nextIs (· = '#') then c.skipLine else c
    if c.nextIs isBreak then
      skipBlanks n { l with cursor := c.skipBreak, keyAllowed := l.keyAllowed || l.depth == 0 }
    else { l with cursor := c }

/-! ## Tokens -/

/-- Reads a directive, which must be one of the two known ones. -/
def directive (l : Lexer) : Option Lexer := do
  let l ← (l.closeTo (-1)).dropPending
  let c := l.cursor
  if c.startsWith "%YAML 1.1".toList || c.startsWith "%YAML 1.2".toList ||
      c.startsWith "%TAG ".toList then
    return { l.emit .directive with cursor := c.skipLine, keyAllowed := false }
  else none

/-- Reads the beginning or the end of a document. -/
def marker (l : Lexer) (t : Token) : Option Lexer := do
  let l ← (l.closeTo (-1)).dropPending
  return (l.consume 3 t).allowKey false

def openFlow (l : Lexer) (t : Token) : Option Lexer := do
  let l ← l.savePending
  return { (l.consume 1 t).allowKey true with depth := l.depth + 1, keys := none :: l.keys }

def closeFlow (l : Lexer) (t : Token) : Option Lexer := do
  let l ← l.dropPending
  let l := if l.depth = 0 then l else { l with depth := l.depth - 1, keys := l.keys.tail }
  return (l.consume 1 t).allowKey false

def comma (l : Lexer) : Option Lexer := do
  let l ← l.dropPending
  return (l.consume 1 .comma).allowKey true

def entry (l : Lexer) : Option Lexer := do
  if l.depth == 0 && !l.keyAllowed then none
  else
    let l := l.openBlock l.cursor.column l.count .blockSequence
    let l ← l.dropPending
    return (l.consume 1 .entry).allowKey true

def key (l : Lexer) : Option Lexer := do
  if l.depth == 0 && !l.keyAllowed then none
  else
    let l := l.openBlock l.cursor.column l.count .blockMapping
    let l ← l.dropPending
    return (l.consume 1 .key).allowKey (l.depth == 0)

/-- Reads the colon of a value; the pending key becomes one. -/
def value (l : Lexer) : Option Lexer :=
  match l.pending with
  | some k =>
    -- the block begins in front of the key, and the key token is already there
    let l := (l.emitAt k.position .key).openBlock k.column k.position .blockMapping
    some (((l.setPending none).allowKey false).consume 1 .value)
  | none =>
    if l.depth == 0 && !l.keyAllowed then none
    else
      let l := l.openBlock l.cursor.column l.count .blockMapping
      some ((l.allowKey (l.depth == 0)).consume 1 .value)

def anchor (l : Lexer) (t : String → Token) : Option Lexer := do
  let l ← l.savePending
  let (name, c) := l.cursor.skip.takeWhile isWordChar
  if name.isEmpty || !(c.blankAt 0 || c.nextIs fun x => "?:,]\x7d%@\x60".toList.contains x) then
    none
  else return { (l.emit (t (String.ofList name))).allowKey false with cursor := c }

def tag (l : Lexer) : Option Lexer := do
  let l ← l.savePending
  let (t, c) ← tagAt l.cursor
  if c.blankAt 0 || (l.depth != 0 && c.nextIs (· = ',')) then
    return { (l.emit (.tag t)).allowKey false with cursor := c }
  else none

def block (l : Lexer) (isLiteral : Bool) : Option Lexer := do
  let l ← l.dropPending
  let (text, c) ← blockScalar isLiteral l.indent l.cursor.skip
  return { (l.emit (.quoted (String.ofList text))).allowKey true with cursor := c }

def quoted (l : Lexer) (quote : Char) : Option Lexer := do
  let l ← l.savePending
  let (text, c) ← quotedScalar quote l.cursor
  return { (l.emit (.quoted (String.ofList text))).allowKey false with cursor := c }

/-- Reads a plain scalar; behind a line break a key may begin. -/
def plain (l : Lexer) : Option Lexer := do
  let l ← l.savePending
  let (text, broken, c) ← plainScalar (l.depth != 0) (l.indent + 1) l.cursor
  return { (l.emit (.plain (String.ofList text))).allowKey broken with cursor := c }

def beginsPlain (l : Lexer) (x : Char) : Bool :=
  let c := l.cursor
  !("-?:,[]\x7b\x7d#&*!|>'\"%@\x60".toList.contains x || isBlank x || isBreak x) ||
  (x = '-' && !(c.rest.drop 1).head?.any isBlank) ||
  (l.depth == 0 && (x = '?' || x = ':') && !c.blankAt 1)

/-- Reads the token that begins with a character. -/
def token (l : Lexer) (x : Char) : Option Lexer :=
  let c := l.cursor
  if c.column == 0 && x = '%' then l.directive
  else if c.atMarker '-' then l.marker .documentStart
  else if c.atMarker '.' then l.marker .documentEnd
  else if x = '[' then l.openFlow .sequenceStart
  else if x = '\x7b' then l.openFlow .mappingStart
  else if x = ']' then l.closeFlow .sequenceEnd
  else if x = '\x7d' then l.closeFlow .mappingEnd
  else if x = ',' then l.comma
  -- the three signs of block style count only in front of a blank
  else if x = '-' && c.blankAt 1 then l.entry
  else if x = '?' && (l.depth != 0 || c.blankAt 1) then l.key
  else if x = ':' && (l.depth != 0 || c.blankAt 1) then l.value
  else if x = '*' then l.anchor .alias
  else if x = '&' then l.anchor .anchor
  else if x = '!' then l.tag
  else if x = '|' && l.depth == 0 then l.block true
  else if x = '>' && l.depth == 0 then l.block false
  else if x = '\'' || x = '"' then l.quoted x
  else if l.beginsPlain x then l.plain
  else none

/-- Reads all tokens; `n` bounds their number. -/
def run : Nat → Lexer → Option (List Token)
  | 0, _ => none
  | n + 1, l => do
    let l := skipBlanks l.cursor.rest.length l
    -- what is too late to become a key has to be settled before the blocks are
    let l ← l.dropStale
    let l := l.closeTo l.cursor.column
    match l.cursor.rest with
    | [] => do
      let l ← (l.closeTo (-1)).dropPending
      return l.emitted.reverse
    | x :: _ => do
      let l ← l.token x
      run n l

end Lexer

def withoutMark : List Char → List Char
  | '\ufeff' :: cs => cs
  | cs => cs

def tokens? (cs : List Char) : Option (List Token) :=
  let cs := withoutMark cs
  if cs.all isPrintable then Lexer.run (cs.length + 1) (.start cs) else none

end MockServer.Yaml
