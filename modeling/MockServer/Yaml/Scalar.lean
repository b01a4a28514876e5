/-
  MockServer.Yaml.Scalar — scalars of a YAML text.

  Plain and quoted scalars may run over several lines: a single line
  break becomes a space, and of several the first is dropped.  A block
  scalar keeps its line breaks or folds those between lines that are not
  indented further, and its header says what becomes of the breaks at
  its end.
-/
import MockServer.Text.Hex
import MockServer.Yaml.Cursor

namespace MockServer.Yaml

/-! ## Gaps -/

/-- Blanks and line breaks inside a scalar. -/
structure Gap where
  /-- The blanks before the first line break. -/
  blanks : List Char
  /-- Is there a line break, possibly a hidden one? -/
  isBroken : Bool
  /-- The first line break, unless it is hidden. -/
  first : List Char
  /-- The other line breaks. -/
  others : List Char
  deriving Repr, Inhabited

namespace Gap

def none : Gap := ⟨[], false, [], []⟩

/-- A gap that begins with a hidden line break. -/
def hidden : Gap := ⟨[], true, [], []⟩

def text (g : Gap) : List Char :=
  if !g.isBroken then g.blanks
  -- one break is a space, and the first of several is dropped
  else if g.first == ['\n'] then if g.others.isEmpty then [' '] else g.others
  else g.first ++ g.others

/-- Reads on through a gap; nothing if a tab stands where a line is indented by less than
`indent`. -/
def read (indent : Int) : Nat → Gap → Cursor → Option (Gap × Cursor)
  | 0, g, c => some (g, c)
  | n + 1, g, c =>
    match c.rest with
    | [] => some (g, c)
    | x :: _ =>
      if isBlank x then
        if g.isBroken then
          if x = '\t' && decide ((c.column : Int) < indent) then Option.none
          else read indent n g c.skip
        else read indent n { g with blanks := g.blanks ++ [x] } c.skip
      else if isBreak x then
        if g.isBroken then
          read indent n { g with others := g.others ++ [breakChar x] } c.skipBreak
        else read indent n ⟨[], true, [breakChar x], []⟩ c.skipBreak
      else some (g, c)

end Gap

/-! ## Plain scalars -/

/-- Is the character a bracket or comma of flow style? -/
def isFlowMark (x : Char) : Bool :=
  x = ',' || x = '[' || x = ']' || x = '\x7b' || x = '\x7d'

/-- The next run of a plain scalar up to a blank or its end; nothing if a colon stands before a
flow mark. -/
def plainRun (inFlow : Bool) : Nat → List Char → Cursor → Option (List Char × Cursor)
  | 0, acc, c => some (acc.reverse, c)
  | n + 1, acc, c =>
    match c.rest with
    | [] => some (acc.reverse, c)
    | x :: rest =>
      if isBlank x || isBreak x then some (acc.reverse, c)
      -- `[a:]` is a fault rather than the word `a:`
      else if x = ':' && inFlow && rest.head?.any (fun y => isFlowMark y || y = '?') then none
      else if (x = ':' && c.blankAt 1) || (inFlow && isFlowMark x) then some (acc.reverse, c)
      else plainRun inFlow n (x :: acc) c.skip

/-- A plain scalar from the gap in front of its next run on: its text, whether it ends behind a
line break, and the place behind it. -/
def plainFrom (inFlow : Bool) (indent : Int) :
    Nat → List Char → Gap → Cursor → Option (List Char × Bool × Cursor)
  | 0, text, g, c => some (text, g.isBroken, c)
  | n + 1, text, g, c =>
    if c.atDocument || c.nextIs (· = '#') then some (text, g.isBroken, c)
    else
      match plainRun inFlow c.rest.length [] c with
      | none => none
      | some ([], c) => some (text, g.isBroken, c)
      | some (run, c) =>
        let text := text ++ g.text ++ run
        match Gap.read indent c.rest.length .none c with
        | none => none
        | some (next, after) =>
          if next.blanks.isEmpty && !next.isBroken then some (text, false, after)
          -- the next line belongs to a block further out
          else if !inFlow && decide ((after.column : Int) < indent) then
            some (text, next.isBroken, after)
          else plainFrom inFlow indent n text next after

/-- A plain scalar that is indented by at least `indent` outside flow style. -/
def plainScalar (inFlow : Bool) (indent : Int) (c : Cursor) :
    Option (List Char × Bool × Cursor) :=
  plainFrom inFlow indent (c.rest.length + 1) [] .none c

/-! ## Quoted scalars -/

/-- The character that an escape of one letter stands for. -/
def escapeOf? (x : Char) : Option Char :=
  [('0', '\x00'), ('a', '\x07'), ('b', '\x08'), ('t', '\t'), ('\t', '\t'), ('n', '\n'),
   ('v', '\x0b'), ('f', '\x0c'), ('r', '\r'), ('e', '\x1b'), (' ', ' '), ('"', '"'), ('/', '/'),
   ('\\', '\\'), ('N', '\u0085'), ('_', '\u00a0'), ('L', '\u2028'), ('P', '\u2029')].lookup x

def escapeWidth? (x : Char) : Option Nat := [('x', 2), ('u', 4), ('U', 8)].lookup x

/-- The character of a number, unless it is a surrogate or too large. -/
def charOf? (n : Nat) : Option Char :=
  if h : n.isValidChar then some ⟨n.toUInt32, by
    rcases h with h | ⟨h, g⟩
    · left
      simp only [Nat.toUInt32_eq, UInt32.toNat_ofNat']
      omega
    · right
      simp only [Nat.toUInt32_eq, UInt32.toNat_ofNat']
      omega⟩
  else none

/-- The character of an escape behind its backslash, and the place behind it. -/
def escape? (c : Cursor) : Option (Char × Cursor) :=
  match c.rest with
  | [] => none
  | x :: rest =>
    match escapeOf? x with
    | some y => some (y, c.skip)
    | none => do
      let width ← escapeWidth? x
      let digits := rest.take width
      if digits.length = width then
        let n ← Text.Hex.number? digits
        let y ← charOf? n
        return (y, c.skipMany (width + 1))
      else none

/-- A run of a quoted scalar up to a blank or its end: what it stands for, whether it ends with a
hidden line break, and the place behind it. -/
def quotedRun (quote : Char) : Nat → List Char → Cursor → Option (List Char × Bool × Cursor)
  | 0, acc, c => some (acc.reverse, false, c)
  | n + 1, acc, c =>
    match c.rest with
    | [] => some (acc.reverse, false, c)
    | x :: rest =>
      if isBlank x || isBreak x then some (acc.reverse, false, c)
      else if x = quote then
        if quote = '\'' && rest.head? == some '\'' then
          quotedRun quote n ('\'' :: acc) (c.skipMany 2)
        else some (acc.reverse, false, c)
      else if quote = '"' && x = '\\' then
        -- a backslash hides the break behind it
        if rest.head?.any isBreak then some (acc.reverse, true, c.skip.skipBreak)
        else
          match escape? c.skip with
          | some (y, c) => quotedRun quote n (y :: acc) c
          | none => none
      else quotedRun quote n (x :: acc) c.skip

/-- A quoted scalar behind its opening quote: its text and the place behind the closing one. -/
def quotedFrom (quote : Char) : Nat → List Char → Cursor → Option (List Char × Cursor)
  | 0, _, _ => none
  | n + 1, text, c =>
    if c.atDocument then none
    else
      match quotedRun quote c.rest.length [] c with
      | none => none
      | some (run, broken, c) =>
        let text := text ++ run
        if c.atEnd then none
        else if c.nextIs (· = quote) then some (text, c.skip)
        else
          match Gap.read 0 c.rest.length (if broken then .hidden else .none) c with
          | none => none
          | some (g, c) => quotedFrom quote n (text ++ g.text) c

def quotedScalar (quote : Char) (c : Cursor) : Option (List Char × Cursor) :=
  quotedFrom quote (c.rest.length + 1) [] c.skip

/-! ## Block scalars -/

/-- What becomes of the line breaks at the end of a block scalar. -/
inductive Chomping where
  | strip
  | clip
  | keep
  deriving DecidableEq, Repr

/-- The sign of a way to treat final line breaks. -/
def chompingOf? (x : Char) : Option Chomping := [('+', Chomping.keep), ('-', .strip)].lookup x

/-- A number of spaces from 1 to 9. -/
def incrementOf? (x : Char) : Option Nat :=
  if x.isDigit && x != '0' then some (x.toNat - 48) else none

/-- The header of a block scalar in either order: what becomes of final line breaks, and the
number of spaces if it is given. -/
def blockHeader (c : Cursor) : Chomping × Option Nat × Cursor :=
  match c.rest with
  | x :: y :: _ =>
    match chompingOf? x, incrementOf? x, chompingOf? y, incrementOf? y with
    | some k, _, _, some n => (k, some n, c.skipMany 2)
    | some k, _, _, none => (k, none, c.skip)
    | none, some n, some k, _ => (k, some n, c.skipMany 2)
    | none, some n, none, _ => (.clip, some n, c.skip)
    | none, none, _, _ => (.clip, none, c)
  | [x] =>
    match chompingOf? x, incrementOf? x with
    | some k, _ => (k, none, c.skip)
    | none, some n => (.clip, some n, c.skip)
    | none, none => (.clip, none, c)
  | [] => (.clip, none, c)

/-- The empty lines in front of a line: their breaks, the deepest column, and the place behind
the indentation of the line; without a known indentation all spaces count as such. -/
def emptyLines (indent : Option Nat) :
    Nat → List Char → Nat → Cursor → Option (List Char × Nat × Cursor)
  | 0, acc, most, c => some (acc, most, c)
  | n + 1, acc, most, c =>
    match c.rest with
    | [] => some (acc, max most c.column, c)
    | x :: _ =>
      let isInside := indent.all fun i => decide (c.column < i)
      -- still within the indentation of the line
      if isInside && x = ' ' then emptyLines indent n acc most c.skip
      else if isInside && x = '\t' then none
      else
        let most := max most c.column
        if isBreak x then emptyLines indent n (acc ++ [breakChar x]) most c.skipBreak
        else some (acc, most, c)

/-- The lines of a block scalar with a known indentation. `first` is the break behind the last
line and `others` are those of the empty lines after it. -/
def blockLines (isLiteral : Bool) (indent : Nat) :
    Nat → List Char → List Char → List Char → Bool → Cursor →
    Option (List Char × List Char × List Char × Cursor)
  | 0, text, first, others, _, c => some (text, first, others, c)
  | n + 1, text, first, others, wasBlank, c =>
    if c.column == indent && !c.atEnd then
      let isBlank := c.nextIs isBlank
      let joint :=
        -- lines are folded only between two that start with a character
        if !isLiteral && first == ['\n'] && !wasBlank && !isBlank then
          if others.isEmpty then [' '] else []
        else first
      let (line, c) := c.takeWhile fun x => !isBreak x
      let text := text ++ joint ++ others ++ line
      let (first, c) :=
        match c.rest with
        | [] => ([], c)
        | x :: _ => ([breakChar x], c.skipBreak)
      match emptyLines (some indent) (c.rest.length + 1) [] 0 c with
      | none => none
      | some (others, _, c) => blockLines isLiteral indent n text first others isBlank c
    else some (text, first, others, c)

/-- A block scalar behind its sign, within a block that is indented by `parent`. -/
def blockScalar (isLiteral : Bool) (parent : Int) (c : Cursor) : Option (List Char × Cursor) :=
  let (chomping, increment, c) := blockHeader c
  let c := c.skipWhile isBlank
  let c := if c.nextIs (· = '#') then c.skipLine else c
  if !c.atEnd && !c.nextIs isBreak then none
  else
    let c := if c.atEnd then c else c.skipBreak
    let given : Option Nat := increment.map fun n => (max parent 0).toNat + n
    match emptyLines given (c.rest.length + 1) [] 0 c with
    | none => none
    | some (breaks, most, c) =>
      -- without a header the deepest of the first lines sets the indentation
      let indent := given.getD (max (max most (parent + 1).toNat) 1)
      match blockLines isLiteral indent (c.rest.length + 1) [] [] breaks false c with
      | none => none
      | some (text, first, others, c) =>
        some (text ++ (if chomping = .strip then [] else first) ++
          (if chomping = .keep then others else []), c)

end MockServer.Yaml
