/-
  MockServer.Run.Template — texts with holes for variables.

  A hole is a name between doubled braces.  The name is not empty and
  has no closing brace; braces that enclose no such name are literal
  text.  Holes are found from left to right, and what is put into one
  is not looked at again.

  Main definitions:
    * `Template.parse` — the pieces of a text;
    * `Template.fill` — the text with its holes filled, or the names
      that have no value.
-/
import MockServer.Dict

namespace MockServer.Run

/-- A piece of a text with holes. -/
inductive Piece where
  /-- A character that stands for itself. -/
  | literal (c : Char)
  /-- A hole for the value of a name. -/
  | hole (name : List Char)
  deriving DecidableEq, Repr

/-- Why a text cannot be filled or a condition not be decided. -/
inductive ScopeError where
  /-- Names without a value, in order of appearance. -/
  | missing (names : List String)
  deriving DecidableEq, Repr

def ScopeError.message : ScopeError → String
  | .missing names => "missing variables: " ++ ", ".intercalate names

namespace Template

/-! ## Pieces -/

def isInner (c : Char) : Bool := c != '\x7d'

/-- The name and the rest of a text that begins behind an opening pair of braces. -/
def hole? (cs : List Char) : Option (List Char × List Char) :=
  match cs.takeWhile isInner, cs.dropWhile isInner with
  | c :: name, '\x7d' :: '\x7d' :: rest => some (c :: name, rest)
  | _, _ => none

/-- A hole uses up some of the text. -/
theorem hole?_length {cs name rest : List Char} (h : hole? cs = some (name, rest)) :
    rest.length < cs.length := by
  have hl : (cs.dropWhile isInner).length ≤ cs.length := (List.dropWhile_suffix _).length_le
  unfold hole? at h
  split at h
  · next hd =>
    cases h
    rw [hd] at hl
    simp only [List.length_cons] at hl
    omega
  · contradiction

def parse : List Char → List Piece
  | '\x7b' :: '\x7b' :: inner =>
    match _h : hole? inner with
    | some (name, after) => .hole name :: parse after
    -- the second brace may still open a hole
    | none => .literal '\x7b' :: parse ('\x7b' :: inner)
  | c :: rest => .literal c :: parse rest
  | [] => []
termination_by cs => cs.length
decreasing_by
  · have := hole?_length _h
    simp only [List.length_cons]
    omega
  · simp
  · simp

/-! ## Filling -/

/-- The names of the holes that have no value. -/
def missing (scope : Dict String) (pieces : List Piece) : List String :=
  pieces.filterMap fun
    | .hole name =>
      if scope.contains (String.ofList name) then none else some (String.ofList name)
    | .literal _ => none

/-- A piece with the value of its name put in. -/
def put (scope : Dict String) : Piece → List Char
  | .literal c => [c]
  | .hole name => ((scope.get? (String.ofList name)).getD "").toList

/-- The text with every hole filled, if every name has a value. -/
def fillChars (scope : Dict String) (cs : List Char) : Except ScopeError (List Char) :=
  let pieces := parse cs
  match missing scope pieces with
  | [] => .ok (pieces.flatMap (put scope))
  | names => .error (.missing names)

/-- The text with every hole filled, if every name has a value. -/
def fill (scope : Dict String) (text : String) : Except ScopeError String :=
  (fillChars scope text.toList).map String.ofList

end Template

end MockServer.Run
