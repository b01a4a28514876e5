/-
  MockServer.Document.Basic — records read from JSON or YAML.

  A record of the library (a fixture, a configuration, a result) can be
  written in either format.  Both are brought to one tree first; the
  only scalars whose meaning depends on what is asked for are the
  unquoted words of YAML, so the tree keeps them as words.  A tag in
  front of a YAML node counts where any value is asked for, and where a
  value may be absent; elsewhere it is passed over.

  Rules for records: an unknown field is ignored, a known one may not
  be repeated, and a missing one needs a default.  A JSON array stands
  for a record by position, and a JSON object with a single null for the
  choice that it names; in YAML a tag names the choice.

  Main definitions:
    * `Document` — the tree;
    * `text?`, `nat?`, `value?`, … — what a tree means as a type;
    * `Fields.required`, `Fields.optional` — the fields of a record.
-/
import MockServer.Document.Scalar
import MockServer.Json.Parser

namespace MockServer

/-- What a tag says about the node behind it. -/
inductive Document.Tag where
  | null | bool | int | float
  | named (name : String)
  | other
  deriving DecidableEq, Repr

/-- A tree of scalars, lists and tables. -/
inductive Document where
  /-- A scalar with one meaning. -/
  | fixed (v : Json)
  /-- An unquoted word. -/
  | word (text : String)
  /-- A list; `positional` if it may stand for a record. -/
  | list (items : List Document) (positional : Bool)
  /-- A table; `variant` if it may stand for a choice. -/
  | table (entries : List (Document × Document)) (variant : Bool)
  /-- A node with a tag, which has no second one. -/
  | tagged (tag : Document.Tag) (d : Document)
  deriving Repr, Inhabited

namespace Document

/-! ## From JSON -/

mutual

def ofJson : Json → Document
  | .arr items => .list (ofItems items) true
  | .obj members => .table (ofMembers members) true
  | .null => .fixed .null
  | .bool b => .fixed (.bool b)
  | .num n => .fixed (.num n)
  | .str s => .fixed (.str s)

/-- The trees of a list of JSON documents. -/
def ofItems : List Json → List Document
  | [] => []
  | v :: rest => ofJson v :: ofItems rest

/-- The entries of a list of JSON members. -/
def ofMembers : List (String × Json) → List (Document × Document)
  | [] => []
  | (name, v) :: rest => (.fixed (.str name), ofJson v) :: ofMembers rest

end

def ofJsonText? (s : String) : Option Document := (Json.parse? s).map ofJson

/-! ## Scalars -/

def bare : Document → Document
  | .tagged _ d => d
  | d => d

/-- A text; a word is its own text. -/
def text? (d : Document) : Option String :=
  match d.bare with
  | .fixed (.str s) => some s
  | .word s => some s
  | _ => none

def bool? (d : Document) : Option Bool :=
  match d.bare with
  | .fixed (.bool b) => some b
  | .word s => Scalar.bool? s
  | _ => none

def nat? (bound : Nat) (d : Document) : Option Nat :=
  let n : Option Nat := match d.bare with
    | .fixed (.num (.int n)) => if 0 ≤ n then some n.toNat else none
    | .word s => Scalar.nat? s
    | _ => none
  n.filter (· < bound)

def uint16? (d : Document) : Option UInt16 := (d.nat? UInt16.size).map UInt16.ofNat

def uint32? (d : Document) : Option UInt32 := (d.nat? UInt32.size).map UInt32.ofNat

def uint64? (d : Document) : Option UInt64 := (d.nat? UInt64.size).map UInt64.ofNat

/-- An integer of `bits` bits with a sign. -/
def int? (bits : Nat) (d : Document) : Option Int :=
  let n : Option Int := match d.bare with
    | .fixed (.num (.int n)) => some n
    | .word s =>
      match Scalar.nat? s with
      | some n => some n
      | none => (Scalar.negative? s).map fun n => -(n : Int)
    | _ => none
  n.filter fun n => decide (-(Nat.pow 2 (bits - 1) : Int) ≤ n) && decide (n < Nat.pow 2 (bits - 1))

/-- A double; an integer is the nearest one. -/
def float? (d : Document) : Option Decimal.Binary64 :=
  match d.bare with
  | .fixed (.num (.float x)) => some x
  | .fixed (.num (.int n)) => some (Decimal.Binary64.ofInt n)
  | .word s =>
    match Scalar.float? s with
    | some (.finite x) => some x
    | _ => none
  | _ => none

/-- Does the tree say that there is no value? -/
def isNull : Document → Bool
  | .fixed .null => true
  | .word s => s.isEmpty || Scalar.isNull s
  | _ => false

/-- A value that may be absent; with a tag it is there, unless the tag says that it is not. -/
def nullable? {α : Type} (read : Document → Option α) (d : Document) : Option (Option α) :=
  match d with
  | .tagged .null (.word s) => if Scalar.isNull s then some none else none
  | d => if d.isNull then some none else (read d).map some

/-! ## Containers -/

/-- The items of a list; an empty word is an empty list. -/
def items? (d : Document) : Option (List Document) :=
  match d.bare with
  | .list items _ => some items
  | .word s => if s.isEmpty then some [] else none
  | _ => none

/-- A list with every item read the same way. -/
def listOf? {α : Type} (read : Document → Option α) (d : Document) : Option (List α) :=
  d.items?.bind (List.mapM read)

/-- The entries of a table whose names are texts; an empty word is an empty table. -/
def entries? (d : Document) : Option (List (String × Document)) :=
  match d.bare with
  | .table entries _ => entries.mapM fun e => e.1.text?.map fun name => (name, e.2)
  | .word s => if s.isEmpty then some [] else none
  | _ => none

/-- A table with every value read the same way; the last entry for a name counts. -/
def dictOf? {α : Type} (read : Document → Option α) (d : Document) : Option (Dict α) := do
  let entries ← d.entries?
  let values ← entries.mapM fun e => (read e.2).map fun v => (e.1, v)
  return Dict.ofList values

/-- The value of a scalar with a tag. -/
def Tag.value? (tag : Tag) (text : String) : Option Json :=
  match tag with
  | null => if Scalar.isNull text then some .null else none
  | bool => (Scalar.bool? text).map .bool
  | int => Scalar.integer? text
  | float => (Scalar.float? text).map Scalar.double
  | named _ => none
  | other => some (.str text)

mutual

/-- Any value at all; a node with a name of the text's own is none. -/
def value? : Document → Option Json
  | .fixed v => some v
  | .word s => Scalar.value? s
  | .list items _ => (valueItems? items).map .arr
  | .table entries _ => (valueEntries? entries).map fun es => .obj (Dict.ofList es).entries
  | .tagged (.named _) _ => none
  | .tagged tag (.word s) => tag.value? s
  | .tagged tag (.fixed (.str s)) => tag.value? s
  | .tagged _ d => value? d

def valueItems? : List Document → Option (List Json)
  | [] => some []
  | d :: rest =>
    match value? d, valueItems? rest with
    | some v, some vs => some (v :: vs)
    | _, _ => none

def valueEntries? : List (Document × Document) → Option (List (String × Json))
  | [] => some []
  | (k, d) :: rest =>
    match k.text?, value? d, valueEntries? rest with
    | some name, some v, some vs => some ((name, v) :: vs)
    | _, _, _ => none

end

/-! ## Records -/

/-- The fields of a record by name. -/
structure Fields where
  entries : List (String × Document)
  deriving Repr

/-- The fields of a record that knows the given names; a repeated known name is refused, and a
list may give the fields in the order of the names. -/
def fields? (names : List String) (d : Document) : Option Fields :=
  match d with
  | .list items true =>
    if items.length ≤ names.length then some ⟨names.zip items⟩ else none
  | d => do
    let entries ← d.entries?
    -- a repeated unknown field says nothing, and does no harm
    let known := (entries.map Prod.fst).filter names.contains
    if decide known.Nodup then some ⟨entries⟩ else none

namespace Fields

variable {α : Type}

def get? (f : Fields) (name : String) : Option Document := f.entries.lookup name

def required (f : Fields) (name : String) (read : Document → Option α) : Option α :=
  (f.get? name).bind read

/-- A field with a value for its absence. -/
def optional (f : Fields) (name : String) (absent : α) (read : Document → Option α) : Option α :=
  match f.get? name with
  | none => some absent
  | some d => read d

/-- A field that may be absent or null. -/
def nullable (f : Fields) (name : String) (read : Document → Option α) : Option (Option α) :=
  f.optional name none (Document.nullable? read)

/-- A text field that is empty when absent. -/
def text (f : Fields) (name : String) : Option String := f.optional name "" Document.text?

end Fields

/-- One of a fixed list of named choices, written as its name. -/
def choice? {α : Type} (choices : List (String × α)) (d : Document) : Option α :=
  match d with
  | .table [(k, v)] true => if v.isNull then k.text?.bind (List.lookup · choices) else none
  | .tagged (.named name) d => if d.isNull then choices.lookup name else none
  | d => d.text?.bind (List.lookup · choices)

end Document

end MockServer
