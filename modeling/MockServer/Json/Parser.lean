/-
  MockServer.Json.Parser — documents from tokens.

  One token at a time is fed to a machine whose state is the stack of
  containers still open and what may come next, so a text of any
  nesting is read in one pass over its tokens.  At most 127 containers
  may be open at once.

  Main definitions:
    * `Json.parse?` — the document of a text, members in text order;
    * `Json.settle` — the same document as a value: members ordered by
      name, the last one of each name kept.
-/
import MockServer.Json.Token
import MockServer.Text.Utf8

namespace MockServer.Json

/-! ## The machine -/

/-- An open container, with what it holds so far, newest first. -/
inductive Frame where
  /-- An array. -/
  | array (items : List Json)
  /-- An object, waiting for the value of a member name. -/
  | object (members : List (String × Json)) (name : String)
  deriving Repr

/-- What may come next. -/
inductive Reading where
  /-- A value. -/
  | value (stack : List Frame)
  /-- The first item of an array, or its end. -/
  | firstItem (stack : List Frame)
  /-- The first name of an object, or its end. -/
  | firstName (stack : List Frame)
  /-- A further name of an object. -/
  | name (members : List (String × Json)) (stack : List Frame)
  /-- The colon after a name. -/
  | colon (members : List (String × Json)) (name : String) (stack : List Frame)
  /-- A comma or the end of the array. -/
  | afterItem (items : List Json) (stack : List Frame)
  /-- A comma or the end of the object. -/
  | afterMember (members : List (String × Json)) (stack : List Frame)
  /-- Nothing: the document is complete. -/
  | done (v : Json)
  deriving Repr

def maxOpen : Nat := 127

/-- Puts a complete value where the stack expects it. -/
def deliver (v : Json) : List Frame → Reading
  | [] => .done v
  | .array items :: stack => .afterItem (v :: items) stack
  | .object members name :: stack => .afterMember ((name, v) :: members) stack

def begin? (t : JsonToken) (stack : List Frame) : Option Reading :=
  match t with
  | .scalar v => some (deliver v stack)
  | .openArray => if stack.length < maxOpen then some (.firstItem stack) else none
  | .openObject => if stack.length < maxOpen then some (.firstName stack) else none
  | _ => none

/-- The name of a member from its token. -/
def nameOf? : JsonToken → Option String
  | .scalar (.str s) => some s
  | _ => none

def feed? : Reading → JsonToken → Option Reading
  | .value stack, t => begin? t stack
  | .firstItem stack, t =>
    match t with
    | .closeArray => some (deliver (.arr []) stack)
    | t => begin? t (.array [] :: stack)
  | .firstName stack, t =>
    match t with
    | .closeObject => some (deliver (.obj []) stack)
    | t => (nameOf? t).map fun name => .colon [] name stack
  | .name members stack, t => (nameOf? t).map fun name => .colon members name stack
  | .colon members name stack, t =>
    match t with
    | .colon => some (.value (.object members name :: stack))
    | _ => none
  | .afterItem items stack, t =>
    match t with
    | .comma => some (.value (.array items :: stack))
    | .closeArray => some (deliver (.arr items.reverse) stack)
    | _ => none
  | .afterMember members stack, t =>
    match t with
    | .comma => some (.name members stack)
    | .closeObject => some (deliver (.obj members.reverse) stack)
    | _ => none
  | .done _, _ => none

def ofTokens? (ts : List JsonToken) : Option Json :=
  match ts.foldlM feed? (.value []) with
  | some (.done v) => some v
  | _ => none

/-- The document of a list of characters, members in text order. -/
def parseChars? (cs : List Char) : Option Json := (JsonToken.lex? cs).bind ofTokens?

def parse? (s : String) : Option Json := parseChars? s.toList

/-- The document of a byte sequence, which must be well-formed UTF-8. -/
def parseBytes? (bytes : List UInt8) : Option Json := (Text.Utf8.decode? bytes).bind parseChars?

/-! ## Values -/

mutual

/-- The document as a value: at every depth the members are ordered by name and the last one of
each name is kept. -/
def settle : Json → Json
  | .arr items => .arr (settleItems items)
  | .obj members => .obj (Dict.ofList (settleMembers members)).entries
  | .null => .null
  | .bool b => .bool b
  | .num n => .num n
  | .str s => .str s

def settleItems : List Json → List Json
  | [] => []
  | v :: rest => settle v :: settleItems rest

def settleMembers : List (String × Json) → List (String × Json)
  | [] => []
  | (name, v) :: rest => (name, settle v) :: settleMembers rest

end

def value? (s : String) : Option Json := (parse? s).map settle

/-! ## Access -/

/-- The member of an object by its name; of repeated names the last one. -/
def member? (v : Json) (name : String) : Option Json :=
  match v with
  | .obj members => members.reverse.lookup name
  | _ => none

def isObject : Json → Bool
  | .obj _ => true
  | _ => false

end MockServer.Json
