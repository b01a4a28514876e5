/-
  MockServer.Json.Build — records written as JSON.

  A record is written member by member in the order of its fields; a
  member may be left out when it holds nothing.
-/
import MockServer.Json.Basic

namespace MockServer.Json

def nat (n : Nat) : Json := .num (.int n)

/-- A text, or null. -/
def textOrNull (s : Option String) : Json := (s.map Json.str).getD .null

/-- A field of a record as written: one member, or none. -/
structure Field where
  members : List (String × Json)

namespace Field

def always (name : String) (v : Json) : Field := ⟨[(name, v)]⟩

/-- A member that is left out on a condition. -/
def omitWhen (skip : Bool) (name : String) (v : Json) : Field :=
  if skip then ⟨[]⟩ else ⟨[(name, v)]⟩

/-- A member that is written when there is a value. -/
def whenSome {α : Type} (name : String) (v : Option α) (write : α → Json) : Field :=
  match v with
  | some v => ⟨[(name, write v)]⟩
  | none => ⟨[]⟩

end Field

/-- A record, field after field. -/
def record (fields : List Field) : Json := .obj (fields.flatMap Field.members)

def textTable (d : Dict String) : Json := .obj (d.entries.map fun e => (e.1, .str e.2))

end MockServer.Json
