/-
  MockServer.Entity.Mock — stored mocks: which request they answer, and
  with what.

  A mock answers the requests of one scenario with one path, method and
  body.  The path is stored with its query in canonical form, the
  method in upper case, and the body as its fingerprint.
-/
import MockServer.Entity.Feature
import MockServer.Fingerprint
import MockServer.Text.Case
import MockServer.Url.Lookup

namespace MockServer

/-- What a request is looked up by. -/
structure MockKey where
  featureName : String
  scenarioName : String
  path : String
  method : String
  hash : String
  deriving DecidableEq, Repr, Inhabited

/-- A stored request and its response. -/
structure Mock where
  id : Uuid
  featureName : String
  scenarioName : String
  name : String
  description : String
  path : String
  method : String
  /-- The body the mock answers to, kept for reference. -/
  input : Json
  /-- The fingerprint of the body. -/
  hash : String
  /-- The headers of the response. -/
  headers : Option Json
  /-- The body of the response. -/
  output : Json
  isActive : Bool
  createdAt : Timestamp
  updatedAt : Timestamp
  deriving DecidableEq, Repr, Inhabited

namespace Mock

/-- A new active mock without a name or headers. -/
def new (stamp : Stamp) (featureName scenarioName path method : String) (input output : Json) :
    Mock :=
  { id := stamp.id
    featureName
    scenarioName
    name := ""
    description := ""
    path := Url.Lookup.canonical path
    method := Text.upper method
    input
    hash := Fingerprint.ofValue input
    headers := none
    output
    isActive := true
    createdAt := stamp.now
    updatedAt := stamp.now }

/-- Does the mock answer this lookup?  Methods are compared up to ASCII case. -/
def answers (m : Mock) (k : MockKey) : Bool :=
  m.featureName == k.featureName && m.scenarioName == k.scenarioName && m.path == k.path &&
    Text.sameFold m.method k.method && m.hash == k.hash

/-- What the mock itself is looked up by. -/
def key (m : Mock) : MockKey := ⟨m.featureName, m.scenarioName, m.path, m.method, m.hash⟩

def ofDocument? (d : Document) : Option Mock := do
  let f ← d.fields?
    ["id", "feature_name", "scenario_name", "name", "description", "path", "method", "input",
     "hash_input", "headers", "output", "is_active", "created_at", "updated_at"]
  return {
    id := ← f.required "id" Document.uuid?
    featureName := ← f.required "feature_name" Document.text?
    scenarioName := ← f.required "scenario_name" Document.text?
    name := ← f.text "name"
    description := ← f.text "description"
    path := ← f.required "path" Document.text?
    method := ← f.required "method" Document.text?
    input := ← f.optional "input" .null Document.value?
    hash := ← f.text "hash_input"
    headers := ← f.nullable "headers" Document.value?
    output := ← f.required "output" Document.value?
    isActive := ← f.optional "is_active" true Document.bool?
    createdAt := ← f.required "created_at" Document.timestamp?
    updatedAt := ← f.required "updated_at" Document.timestamp? }

/-- Writes a mock; missing headers are left out. -/
def toJson (x : Mock) : Json :=
  .record [
    .always "id" (.uuid x.id),
    .always "feature_name" (.str x.featureName),
    .always "scenario_name" (.str x.scenarioName),
    .always "name" (.str x.name),
    .always "description" (.str x.description),
    .always "path" (.str x.path),
    .always "method" (.str x.method),
    .always "input" x.input,
    .always "hash_input" (.str x.hash),
    .whenSome "headers" x.headers fun v => v,
    .always "output" x.output,
    .always "is_active" (.bool x.isActive),
    .always "created_at" (.timestamp x.createdAt),
    .always "updated_at" (.timestamp x.updatedAt)]

end Mock

end MockServer
