/-
  MockServer.Entity.Feature — features, their scenarios, and which
  scenario is active for whom.

  A feature is a named family of mock behaviours and a scenario one
  variant of it.  An activation names the scenario that answers for a
  feature, either for one account or, without an account, for everybody
  else.
-/
import MockServer.Document.Basic
import MockServer.Json.Build
import MockServer.Timestamp
import MockServer.Uuid

namespace MockServer

/-- What a new record gets from outside: an identifier and the time. -/
structure Stamp where
  id : Uuid
  now : Timestamp
  deriving DecidableEq, Repr, Inhabited

/-- A named family of mock behaviours. -/
structure Feature where
  id : Uuid
  name : String
  description : String
  isActive : Bool
  createdAt : Timestamp
  updatedAt : Timestamp
  deriving DecidableEq, Repr, Inhabited

/-- A named variant of the responses of a feature. -/
structure Scenario where
  id : Uuid
  featureName : String
  name : String
  description : String
  isActive : Bool
  createdAt : Timestamp
  updatedAt : Timestamp
  deriving DecidableEq, Repr, Inhabited

/-- Which scenario is active for a feature; without an account, for every account that has none
of its own. -/
structure Activation where
  id : Uuid
  featureName : String
  scenarioId : Uuid
  account : Option String
  createdAt : Timestamp
  updatedAt : Timestamp
  deriving DecidableEq, Repr, Inhabited

namespace Document

def uuid? (d : Document) : Option Uuid := d.text?.bind Uuid.parse?

def timestamp? (d : Document) : Option Timestamp := d.text?.bind Timestamp.parse?

end Document

namespace Json

def uuid (u : Uuid) : Json := .str u.toText

def timestamp (t : Timestamp) : Json := .str t.toText

end Json

namespace Feature

def new (stamp : Stamp) (name : String) : Feature :=
  ⟨stamp.id, name, "", true, stamp.now, stamp.now⟩

def ofDocument? (d : Document) : Option Feature := do
  let f ← d.fields? ["id", "name", "description", "is_active", "created_at", "updated_at"]
  return {
    id := ← f.required "id" Document.uuid?
    name := ← f.required "name" Document.text?
    description := ← f.text "description"
    isActive := ← f.optional "is_active" true Document.bool?
    createdAt := ← f.required "created_at" Document.timestamp?
    updatedAt := ← f.required "updated_at" Document.timestamp? }

def toJson (x : Feature) : Json :=
  .record [
    .always "id" (.uuid x.id),
    .always "name" (.str x.name),
    .always "description" (.str x.description),
    .always "is_active" (.bool x.isActive),
    .always "created_at" (.timestamp x.createdAt),
    .always "updated_at" (.timestamp x.updatedAt)]

end Feature

namespace Scenario

def new (stamp : Stamp) (featureName name : String) : Scenario :=
  ⟨stamp.id, featureName, name, "", true, stamp.now, stamp.now⟩

def ofDocument? (d : Document) : Option Scenario := do
  let f ← d.fields?
    ["id", "feature_name", "name", "description", "is_active", "created_at", "updated_at"]
  return {
    id := ← f.required "id" Document.uuid?
    featureName := ← f.required "feature_name" Document.text?
    name := ← f.required "name" Document.text?
    description := ← f.text "description"
    isActive := ← f.optional "is_active" true Document.bool?
    createdAt := ← f.required "created_at" Document.timestamp?
    updatedAt := ← f.required "updated_at" Document.timestamp? }

def toJson (x : Scenario) : Json :=
  .record [
    .always "id" (.uuid x.id),
    .always "feature_name" (.str x.featureName),
    .always "name" (.str x.name),
    .always "description" (.str x.description),
    .always "is_active" (.bool x.isActive),
    .always "created_at" (.timestamp x.createdAt),
    .always "updated_at" (.timestamp x.updatedAt)]

end Scenario

namespace Activation

def new (stamp : Stamp) (featureName : String) (scenarioId : Uuid) (account : Option String) :
    Activation :=
  ⟨stamp.id, featureName, scenarioId, account, stamp.now, stamp.now⟩

/-- Does the activation hold for every account without one of its own? -/
def isGlobal (x : Activation) : Bool := x.account.isNone

def ofDocument? (d : Document) : Option Activation := do
  let f ← d.fields?
    ["id", "feature_name", "scenario_id", "account_id", "created_at", "updated_at"]
  return {
    id := ← f.required "id" Document.uuid?
    featureName := ← f.required "feature_name" Document.text?
    scenarioId := ← f.required "scenario_id" Document.uuid?
    account := ← f.nullable "account_id" Document.text?
    createdAt := ← f.required "created_at" Document.timestamp?
    updatedAt := ← f.required "updated_at" Document.timestamp? }

/-- Writes an activation; a missing account is left out. -/
def toJson (x : Activation) : Json :=
  .record [
    .always "id" (.uuid x.id),
    .always "feature_name" (.str x.featureName),
    .always "scenario_id" (.uuid x.scenarioId),
    .whenSome "account_id" x.account .str,
    .always "created_at" (.timestamp x.createdAt),
    .always "updated_at" (.timestamp x.updatedAt)]

end Activation

end MockServer
