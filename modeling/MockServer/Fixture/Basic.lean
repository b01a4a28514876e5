/-
  MockServer.Fixture.Basic — records written down to start a server
  with.

  A fixture lists features, scenarios, mocks, activations and load
  tests.  Scenarios are named by feature and name; the body of a mock
  is given as a document and its fingerprint taken when it is stored.
-/
import MockServer.Entity.LoadTest
import MockServer.Store.Error

namespace MockServer

namespace Fixture

/-- A feature to have. -/
structure FeatureEntry where
  name : String
  description : String
  deriving DecidableEq, Repr, Inhabited

/-- A scenario to have; its feature is added when it is not there. -/
structure ScenarioEntry where
  feature : String
  name : String
  description : String
  deriving DecidableEq, Repr, Inhabited

/-- A mock to have. -/
structure MockEntry where
  feature : String
  scenario : String
  name : String
  path : String
  method : String
  input : Json
  headers : Option Json
  output : Json
  isActive : Bool
  deriving DecidableEq, Repr, Inhabited

/-- A scenario to make active, for one account or for everybody. -/
structure ActivationEntry where
  feature : String
  scenario : String
  account : Option String
  deriving DecidableEq, Repr, Inhabited

/-- A load test to have. -/
structure LoadTestEntry where
  name : String
  description : String
  concurrency : Nat
  accounts : String
  isActive : Bool
  steps : List Step
  deriving DecidableEq, Repr, Inhabited

end Fixture

/-- Records to start a server with. -/
structure Fixture where
  features : List Fixture.FeatureEntry
  scenarios : List Fixture.ScenarioEntry
  mocks : List Fixture.MockEntry
  activations : List Fixture.ActivationEntry
  loadTests : List Fixture.LoadTestEntry
  deriving DecidableEq, Repr, Inhabited

namespace Fixture

/-! ## Features and scenarios -/

namespace FeatureEntry

def ofDocument? (d : Document) : Option FeatureEntry := do
  let f ← d.fields? ["name", "description"]
  return { name := ← f.required "name" Document.text?, description := ← f.text "description" }

def toJson (x : FeatureEntry) : Json :=
  .record [.always "name" (.str x.name), .always "description" (.str x.description)]

end FeatureEntry

namespace ScenarioEntry

def ofDocument? (d : Document) : Option ScenarioEntry := do
  let f ← d.fields? ["feature", "name", "description"]
  return {
    feature := ← f.required "feature" Document.text?
    name := ← f.required "name" Document.text?
    description := ← f.text "description" }

def toJson (x : ScenarioEntry) : Json :=
  .record [
    .always "feature" (.str x.feature),
    .always "name" (.str x.name),
    .always "description" (.str x.description)]

end ScenarioEntry

/-! ## Mocks and activations -/

namespace MockEntry

def ofDocument? (d : Document) : Option MockEntry := do
  let f ← d.fields?
    ["feature", "scenario", "name", "path", "method", "input", "headers", "output", "is_active"]
  return {
    feature := ← f.required "feature" Document.text?
    scenario := ← f.required "scenario" Document.text?
    name := ← f.text "name"
    path := ← f.required "path" Document.text?
    method := ← f.required "method" Document.text?
    input := ← f.optional "input" .null Document.value?
    headers := ← f.nullable "headers" Document.value?
    output := ← f.required "output" Document.value?
    isActive := ← f.optional "is_active" true Document.bool? }

def toJson (x : MockEntry) : Json :=
  .record [
    .always "feature" (.str x.feature),
    .always "scenario" (.str x.scenario),
    .always "name" (.str x.name),
    .always "path" (.str x.path),
    .always "method" (.str x.method),
    .always "input" x.input,
    .always "headers" (x.headers.getD .null),
    .always "output" x.output,
    .always "is_active" (.bool x.isActive)]

end MockEntry

namespace ActivationEntry

def ofDocument? (d : Document) : Option ActivationEntry := do
  let f ← d.fields? ["feature", "scenario", "account_id"]
  return {
    feature := ← f.required "feature" Document.text?
    scenario := ← f.required "scenario" Document.text?
    account := ← f.nullable "account_id" Document.text? }

def toJson (x : ActivationEntry) : Json :=
  .record [
    .always "feature" (.str x.feature),
    .always "scenario" (.str x.scenario),
    .always "account_id" (.textOrNull x.account)]

end ActivationEntry

/-! ## Load tests -/

namespace LoadTestEntry

def ofDocument? (d : Document) : Option LoadTestEntry := do
  let f ← d.fields? ["name", "description", "concurrency", "accounts", "is_active", "steps"]
  return {
    name := ← f.required "name" Document.text?
    description := ← f.text "description"
    concurrency := ← f.optional "concurrency" 1 (Document.nat? UInt64.size)
    accounts := ← f.text "accounts"
    isActive := ← f.optional "is_active" true Document.bool?
    steps := ← f.optional "steps" [] (Document.listOf? Step.ofDocument?) }

def toJson (x : LoadTestEntry) : Json :=
  .record [
    .always "name" (.str x.name),
    .always "description" (.str x.description),
    .always "concurrency" (.nat x.concurrency),
    .always "accounts" (.str x.accounts),
    .always "is_active" (.bool x.isActive),
    .always "steps" (.arr (x.steps.map Step.toJson))]

end LoadTestEntry

/-! ## Fixtures -/

/-- Reads a fixture; a list that is left out is empty. -/
def ofDocument? (d : Document) : Option Fixture := do
  let f ← d.fields? ["features", "scenarios", "mock_apis", "activations", "load_tests"]
  return {
    features := ← f.optional "features" [] (Document.listOf? FeatureEntry.ofDocument?)
    scenarios := ← f.optional "scenarios" [] (Document.listOf? ScenarioEntry.ofDocument?)
    mocks := ← f.optional "mock_apis" [] (Document.listOf? MockEntry.ofDocument?)
    activations := ← f.optional "activations" [] (Document.listOf? ActivationEntry.ofDocument?)
    loadTests := ← f.optional "load_tests" [] (Document.listOf? LoadTestEntry.ofDocument?) }

def toJson (x : Fixture) : Json :=
  .record [
    .always "features" (.arr (x.features.map FeatureEntry.toJson)),
    .always "scenarios" (.arr (x.scenarios.map ScenarioEntry.toJson)),
    .always "mock_apis" (.arr (x.mocks.map MockEntry.toJson)),
    .always "activations" (.arr (x.activations.map ActivationEntry.toJson)),
    .always "load_tests" (.arr (x.loadTests.map LoadTestEntry.toJson))]

end Fixture

end MockServer
