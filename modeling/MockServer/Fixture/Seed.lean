/-
  MockServer.Fixture.Seed — putting the records of a fixture into a
  store.

  Records go in group by group: features, scenarios, mocks,
  activations, load tests.  A feature that is there already is kept; a
  later activation for the same account replaces the earlier one.  The
  first record that is refused ends it, and what went in before stays.
-/
import MockServer.Fixture.Basic
import MockServer.Store.Basic
import MockServer.Supply

namespace MockServer.Fixture

/-- How many records went in. -/
structure Summary where
  features : Nat
  scenarios : Nat
  mocks : Nat
  activations : Nat
  loadTests : Nat
  deriving DecidableEq, Repr, Inhabited

def Summary.zero : Summary := ⟨0, 0, 0, 0, 0⟩

def Summary.toJson (x : Summary) : Json :=
  .record [
    .always "features" (.nat x.features),
    .always "scenarios" (.nat x.scenarios),
    .always "mock_apis" (.nat x.mocks),
    .always "activations" (.nat x.activations),
    .always "load_tests" (.nat x.loadTests)]

/-- A store on the way, and what went into it. -/
structure Progress where
  store : Store
  supply : Supply
  summary : Summary
  deriving DecidableEq, Repr

namespace Progress

/-! ## Single records -/

/-- Replaces the store; the next record gets a new stamp. -/
def put (p : Progress) (store : Store) : Progress := { p with store, supply := p.supply.advance }

/-- Adds a feature unless there is one of its name. -/
def addFeature (p : Progress) (name description : String) : Except StoreError Progress :=
  if (p.store.findFeature name).isSome then .ok p
  else do
    let store ← p.store.addFeature? { Feature.new p.supply.stamp name with description }
    let p := p.put store
    return { p with summary := { p.summary with features := p.summary.features + 1 } }

def addScenario (p : Progress) (x : ScenarioEntry) : Except StoreError Progress := do
  let scenario := { Scenario.new p.supply.stamp x.feature x.name with description := x.description }
  let p := p.put (← p.store.addScenario? scenario)
  return { p with summary := { p.summary with scenarios := p.summary.scenarios + 1 } }

def declared (p : Progress) (feature name : String) : Except StoreError Scenario :=
  match p.store.findScenario feature name with
  | some x => .ok x
  | none => .error (.undeclared feature name)

/-- Adds a mock to a scenario that is there. -/
def addMock (p : Progress) (x : MockEntry) : Except StoreError Progress := do
  let _ ← p.declared x.feature x.scenario
  let m := Mock.new p.supply.stamp x.feature x.scenario x.path x.method x.input x.output
  let m := { m with name := x.name, headers := x.headers, isActive := x.isActive }
  let (store, _) ← p.store.addMock? m
  let p := p.put store
  return { p with summary := { p.summary with mocks := p.summary.mocks + 1 } }

/-- Makes a scenario active in place of the one before. -/
def addActivation (p : Progress) (x : ActivationEntry) : Except StoreError Progress := do
  let scenario ← p.declared x.feature x.scenario
  let a := Activation.new p.supply.stamp x.feature scenario.id x.account
  -- the last activation listed for an account is the one that stays
  let (store, _) := p.store.removeActivation x.feature x.account
  let p := p.put (← store.addActivation? a)
  return { p with summary := { p.summary with activations := p.summary.activations + 1 } }

def addLoadTest (p : Progress) (x : LoadTestEntry) : Except StoreError Progress := do
  let t := {
    LoadTest.new p.supply.stamp x.name x.steps with
    description := x.description
    concurrency := x.concurrency
    accounts := x.accounts
    isActive := x.isActive }
  let p := p.put (← p.store.addLoadTest? t)
  return { p with summary := { p.summary with loadTests := p.summary.loadTests + 1 } }

end Progress

/-! ## All records -/

/-- One record to put into a store. -/
inductive Entry where
  | feature (x : FeatureEntry)
  | scenario (x : ScenarioEntry)
  | mock (x : MockEntry)
  | activation (x : ActivationEntry)
  | loadTest (x : LoadTestEntry)
  deriving DecidableEq, Repr

/-- The records of a fixture in the order in which they go in; a scenario comes after its
feature. -/
def entries (x : Fixture) : List Entry :=
  x.features.map .feature ++
  x.scenarios.flatMap (fun s => [.feature ⟨s.feature, ""⟩, .scenario s]) ++
  x.mocks.map .mock ++
  x.activations.map .activation ++
  x.loadTests.map .loadTest

def Progress.add (p : Progress) : Entry → Except StoreError Progress
  | .feature x => p.addFeature x.name x.description
  | .scenario x => p.addScenario x
  | .mock x => p.addMock x
  | .activation x => p.addActivation x
  | .loadTest x => p.addLoadTest x

/-- Adds records until one is refused: what is in the store then, and the refusal. -/
def Progress.addAll : Progress → List Entry → Progress × Option StoreError
  | p, [] => (p, none)
  | p, x :: rest =>
    match p.add x with
    | .ok p => p.addAll rest
    | .error e => (p, some e)

/-- Puts a fixture into a store: what is in it afterwards, and the refusal that ended it. -/
def seed (x : Fixture) (store : Store) (supply : Supply) : Progress × Option StoreError :=
  Progress.addAll ⟨store, supply, .zero⟩ x.entries

end MockServer.Fixture
