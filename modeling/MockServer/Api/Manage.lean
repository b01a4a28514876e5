/-
  MockServer.Api.Manage — management of scenarios and load tests.

  Scenarios and load tests are named by their identifiers in the path.
  An account in the query limits a change to that account; a blank one
  is none.  A query may hold other fields, but a known one only once.

  Main definitions:
    * `queryFields` — the known fields of a query;
    * `activate`, `deactivate`, `activeScenario` — scenarios;
    * `loadTests`, `runLoadTest` — load tests.
-/
import MockServer.Activate
import MockServer.Api.Route
import MockServer.Config.Basic
import MockServer.Resolve.Select
import MockServer.Run.Pool
import MockServer.Url.Form

namespace MockServer.Api.Manage

/-! ## Parameters -/

/-- Takes the known fields out of pairs; the first that is repeated is refused. -/
def takeFields (known : List String) :
    List (String × String) → List (String × String) → Except ParameterError (List (String × String))
  | taken, [] => .ok taken
  | taken, (name, value) :: rest =>
    if !known.contains name then takeFields known taken rest
    else if (taken.lookup name).isSome then .error (.repeated name)
    else takeFields known ((name, value) :: taken) rest

def queryFields (known : List String) (r : Request) :
    Except ParameterError (List (String × String)) :=
  takeFields known [] (Url.Form.parse (r.target.query.getD ""))

/-- The field of a query, unless it is blank. -/
def given (fields : List (String × String)) (name : String) : Option String :=
  (fields.lookup name).filter fun v => !Text.isBlankText v

def identifier (text : String) : Except ApiError Uuid :=
  match Uuid.parse? text with
  | some id => .ok id
  | none => .error (.badRequest "invalid scenario_id")

/-! ## Scenarios -/

/-- A failed activation as an error of the interface. -/
def activationError (e : ActivateError) : ApiError :=
  match e with
  | .scenarioNotFound _ => .notFound e.message
  | .store _ _ => .internal e.message

def said (message : String) : Response := .json 200 (.obj [("message", .str message)])

/-- Makes a scenario active, for an account or for everybody. -/
def activate (id : String) (account : Option String) (s : Service) : Response × Service :=
  match identifier id with
  | .error e => fail e s
  | .ok id =>
    match Activate.activate s id account with
    | (.ok _, s) => (said "scenario activated successfully", s)
    | (.error e, s) => fail (activationError e) s

/-- Takes an activation back, for an account or for everybody. -/
def deactivate (id : String) (account : Option String) (s : Service) : Response × Service :=
  match identifier id with
  | .error e => fail e s
  | .ok id =>
    match Activate.deactivate s id account with
    | (.ok _, s) => (said "scenario deactivated successfully", s)
    | (.error e, s) => fail (activationError e) s

/-- The scenario that counts for a feature and an account. -/
def activeScenario (feature account : Option String) (s : Service) : Response × Service :=
  match feature with
  | none => fail (.badRequest "feature_name is required") s
  | some feature =>
    match Resolve.select s feature account with
    | .error e => fail (.resolve e) s
    | .ok selected =>
      (.json 200 (.obj [
        ("account_id", .textOrNull selected.activation.account),
        ("feature_name", .str feature),
        ("scenario_id", .str selected.scenario.id.toText),
        ("scenario_name", .str selected.scenario.name)]), s)

/-! ## Load tests -/

def loadTests (s : Service) : Response := .json 200 (.arr (s.store.loadTests.map LoadTest.toJson))

/-- The accounts of a load test that can be run. -/
def runnable (x : LoadTest) : Except ApiError (List Run.Account) :=
  if !x.isActive then .error (.badRequest "scenario is not active")
  else if Text.isBlankText x.accounts then
    .error (.badRequest "no accounts configured for this scenario")
  else
    match Run.Account.parse x.accounts with
    | [] => .error (.badRequest "failed to parse accounts")
    | accounts => .ok accounts

/-- The load test with an identifier, and its accounts. -/
def loadTest (id : String) (s : Service) : Except ApiError (LoadTest × List Run.Account) :=
  match identifier id with
  | .error e => .error e
  | .ok id =>
    match s.store.getLoadTest id with
    | none => .error (.notFound "scenario not found")
    | some x => (runnable x).map fun accounts => (x, accounts)

/-- Runs a load test and reports what came of it. -/
def runLoadTest {σ : Type} (w : Http.World σ) (settings : Config.Running) (id : String)
    (s : Service) (outside : σ) : Response × Service × σ :=
  match loadTest id s with
  | .error e =>
    let (response, s) := fail e s
    (response, s, outside)
  | .ok (x, accounts) =>
    let interval := Duration.ofMillis settings.retryInterval.toNat
    let (result, outside) :=
      Run.runAll w interval settings.maxConcurrency.toNat (.ofLoadTest x) accounts outside
    (.json 200 result.toJson, s, outside)

end MockServer.Api.Manage
