/-
  MockServer.Activate — making a scenario active, and taking it back.

  A global activation removes every activation of the feature that is
  bound to an account, so afterwards all accounts see one scenario.  An
  activation for one account replaces only the one that account had.
  Each change drops the cached responses of the feature.

  An activation is a list of single calls, run in order until one of
  them fails.
-/
import MockServer.Service.Basic

namespace MockServer

/-- Why an activation fails. -/
inductive ActivateError where
  | scenarioNotFound (id : Uuid)
  | store (doing : String) (e : StoreError)
  deriving DecidableEq, Repr

def ActivateError.message : ActivateError → String
  | .scenarioNotFound _ => "scenario not found"
  | .store doing e => doing ++ ": " ++ e.message

namespace Activate

/-! ## Calls -/

/-- A call, and what to say when it fails. -/
structure Stage where
  change : Service.Change
  onFailure : String
  deriving DecidableEq, Repr

/-- The calls that make way for a new activation. -/
def clearing (feature : String) (account : Option String) : List Stage :=
  (if account.isNone then
    [⟨.removeOverrides feature, "failed to deactivate account-specific scenarios"⟩] else []) ++
  [⟨.remove feature account, "failed to deactivate existing scenario"⟩]

def stages (a : Activation) : List Stage :=
  clearing a.featureName a.account ++ [⟨.add a, "failed to activate scenario"⟩]

/-- Runs calls in order until one fails, and tells how much the last one removed. -/
def run : Nat → Service → List Stage → Except ActivateError Nat × Service
  | n, s, [] => (.ok n, s)
  | _, s, stage :: rest =>
    match s.change stage.change with
    | (.ok n, s) => run n s rest
    | (.error e, s) => (.error (.store stage.onFailure e), s)

/-! ## Activation and its removal -/

def scenario (s : Service) (id : Uuid) : Except ActivateError Scenario :=
  match s.getScenario id with
  | .error e => .error (.store "failed to load scenario" e)
  | .ok none => .error (.scenarioNotFound id)
  | .ok (some x) => .ok x

/-- Drops the cached responses of a feature; a cache that fails keeps them. -/
def dropCached (s : Service) (feature : String) : Service :=
  (s.clearCache (Cache.featurePattern feature)).2

/-- Makes a scenario the active one of its feature, for one account or for everybody. -/
def activate (s : Service) (id : Uuid) (account : Option String) :
    Except ActivateError Activation × Service :=
  match scenario s id with
  | .error e => (.error e, s)
  | .ok x =>
    -- the activation is made from the scenario that was found, not from the request
    let (stamp, s) := s.draw
    let a := Activation.new stamp x.featureName x.id account
    match run 0 s (stages a) with
    | (.ok _, s) => (.ok a, dropCached s x.featureName)
    | (.error e, s) => (.error e, s)

/-- Removes the activation of the feature of a scenario, for exactly this account or the global
one, and tells how many were removed. -/
def deactivate (s : Service) (id : Uuid) (account : Option String) :
    Except ActivateError Nat × Service :=
  match scenario s id with
  | .error e => (.error e, s)
  | .ok x =>
    match run 0 s [⟨.remove x.featureName account, "failed to deactivate scenario"⟩] with
    | (.ok n, s) => (.ok n, dropCached s x.featureName)
    | (.error e, s) => (.error e, s)

end Activate

end MockServer
