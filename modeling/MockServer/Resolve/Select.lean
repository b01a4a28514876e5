/-
  MockServer.Resolve.Select — the scenario that answers for an account.
-/
import MockServer.Resolve.Error
import MockServer.Service.Basic

namespace MockServer.Resolve

/-- The activation that decides, and the scenario it names. -/
structure Selection where
  activation : Activation
  scenario : Scenario
  deriving DecidableEq, Repr

/-- The scenario that answers for an account, or for everybody. -/
def select (s : Service) (feature : String) (account : Option String) :
    Except ResolveError Selection :=
  match s.activationFor feature account with
  | .error e => .error (.internal ("failed to get active scenario: " ++ e.message))
  | .ok none => .error (.noActiveScenario feature)
  | .ok (some activation) =>
    match s.getScenario activation.scenarioId with
    | .error e => .error (.internal ("failed to get scenario details: " ++ e.message))
    | .ok none =>
      .error (.internal
        ("active scenario " ++ activation.scenarioId.toText ++ " no longer exists"))
    | .ok (some scenario) => .ok ⟨activation, scenario⟩

end MockServer.Resolve
