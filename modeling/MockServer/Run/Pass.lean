/-
  MockServer.Run.Pass — one account's pass through a script.

  The account starts with its user name and password as variables.  A
  step whose condition is false is passed over; the first step that
  fails, or whose condition makes no sense, ends the pass.
-/
import MockServer.Run.Account
import MockServer.Run.Condition
import MockServer.Run.Execute
import MockServer.Run.Script

namespace MockServer.Run

variable {σ : Type}

def Account.scope (a : Account) : Dict String :=
  (Dict.empty.insert "username" a.username).insert "password" a.password

/-- The result of a step whose condition makes no sense. -/
def conditionFailure (step : Step) : StepResult :=
  .failure step.name 400 .zero ("failed to evaluate condition: " ++ Condition.malformed)

/-- Runs steps in order up to the first that fails: their results and whether all succeeded.
Nothing comes of steps one of which comes to nothing. -/
def runSteps (w : Http.World σ) (interval : Duration) :
    List Step → Dict String → σ → Option (List StepResult × Bool) × σ
  | [], _, s => (some ([], true), s)
  | step :: rest, scope, s =>
    match Condition.holds? scope step.condition with
    | none => (some ([conditionFailure step], false), s)
    | some false => runSteps w interval rest scope s
    | some true =>
      match execute w interval step scope s with
      | (none, s) => (none, s)
      | (some (result, scope), s) =>
        -- the first failure ends the pass and is its last result
        if result.isSuccess then
          match runSteps w interval rest scope s with
          | (some (results, success), s) => (some (result :: results, success), s)
          | (none, s) => (none, s)
        else (some ([result], false), s)

def runAccount (w : Http.World σ) (interval : Duration) (script : Script) (a : Account) (s : σ) :
    Option AccountResult × σ :=
  match runSteps w interval script.steps a.scope s with
  | (none, after) => (none, after)
  | (some (steps, isSuccess), after) =>
    let totalTime : Duration := ⟨(w.now after).nanos - (w.now s).nanos⟩
    (some { username := a.username, steps, totalTime, isSuccess }, after)

end MockServer.Run
