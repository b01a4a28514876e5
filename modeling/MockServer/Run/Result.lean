/-
  MockServer.Run.Result — what came of a load test: by step, by account
  and as a whole.

  A result is written as JSON, with lengths of time in whole
  milliseconds, or as a report that details the accounts that failed.
-/
import MockServer.Decimal.Shortest
import MockServer.Duration
import MockServer.Json.Build
import MockServer.Json.Printer

namespace MockServer.Run

open Decimal

/-- What came of one step. -/
structure StepResult where
  stepName : String
  status : Nat
  duration : Duration
  isSuccess : Bool
  errorMessage : Option String
  deriving DecidableEq, Repr, Inhabited

/-- What came of the steps of one account. -/
structure AccountResult where
  username : String
  steps : List StepResult
  totalTime : Duration
  isSuccess : Bool
  deriving DecidableEq, Repr, Inhabited

/-- What came of a load test. -/
structure RunResult where
  scenarioName : String
  totalAccounts : Nat
  successes : Nat
  failures : Nat
  totalDuration : Duration
  averageDuration : Duration
  accounts : List AccountResult
  deriving DecidableEq, Repr, Inhabited

/-! ## Documents -/

def durationJson (d : Duration) : Json := .nat d.millis

namespace StepResult

def success (stepName : String) (status : Nat) (duration : Duration) : StepResult :=
  ⟨stepName, status, duration, true, none⟩

def failure (stepName : String) (status : Nat) (duration : Duration) (message : String) :
    StepResult :=
  ⟨stepName, status, duration, false, some message⟩

def ofDocument? (d : Document) : Option StepResult := do
  let f ← d.fields? ["step_name", "status_code", "duration", "success", "error_message"]
  return {
    stepName := ← f.required "step_name" Document.text?
    status := ← f.required "status_code" (Document.nat? UInt16.size)
    duration := ← f.required "duration" Duration.ofMillisDocument?
    isSuccess := ← f.required "success" Document.bool?
    errorMessage := ← f.nullable "error_message" Document.text? }

/-- Writes a result; a missing message is left out. -/
def toJson (x : StepResult) : Json :=
  .record [
    .always "step_name" (.str x.stepName),
    .always "status_code" (.nat x.status),
    .always "duration" (durationJson x.duration),
    .always "success" (.bool x.isSuccess),
    .whenSome "error_message" x.errorMessage .str]

end StepResult

namespace AccountResult

def ofDocument? (d : Document) : Option AccountResult := do
  let f ← d.fields? ["username", "step_results", "total_time", "success"]
  return {
    username := ← f.required "username" Document.text?
    steps := ← f.required "step_results" (Document.listOf? StepResult.ofDocument?)
    totalTime := ← f.required "total_time" Duration.ofMillisDocument?
    isSuccess := ← f.required "success" Document.bool? }

def toJson (x : AccountResult) : Json :=
  .record [
    .always "username" (.str x.username),
    .always "step_results" (.arr (x.steps.map StepResult.toJson)),
    .always "total_time" (durationJson x.totalTime),
    .always "success" (.bool x.isSuccess)]

end AccountResult

namespace RunResult

/-- The result of a load test without accounts. -/
def empty (scenarioName : String) : RunResult := ⟨scenarioName, 0, 0, 0, .zero, .zero, []⟩

def ofDocument? (d : Document) : Option RunResult := do
  let f ← d.fields?
    ["scenario_name", "total_accounts", "success_count", "failure_count", "total_duration",
     "avg_duration", "account_results"]
  return {
    scenarioName := ← f.required "scenario_name" Document.text?
    totalAccounts := ← f.required "total_accounts" (Document.nat? UInt64.size)
    successes := ← f.required "success_count" (Document.nat? UInt64.size)
    failures := ← f.required "failure_count" (Document.nat? UInt64.size)
    totalDuration := ← f.required "total_duration" Duration.ofMillisDocument?
    averageDuration := ← f.required "avg_duration" Duration.ofMillisDocument?
    accounts := ← f.required "account_results" (Document.listOf? AccountResult.ofDocument?) }

def toJson (x : RunResult) : Json :=
  .record [
    .always "scenario_name" (.str x.scenarioName),
    .always "total_accounts" (.nat x.totalAccounts),
    .always "success_count" (.nat x.successes),
    .always "failure_count" (.nat x.failures),
    .always "total_duration" (durationJson x.totalDuration),
    .always "avg_duration" (durationJson x.averageDuration),
    .always "account_results" (.arr (x.accounts.map AccountResult.toJson))]

/-! ## Reports -/

/-- The percentage of accounts that succeeded; zero without accounts. -/
def successRate (x : RunResult) : Binary64 :=
  if x.totalAccounts = 0 then .zero
  else ((Binary64.ofNat x.successes).div (Binary64.ofNat x.totalAccounts)).mul (Binary64.ofNat 100)

def millisText (d : Duration) : String := Nat.repr d.millis ++ "ms"

def stepLine (x : StepResult) : String :=
  "  " ++ (if x.isSuccess then "✓" else "✗") ++ " " ++ x.stepName ++ ": " ++
    millisText x.duration ++
    (match x.errorMessage with
     | some message => " - " ++ message
     | none => "")

/-- The lines of an account, which succeeds without a line. -/
def accountLines (x : AccountResult) : List String :=
  if x.isSuccess then []
  else ("Failed: " ++ x.username ++ " (took " ++ millisText x.totalTime ++ ")") ::
    x.steps.map stepLine

def lines (x : RunResult) : List String :=
  [ "Load Test Result: " ++ x.scenarioName,
    "Total Accounts: " ++ Nat.repr x.totalAccounts,
    "Success: " ++ Nat.repr x.successes,
    "Failure: " ++ Nat.repr x.failures,
    "Success Rate: " ++ String.ofList (fixed 2 x.successRate) ++ "%",
    "Total Duration: " ++ millisText x.totalDuration,
    "Avg Duration: " ++ millisText x.averageDuration ] ++
  x.accounts.flatMap accountLines

def summary (x : RunResult) : String := String.join (x.lines.map (· ++ "\n"))

end RunResult

end MockServer.Run
