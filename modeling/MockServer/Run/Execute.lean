/-
  MockServer.Run.Execute — running one step.

  A step is first brought to a request: variables are put into its
  parts, and a `curl` command is taken apart, whose parts then serve
  where the step has none of its own.  The request is sent until a
  response is as expected, the time for it is over, or the attempts are
  used up.  Only a response that is as expected changes the variables.

  Main definitions:
    * `Prepared`, `prepare` — a step with its variables put in;
    * `attempts` — the loop over attempts;
    * `execute` — a step, run.
-/
import MockServer.Entity.LoadTest
import MockServer.Http.World
import MockServer.Run.Curl
import MockServer.Run.Extract
import MockServer.Run.Result
import MockServer.Run.Template

namespace MockServer.Run

/-! ## Preparation -/

/-- A step with its variables put in. -/
structure Prepared where
  method : String
  url : String
  /-- Headers in the order in which they are set; a later one replaces an earlier one. -/
  headers : List (String × String)
  body : String
  deriving DecidableEq, Repr, Inhabited

/-- Puts variables into a part of a step. -/
def interpolate (scope : Dict String) (part text : String) : Except String String :=
  match Template.fill scope text with
  | .ok filled => .ok filled
  | .error e => .error ("failed to replace placeholders in " ++ part ++ ": " ++ e.message)

def baseline : List (String × String) := [("Content-Type", "application/json")]

def interpolateHeaders (scope : Dict String) (part : String) :
    List (String × String) → Except String (List (String × String))
  | [] => .ok []
  | (name, value) :: rest => do
    let value ← interpolate scope (part ++ name) value
    let rest ← interpolateHeaders scope part rest
    return (name, value) :: rest

def prepareAddress (step : Step) (scope : Dict String) : Except String Prepared := do
  let url ← interpolate scope "path" step.path
  let body ← interpolate scope "body" step.body
  let headers ← interpolateHeaders scope "header " step.headers.entries
  return { method := step.method, url, headers := baseline ++ headers, body }

/-- Prepares a step that is a `curl` command; what the step says itself comes first. -/
def prepareCommand (step : Step) (scope : Dict String) : Except String Prepared := do
  -- variables go into the command as a whole before it is taken apart
  let command ← interpolate scope "curl command" step.path
  let curl ← match CurlCommand.parse? command with
    | .ok curl => Except.ok curl
    | .error e => .error ("failed to parse curl: " ++ e.message)
  let url ← interpolate scope "URL" curl.url
  let body ← if step.body.isEmpty then pure curl.body else interpolate scope "body" step.body
  let method := if step.method.isEmpty then curl.method else step.method
  let inner ← interpolateHeaders scope "curl header " curl.headers.entries
  let outer ← interpolateHeaders scope "step header " step.headers.entries
  return { method, url, headers := baseline ++ inner ++ outer, body }

def prepare (step : Step) (scope : Dict String) : Except String Prepared :=
  if Curl.isCommand step.path then prepareCommand step scope else prepareAddress step scope

/-- What is said of a step whose request cannot be made. -/
def notCreated (detail : String) : String := "failed to create request: " ++ detail

/-! ## Attempts -/

/-- What one attempt came to. -/
inductive Verdict where
  /-- A response as expected. -/
  | success (status : Nat) (headers : Header.Fields) (body : String)
  /-- Anything else, with the status and what to report. -/
  | failure (status : Nat) (message : String)
  deriving DecidableEq, Repr

/-- What the outcome of an attempt comes to. -/
def judge (step : Step) (attempt : Nat) : Http.Outcome → Verdict
  | .failed detail =>
    .failure 0 ("request failed after " ++ Nat.repr attempt ++ " attempt(s): " ++ detail)
  | .unreadable status detail =>
    .failure status
      ("failed to read response after " ++ Nat.repr attempt ++ " attempt(s): " ++ detail)
  | .response status headers body =>
    if 0 < step.expectStatus.toNat ∧ status ≠ step.expectStatus.toNat then
      .failure status
        ("expected status " ++ Nat.repr step.expectStatus.toNat ++ ", got " ++ Nat.repr status ++
          " after " ++ Nat.repr attempt ++ " attempt(s): " ++ body)
    else .success status headers body

/-- The most attempts at a step.  One without a limit of its own is tried until its time is up; here
it also ends with the last attempt that 32 bits can count, behind which the count starts over. -/
def attemptLimit (step : Step) : Nat :=
  if step.retryForSeconds = 0 then 1
  else if step.maxRetryTimes = 0 then UInt32.size - 1
  else step.maxRetryTimes.toNat

variable {σ : Type}

/-- The attempts at a step from one on, of which at most `left` more follow: what the last one
came to, how long it took, and the world after it. -/
def attempts (w : Http.World σ) (interval deadline : Duration) (step : Step) (r : Http.Request) :
    (left attempt : Nat) → σ → Verdict × Duration × σ
  | left, attempt, s =>
    let (outcome, after) := w.transmit r s
    let took : Duration := ⟨(w.now after).nanos - (w.now s).nanos⟩
    match judge step attempt outcome with
    | .success status headers body => (.success status headers body, took, after)
    | .failure status message =>
      match left with
      | 0 => (.failure status message, took, after)
      | left + 1 =>
        -- a pause that ends behind the deadline is still made
        if (w.now after).nanos < deadline.nanos then
          attempts w interval deadline step r left (attempt + 1) (w.pause interval after)
        else (.failure status message, took, after)

/-! ## Steps -/

/-- The end of the time for attempts; there is none beyond the range of the clock, which counts
seconds in 63 bits. -/
def deadline? (start : Duration) (step : Step) : Option Duration :=
  let d := start.add (.ofSeconds step.retryForSeconds.toNat)
  if d.seconds < Nat.pow 2 63 then some d else none

/-- Runs a step: its result and the variables afterwards, and the world. Nothing comes of a step
whose time has no end on the clock. -/
def execute (w : Http.World σ) (interval : Duration) (step : Step) (scope : Dict String) (s : σ) :
    Option (StepResult × Dict String) × σ :=
  let start := w.now s
  let since (s : σ) : Duration := ⟨(w.now s).nanos - start.nanos⟩
  let fail (status : Nat) (message : String) (s : σ) : Option (StepResult × Dict String) × σ :=
    (some (.failure step.name status (since s) message, scope), s)
  match prepare step scope with
  | .error message => fail 0 message s
  | .ok p =>
    match Http.Method.parseOrDefault? p.method with
    | none => fail 0 (notCreated (Http.Method.unknown (Text.trim p.method))) s
    | some method =>
      match deadline? start step with
      | none => (none, s)
      | some deadline =>
        match Http.Request.build method p.url p.headers p.body with
        | .error e => fail 0 (notCreated e.message) s
        | .ok r =>
          match attempts w interval deadline step r (attemptLimit step - 1) 1 s with
          | (.failure status message, _, s) => fail status message s
          | (.success status headers body, took, s) =>
            let scope := Extract.set step.saveVariables headers body scope
            let s :=
              if step.waitAfterSeconds = 0 then s
              else w.pause (.ofSeconds step.waitAfterSeconds.toNat) s
            (some (.success step.name status took, scope), s)

end MockServer.Run
