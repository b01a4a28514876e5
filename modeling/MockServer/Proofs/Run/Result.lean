/-
  MockServer.Proofs.Run.Result — results of load tests kept as JSON.

  A result is written with its lengths of time in whole milliseconds,
  and everything else as it is.  What is read back is the result with
  every length of time cut to whole milliseconds; a result whose lengths
  are whole milliseconds is read back as it was.

  Main definitions:
    * `RunResult.truncated` — a result with lengths in milliseconds;
    * `RunResult.Fits` — numbers and lengths below their bounds.

  Main result:
    * `read_written_result` — both texts of a result are read back.
-/
import Mathlib.Tactic.MkIffOfInductiveProp
import MockServer.Proofs.Document.Record
import MockServer.Proofs.Duration
import MockServer.Proofs.Json.Pretty
import MockServer.Run.Result

namespace MockServer

namespace Run

open Document (ofJson)

/-! ## Lengths of time -/

@[simp] theorem durationJson_truncated (d : Duration) :
    durationJson d.truncated = durationJson d := by
  unfold durationJson
  rw [Duration.millis_truncated]

theorem ofMillisDocument?_durationJson {d : Duration} (h : d.Fits) :
    Duration.ofMillisDocument? (ofJson (durationJson d)) = some d.truncated := by
  unfold Duration.ofMillisDocument? durationJson
  rw [Document.nat?_nat h]
  rfl

/-! ## Steps -/

namespace StepResult

def truncated (x : StepResult) : StepResult := { x with duration := x.duration.truncated }

/-- Do the numbers of the result fit their types? -/
@[mk_iff]
structure Fits (x : StepResult) : Prop where
  status_lt : x.status < UInt16.size
  duration : x.duration.Fits

variable {x : StepResult}

instance (x : StepResult) : Decidable x.Fits := decidable_of_iff' _ (fits_iff x)

@[simp] theorem truncated_truncated (x : StepResult) : x.truncated.truncated = x.truncated := by
  simp [truncated]

@[simp] theorem toJson_truncated (x : StepResult) : x.truncated.toJson = x.toJson := by
  simp [truncated, toJson]

theorem Fits.truncated (h : x.Fits) : x.truncated.Fits :=
  ⟨h.status_lt, Duration.fits_truncated h.duration⟩

theorem bounded_toJson (h : x.Fits) : Json.Bounded 1 x.toJson := by
  refine Json.bounded_record ?_
  have hstatus : x.status < UInt64.size := Nat.lt_trans h.status_lt (by decide)
  have hmillis : x.duration.millis < UInt64.size := h.duration
  cases hmessage : x.errorMessage <;>
    simp [Json.Field.always, Json.Field.whenSome, durationJson, Json.bounded_str,
      Json.bounded_bool, Json.bounded_nat, hstatus, hmillis]

/-- A written result of a step is read back, with or without a message. -/
theorem ofDocument?_toJson (h : x.Fits) : ofDocument? (ofJson x.toJson) = some x.truncated := by
  have hstatus := Document.nat?_nat h.status_lt
  have hduration := ofMillisDocument?_durationJson h.duration
  obtain ⟨stepName, status, duration, isSuccess, message⟩ := x
  cases message with
  | none =>
    unfold ofDocument? toJson
    rw [Document.fields?_record (by simp [Json.Field.always, Json.Field.whenSome])]
    simp [Json.Field.always, Json.Field.whenSome, hstatus, hduration, truncated]
  | some message =>
    unfold ofDocument? toJson
    rw [Document.fields?_record (by simp [Json.Field.always, Json.Field.whenSome])]
    simp [Json.Field.always, Json.Field.whenSome, hstatus, hduration, truncated]

end StepResult

/-! ## Accounts -/

namespace AccountResult

def truncated (x : AccountResult) : AccountResult :=
  { x with steps := x.steps.map StepResult.truncated, totalTime := x.totalTime.truncated }

/-- Do the numbers of the result fit their types? -/
@[mk_iff]
structure Fits (x : AccountResult) : Prop where
  steps : ∀ step ∈ x.steps, step.Fits
  totalTime : x.totalTime.Fits

variable {x : AccountResult}

instance (x : AccountResult) : Decidable x.Fits := decidable_of_iff' _ (fits_iff x)

@[simp] theorem truncated_truncated (x : AccountResult) : x.truncated.truncated = x.truncated := by
  simp [truncated]

@[simp] theorem toJson_truncated (x : AccountResult) : x.truncated.toJson = x.toJson := by
  simp [truncated, toJson, Function.comp_def]

theorem Fits.truncated (h : x.Fits) : x.truncated.Fits :=
  ⟨List.forall_mem_map.mpr fun step hstep => (h.steps step hstep).truncated,
    Duration.fits_truncated h.totalTime⟩

theorem bounded_toJson (h : x.Fits) : Json.Bounded 3 x.toJson := by
  refine Json.bounded_record ?_
  have hsteps : Json.Bounded 2 (.arr (x.steps.map StepResult.toJson)) :=
    Json.bounded_arr (List.forall_mem_map.mpr fun step hstep =>
      StepResult.bounded_toJson (h.steps step hstep))
  have hmillis : x.totalTime.millis < UInt64.size := h.totalTime
  simp [Json.Field.always, durationJson, Json.bounded_str, Json.bounded_bool, Json.bounded_nat,
    hsteps, hmillis]

/-- A written result of an account is read back. -/
theorem ofDocument?_toJson (h : x.Fits) : ofDocument? (ofJson x.toJson) = some x.truncated := by
  have hsteps := Document.listOf?_arr fun step hstep =>
    StepResult.ofDocument?_toJson (h.steps step hstep)
  have htotal := ofMillisDocument?_durationJson h.totalTime
  unfold ofDocument? toJson
  rw [Document.fields?_record (by simp [Json.Field.always])]
  simp [Json.Field.always, hsteps, htotal, truncated]

end AccountResult

/-! ## Load tests -/

namespace RunResult

def truncated (x : RunResult) : RunResult :=
  { x with
    totalDuration := x.totalDuration.truncated
    averageDuration := x.averageDuration.truncated
    accounts := x.accounts.map AccountResult.truncated }

/-- Do the numbers of the result fit their types? -/
@[mk_iff]
structure Fits (x : RunResult) : Prop where
  totalAccounts_lt : x.totalAccounts < UInt64.size
  successes_lt : x.successes < UInt64.size
  failures_lt : x.failures < UInt64.size
  totalDuration : x.totalDuration.Fits
  averageDuration : x.averageDuration.Fits
  accounts : ∀ account ∈ x.accounts, account.Fits

variable {x : RunResult}

instance (x : RunResult) : Decidable x.Fits := decidable_of_iff' _ (fits_iff x)

@[simp] theorem truncated_truncated (x : RunResult) : x.truncated.truncated = x.truncated := by
  simp [truncated]

@[simp] theorem toJson_truncated (x : RunResult) : x.truncated.toJson = x.toJson := by
  simp [truncated, toJson, Function.comp_def]

theorem Fits.truncated (h : x.Fits) : x.truncated.Fits where
  totalAccounts_lt := h.totalAccounts_lt
  successes_lt := h.successes_lt
  failures_lt := h.failures_lt
  totalDuration := Duration.fits_truncated h.totalDuration
  averageDuration := Duration.fits_truncated h.averageDuration
  accounts := List.forall_mem_map.mpr fun account haccount =>
    (h.accounts account haccount).truncated

theorem bounded_toJson (h : x.Fits) : Json.Bounded 5 x.toJson := by
  refine Json.bounded_record ?_
  have haccounts : Json.Bounded 4 (.arr (x.accounts.map AccountResult.toJson)) :=
    Json.bounded_arr (List.forall_mem_map.mpr fun account haccount =>
      AccountResult.bounded_toJson (h.accounts account haccount))
  have htotal : x.totalDuration.millis < UInt64.size := h.totalDuration
  have haverage : x.averageDuration.millis < UInt64.size := h.averageDuration
  simp [Json.Field.always, durationJson, Json.bounded_str, Json.bounded_nat, haccounts, htotal,
    haverage, h.totalAccounts_lt, h.successes_lt, h.failures_lt]

/-- A written result of a load test is read back. -/
theorem ofDocument?_toJson (h : x.Fits) : ofDocument? (ofJson x.toJson) = some x.truncated := by
  have haccounts := Document.listOf?_arr fun account haccount =>
    AccountResult.ofDocument?_toJson (h.accounts account haccount)
  have htotal := ofMillisDocument?_durationJson h.totalDuration
  have haverage := ofMillisDocument?_durationJson h.averageDuration
  have hcount := Document.nat?_nat h.totalAccounts_lt
  have hsuccesses := Document.nat?_nat h.successes_lt
  have hfailures := Document.nat?_nat h.failures_lt
  unfold ofDocument? toJson
  rw [Document.fields?_record (by simp [Json.Field.always])]
  simp [Json.Field.always, haccounts, htotal, haverage, hcount, hsuccesses, hfailures, truncated]

/-- The result that a JSON text stands for. -/
def ofText? (text : String) : Option RunResult := (Document.ofJsonText? text).bind ofDocument?

theorem ofText?_of_parse? {text : String} (h : x.Fits) (hparse : Json.parse? text = some x.toJson) :
    ofText? text = some x.truncated := by
  unfold ofText? Document.ofJsonText?
  rw [hparse]
  exact ofDocument?_toJson h

/-- A result is read back from its indented text and from its compact one. -/
theorem ofText?_toJson (h : x.Fits) {write : Json → String}
    (hwrite : write ∈ [Json.pretty, Json.compact]) :
    ofText? (write x.toJson) = some x.truncated := by
  -- five containers are open at once at most, far below what the parser allows
  have hbounded : Json.Bounded Json.maxOpen x.toJson := (bounded_toJson h).mono (by decide)
  rcases List.mem_pair.mp hwrite with rfl | rfl
  · exact ofText?_of_parse? h (Json.parse?_pretty hbounded)
  · exact ofText?_of_parse? h (Json.parse?_compact hbounded)

end RunResult

/-- **A result of a load test survives its JSON form.**  Its indented text and its compact one are
both read as the result with every length of time cut to whole milliseconds; writing and reading
that one again, in either form, changes neither the result nor the text. -/
theorem read_written_result (x : RunResult) (h : x.Fits) :
    ∀ write ∈ [Json.pretty, Json.compact],
      RunResult.ofText? (write x.toJson) = some x.truncated ∧
      RunResult.ofText? (write x.truncated.toJson) = some x.truncated ∧
      write x.truncated.toJson = write x.toJson := by
  intro write hwrite
  refine ⟨RunResult.ofText?_toJson h hwrite, ?_, by rw [RunResult.toJson_truncated]⟩
  have hagain := RunResult.ofText?_toJson h.truncated hwrite
  rwa [RunResult.truncated_truncated] at hagain

/-- A run of one account whose second step fails with an empty message. -/
def oneFailure : RunResult where
  scenarioName := "Check \"out\""
  totalAccounts := 1
  successes := 0
  failures := 1
  totalDuration := ⟨2500000⟩
  averageDuration := ⟨2500000⟩
  accounts := [{
    username := "alice"
    steps := [.success "login" 200 ⟨1999999⟩, .failure "pay" 500 ⟨500001⟩ ""]
    totalTime := ⟨2500000⟩
    isSuccess := false }]

theorem read_written_oneFailure :
    oneFailure.Fits ∧
    RunResult.ofText? oneFailure.toJson.pretty = some {
      oneFailure with
      totalDuration := .ofMillis 2
      averageDuration := .ofMillis 2
      accounts := [{
        username := "alice"
        steps := [.success "login" 200 (.ofMillis 1), .failure "pay" 500 .zero ""]
        totalTime := .ofMillis 2
        isSuccess := false }] } := by
  have hfits : oneFailure.Fits := by decide
  exact ⟨hfits, (read_written_result oneFailure hfits Json.pretty (by simp)).1⟩

end Run

end MockServer
