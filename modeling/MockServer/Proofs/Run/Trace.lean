/-
  MockServer.Proofs.Run.Trace — the pass of an account as a trace.

  An account visits the steps of its script in order.  What it does at
  a step is decided by the condition, with the variables it started
  with and those taken from the responses to the steps it executed
  before.  The first visit that is no success and does not pass over
  its step is the last one, and the steps behind it do not matter.

  A trace says this position by position: each visit fits the variables
  and the world that the visits before it have left.  The induction is
  on the visits.  A visit that lets the pass go on leaves a trace of the
  rest of the steps, with what it has learned as the variables.

  One kind of visit leaves nothing at all: that to a step whose time for
  attempts has no end on the clock.

  Main definitions:
    * `Act`, `Visit` — what an account does at a step;
    * `Act.Does`, `Visit.Fits` — is it what the account does?
    * `Trace` — visits that fit one behind the other.

  Main results:
    * `execute_noting` — what a step sends does not depend on the log;
    * `exists_trace` — each pass has a trace;
    * `runSteps_of_trace`, `runSteps_noting` — a trace tells what the
      pass comes to and what it sends;
    * `pass_traced` — the pass of an account;
    * `unmeasured_step_unrecorded` — a pass that leaves no result.
-/
import Mathlib.Data.List.Infix
import MockServer.Proofs.Run.Retry

namespace MockServer.Run

variable {σ : Type} {w : Http.World σ} {interval : Duration}

/-! ## Attempts with a success -/

/-- A success is a response as expected. -/
theorem eq_response_of_judge {step : Step} {made : Nat} {o : Http.Outcome} {status : Nat}
    {headers : Header.Fields} {body : String}
    (h : judge step made o = .success status headers body) :
    o = .response status headers body ∧ Accepts step (.response status headers body) := by
  by_cases haccepts : Accepts step o
  · cases o with
    | failed detail => exact haccepts.elim
    | unreadable code detail => exact haccepts.elim
    | response code fields text =>
      rw [judge_response haccepts, Verdict.success.injEq] at h
      obtain ⟨rfl, rfl, rfl⟩ := h
      exact ⟨rfl, haccepts⟩
  · rw [judge_of_not_accepts haccepts] at h
    exact absurd h nofun

/-- **Attempts that succeed do so at the first response as expected.** -/
theorem exists_outcome_of_attempts {deadline : Duration} {step : Step} {left : Nat} (c : Course σ)
    (attempt : Nat) {status : Nat} {headers : Header.Fields} {body : String}
    (h : (attempts c.world c.interval deadline step c.request left attempt c.start).1
      = .success status headers body) :
    ∃ n ≤ left, c.FailsInTime step deadline n ∧
      c.outcome n = .response status headers body ∧
      Accepts step (.response status headers body) := by
  obtain ⟨n, hn, hfails, hends⟩ := c.exists_ends step deadline left
  rw [attempts_of_ends hn c attempt hfails hends] at h
  exact ⟨n, hn, hfails, eq_response_of_judge h⟩

/-! ## Steps that come to nothing -/

/-- Has the time for attempts at a step no end on the clock?  It is looked at once the parts of the
step are known. -/
def IsUnmeasured (start : Duration) (step : Step) (scope : Dict String) : Prop :=
  (∃ p method, prepare step scope = .ok p ∧ Http.Method.parseOrDefault? p.method = some method) ∧
    ¬ EndsOnClock start step

theorem execute_of_isUnmeasured {step : Step} {scope : Dict String} {s : σ}
    (h : IsUnmeasured (w.now s) step scope) : execute w interval step scope s = (none, s) := by
  obtain ⟨⟨p, method, hp, hmethod⟩, hclock⟩ := h
  unfold execute
  rw [hp]
  dsimp only
  rw [hmethod, deadline?_of_not_endsOnClock hclock]

/-- **Only a time without an end brings a step to nothing.** -/
theorem isUnmeasured_of_execute {step : Step} {scope : Dict String} {s : σ}
    (h : (execute w interval step scope s).1 = none) : IsUnmeasured (w.now s) step scope := by
  unfold execute at h
  dsimp only at h
  split at h
  next => exact absurd h nofun
  next p hp =>
    split at h
    next => exact absurd h nofun
    next method hmethod =>
      refine ⟨⟨p, method, hp, hmethod⟩, fun hclock => ?_⟩
      rw [deadline?_of_endsOnClock hclock] at h
      dsimp only at h
      split at h
      next => exact absurd h nofun
      next => split at h <;> exact absurd h nofun

/-- Any other step without a request fails with what is said of it. -/
theorem execute_of_error_of_measured {step : Step} {scope : Dict String} {s : σ} {message : String}
    (hmessage : requested step scope = .error message)
    (h : ¬ IsUnmeasured (w.now s) step scope) :
    execute w interval step scope s = (some (.failure step.name 0 .zero message, scope), s) :=
  (execute_of_error hmessage s).resolve_right fun hnone =>
    h (isUnmeasured_of_execute (congrArg Prod.fst hnone.2))

/-! ## What is sent -/

/-- What the attempts send does not depend on what was sent before. -/
theorem attempts_noting (w : Http.World σ) (interval deadline : Duration) (step : Step)
    (r : Http.Request) (left attempt : Nat) (s : σ) :
    ∃ extra, ∀ log, attempts (noting w) interval deadline step r left attempt (s, log)
      = ((attempts w interval deadline step r left attempt s).1,
        (attempts w interval deadline step r left attempt s).2.1,
        (attempts w interval deadline step r left attempt s).2.2, log ++ extra) := by
  induction left generalizing attempt s with
  | zero =>
    refine ⟨if Http.isSendable r.url then [r] else [], fun log => ?_⟩
    rw [attempts, attempts, Course.transmit_noting]
    rcases w.transmit r s with ⟨outcome, after⟩
    dsimp only
    cases judge step attempt outcome <;> rfl
  | succ left ih =>
    obtain ⟨extra, hextra⟩ := ih (attempt + 1) (w.pause interval (w.transmit r s).2)
    -- if the attempt fails in time, what it sends is followed by what those behind it send
    by_cases hagain : (∃ status message,
        judge step attempt (w.transmit r s).1 = .failure status message) ∧
        (w.now (w.transmit r s).2).nanos < deadline.nanos
    · refine ⟨(if Http.isSendable r.url then [r] else []) ++ extra, fun log => ?_⟩
      obtain ⟨⟨status, message, hverdict⟩, htime⟩ := hagain
      rw [attempts, attempts, Course.transmit_noting]
      generalize w.transmit r s = sent at hextra hverdict htime ⊢
      obtain ⟨outcome, after⟩ := sent
      dsimp only at hextra hverdict htime ⊢
      rw [hverdict]
      dsimp only
      rw [if_pos htime, ← List.append_assoc, ← hextra]
      exact if_pos htime
    · refine ⟨if Http.isSendable r.url then [r] else [], fun log => ?_⟩
      rw [attempts, attempts, Course.transmit_noting]
      generalize w.transmit r s = sent at hagain ⊢
      obtain ⟨outcome, after⟩ := sent
      dsimp only at hagain ⊢
      cases hverdict : judge step attempt outcome with
      | success status headers body => rfl
      | failure status message =>
        have htime : ¬ (w.now after).nanos < deadline.nanos :=
          fun htime => hagain ⟨⟨status, message, hverdict⟩, htime⟩
        dsimp only
        rw [if_neg htime]
        exact if_neg htime

/-- **What a step sends does not depend on the log**, and nothing else depends on it either. -/
theorem execute_noting (step : Step) (scope : Dict String) (s : σ) (log : List Http.Request) :
    execute (noting w) interval step scope (s, log)
      = ((execute w interval step scope s).1, (execute w interval step scope s).2,
        log ++ sent w interval step scope s) := by
  have hextra : ∃ extra, ∀ log, execute (noting w) interval step scope (s, log)
      = ((execute w interval step scope s).1, (execute w interval step scope s).2,
        log ++ extra) := by
    have hnow : ∀ log, (noting w).now (s, log) = w.now s := fun _ => rfl
    cases hrequest : requested step scope with
    | error message =>
      refine ⟨[], fun log => ?_⟩
      rw [List.append_nil]
      by_cases hclock : IsUnmeasured (w.now s) step scope
      · rw [execute_of_isUnmeasured hclock, execute_of_isUnmeasured (hnow log ▸ hclock)]
      · rw [execute_of_error_of_measured hrequest hclock,
          execute_of_error_of_measured hrequest (hnow log ▸ hclock)]
    | ok r =>
      cases hdeadline : deadline? (w.now s) step with
      | none =>
        refine ⟨[], fun log => ?_⟩
        rw [execute_of_ok hrequest, execute_of_ok hrequest, hnow, hdeadline, List.append_nil]
      | some deadline =>
        obtain ⟨extra, hattempts⟩ := attempts_noting w interval deadline step r
          (attemptLimit step - 1) 1 s
        refine ⟨extra, fun log => ?_⟩
        rw [execute_of_ok hrequest, execute_of_ok hrequest, hnow, hdeadline]
        dsimp only
        rw [hattempts]
        generalize attempts w interval deadline step r (attemptLimit step - 1) 1 s = last
        obtain ⟨verdict, took, after⟩ := last
        cases verdict with
        | failure status message => rfl
        | success status headers body =>
          show (_, rested (noting w) step (after, log ++ extra)) = (_, rested w step after, _)
          unfold rested
          split <;> rfl
  obtain ⟨extra, hextra⟩ := hextra
  have hsent : sent w interval step scope s = extra := by
    unfold sent
    rw [hextra, List.nil_append]
  rw [hextra, hsent]

/-! ## Visits -/

/-- What an account does at a step. -/
inductive Act where
  /-- The condition is false, and the step is passed over. -/
  | passOver
  /-- The condition makes no sense, which counts as a failure. -/
  | refuse
  /-- The step is executed and succeeds with a response. -/
  | succeed (status : Nat) (took : Duration) (headers : Header.Fields) (body : String)
  /-- The step is executed and fails. -/
  | fail (status : Nat) (took : Duration) (message : String)
  /-- The step is executed, and nothing comes of it. -/
  | lose
  deriving DecidableEq, Repr

namespace Act

def isExecuted : Act → Bool
  | succeed .. | fail .. | lose => true
  | passOver | refuse => false

/-- Does the pass end with it? -/
def isLast : Act → Bool
  | refuse | fail .. | lose => true
  | passOver | succeed .. => false

/-- The result that is recorded, if any. -/
def result? (step : Step) : Act → Option StepResult
  | succeed status took _ _ => some (.success step.name status took)
  | fail status took message => some (.failure step.name status took message)
  | refuse =>
    some (.failure step.name 400 .zero ("failed to evaluate condition: " ++ Condition.malformed))
  | passOver | lose => none

/-- The variables behind it: those that the response to an executed step has values for are set. -/
def learned (step : Step) (scope : Dict String) : Act → Dict String
  | succeed _ _ headers body => Extract.set step.saveVariables headers body scope
  | passOver | refuse | fail .. | lose => scope

/-- Is this what the account does at a step, by the value of its condition, and does it lead from
one state of the world to another? -/
def Does (w : Http.World σ) (interval : Duration) (step : Step) (scope : Dict String) (s s' : σ)
    (act : Act) : Prop :=
  match Condition.holds? scope step.condition with
  | none => act = refuse ∧ s' = s
  | some false => act = passOver ∧ s' = s
  | some true => act.isExecuted = true ∧ execute w interval step scope s
      = ((act.result? step).map fun result => (result, act.learned step scope), s')

/-- **What an account does at a step is one of three things.** -/
theorem does_iff {step : Step} {scope : Dict String} {s s' : σ} {act : Act} :
    act.Does w interval step scope s s' ↔
      (Condition.holds? scope step.condition = none ∧ act = refuse ∧ s' = s) ∨
      (Condition.holds? scope step.condition = some false ∧ act = passOver ∧ s' = s) ∨
      (Condition.holds? scope step.condition = some true ∧ act.isExecuted = true ∧
        execute w interval step scope s
          = ((act.result? step).map fun result => (result, act.learned step scope), s')) := by
  unfold Does
  rcases Condition.holds? scope step.condition with _ | _ | _ <;> simp

theorem isLast_eq_false_iff {act : Act} (h : act ≠ lose) (step : Step) :
    act.isLast = false ↔ ∀ result ∈ act.result? step, result.isSuccess = true := by
  cases act with
  | passOver => exact ⟨fun _ => nofun, fun _ => rfl⟩
  | refuse => exact ⟨nofun, fun h => absurd (h _ rfl) nofun⟩
  | succeed status took headers body =>
    refine ⟨fun _ => ?_, fun _ => rfl⟩
    rintro result ⟨⟩
    rfl
  | fail status took message => exact ⟨nofun, fun h => absurd (h _ rfl) nofun⟩
  | lose => exact absurd rfl h

end Act

/-- Did the step come to this response, the first as expected? -/
def Responds (w : Http.World σ) (interval : Duration) (step : Step) (scope : Dict String) (s : σ)
    (status : Nat) (headers : Header.Fields) (body : String) : Prop :=
  ∃ r n, requested step scope = .ok r ∧ n < attemptLimit step ∧
    Course.FailsInTime ⟨w, interval, r, s⟩ step (deadlineOf (w.now s) step) n ∧
    Course.outcome ⟨w, interval, r, s⟩ n = .response status headers body ∧
    Accepts step (.response status headers body)

/-- A visit to a step: what is done and sent there, and the world behind it. -/
structure Visit (σ : Type) where
  step : Step
  act : Act
  requests : List Http.Request
  after : σ

/-- The result that is recorded of a visit, if any. -/
def Visit.result? (v : Visit σ) : Option StepResult := v.act.result? v.step

/-- The variables behind a visit. -/
def Visit.learned (scope : Dict String) (v : Visit σ) : Dict String := v.act.learned v.step scope

/-- Is this the visit of an account with these variables, in this state of the world? -/
structure Visit.Fits (w : Http.World σ) (interval : Duration) (scope : Dict String) (s : σ)
    (v : Visit σ) : Prop where
  does : v.act.Does w interval v.step scope s v.after
  /-- Only an executed step sends something. -/
  requests : v.requests = if v.act.isExecuted then sent w interval v.step scope s else []
  /-- Variables are taken from the response that the step came to. -/
  response : ∀ status took headers body, v.act = .succeed status took headers body →
    Responds w interval v.step scope s status headers body
  /-- A step comes to nothing exactly if its time has no end. -/
  lost : v.act = .lose ↔ v.act.isExecuted = true ∧ IsUnmeasured (w.now s) v.step scope

/-- **A step that is executed ends in one of three ways.** -/
theorem exists_act (w : Http.World σ) (interval : Duration) (step : Step) (scope : Dict String)
    (s : σ) : ∃ act s', act.isExecuted = true ∧
      execute w interval step scope s
        = ((Act.result? step act).map fun result => (result, act.learned step scope), s') ∧
      (∀ status took headers body, act = .succeed status took headers body →
        Responds w interval step scope s status headers body) ∧
      (act = .lose ↔ IsUnmeasured (w.now s) step scope) := by
  by_cases hclock : IsUnmeasured (w.now s) step scope
  · exact ⟨.lose, s, rfl, execute_of_isUnmeasured hclock, nofun, iff_of_true rfl hclock⟩
  · cases hrequest : requested step scope with
    | error message =>
      exact ⟨.fail 0 .zero message, s, rfl, execute_of_error_of_measured hrequest hclock, nofun,
        iff_of_false nofun hclock⟩
    | ok r =>
      obtain ⟨p, method, hp, hmethod, -⟩ := prepare_of_requested hrequest
      have hends : EndsOnClock (w.now s) step := by
        by_contra hends
        exact hclock ⟨⟨p, method, hp, hmethod⟩, hends⟩
      have hexecute : execute w interval step scope s = _ := execute_of_ok hrequest s
      rw [deadline?_of_endsOnClock hends] at hexecute
      dsimp only at hexecute
      rcases hlast : attempts w interval (deadlineOf (w.now s) step) step r (attemptLimit step - 1)
        1 s with ⟨verdict, took, after⟩
      rw [hlast] at hexecute
      cases verdict with
      | failure status message =>
        exact ⟨.fail status _ message, after, rfl, hexecute, nofun, iff_of_false nofun hclock⟩
      | success status headers body =>
        refine ⟨.succeed status took headers body, rested w step after, rfl, hexecute, ?_,
          iff_of_false nofun hclock⟩
        rintro _ _ _ _ ⟨⟩
        obtain ⟨n, hn, hfails, houtcome, haccepts⟩ :=
          exists_outcome_of_attempts ⟨w, interval, r, s⟩ 1 (congrArg Prod.fst hlast)
        have hpos := attemptLimit_pos step
        exact ⟨r, n, hrequest, by omega, hfails, houtcome, haccepts⟩

/-- **Each step has its visit.** -/
theorem exists_visit (w : Http.World σ) (interval : Duration) (step : Step) (scope : Dict String)
    (s : σ) : ∃ v : Visit σ, v.step = step ∧ v.Fits w interval scope s := by
  cases hcondition : Condition.holds? scope step.condition with
  | none =>
    exact ⟨⟨step, .refuse, [], s⟩, rfl, Act.does_iff.mpr (Or.inl ⟨hcondition, rfl, rfl⟩), rfl,
      nofun, iff_of_false nofun nofun⟩
  | some isTrue =>
    cases isTrue with
    | false =>
      exact ⟨⟨step, .passOver, [], s⟩, rfl,
        Act.does_iff.mpr (Or.inr (Or.inl ⟨hcondition, rfl, rfl⟩)), rfl, nofun,
        iff_of_false nofun nofun⟩
    | true =>
      obtain ⟨act, s', hexecuted, hexecute, hresponse, hlost⟩ :=
        exists_act w interval step scope s
      refine ⟨⟨step, act, sent w interval step scope s, s'⟩, rfl,
        Act.does_iff.mpr (Or.inr (Or.inr ⟨hcondition, hexecuted, hexecute⟩)),
        (if_pos hexecuted).symm, hresponse, ?_⟩
      rw [hlost, and_iff_right hexecuted]

/-! ## Passes by their first visit -/

/-- A visit that lets the pass go on comes before the rest. -/
theorem runSteps_of_goes_on {step : Step} {scope : Dict String} {s s' : σ} {act : Act}
    (h : act.Does w interval step scope s s') (hgoes : act.isLast = false) (rest : List Step) :
    runSteps w interval (step :: rest) scope s
      = ((runSteps w interval rest (act.learned step scope) s').1.map fun later =>
          ((act.result? step).toList ++ later.1, later.2),
        (runSteps w interval rest (act.learned step scope) s').2) := by
  rcases Act.does_iff.mp h with ⟨-, rfl, -⟩ | ⟨hcondition, rfl, rfl⟩ |
    ⟨hcondition, hexecuted, hexecute⟩
  · exact Bool.noConfusion hgoes
  · rw [runSteps_of_false hcondition]
    exact Prod.ext Option.map_id'.symm rfl
  · rw [runSteps, hcondition]
    dsimp only
    rw [hexecute]
    cases act with
    | passOver => exact Bool.noConfusion hexecuted
    | refuse => exact Bool.noConfusion hgoes
    | fail status took message => exact Bool.noConfusion hgoes
    | lose => exact Bool.noConfusion hgoes
    | succeed status took headers body =>
      show (if (true : Bool) = true then _ else _) = _
      rw [if_pos rfl]
      generalize runSteps w interval rest _ s' = later
      obtain ⟨later, last⟩ := later
      cases later with
      | none => rfl
      | some later => rfl

/-- A visit that ends the pass is all there is of it. -/
theorem runSteps_of_last {step : Step} {scope : Dict String} {s s' : σ} {act : Act}
    (h : act.Does w interval step scope s s') (hlast : act.isLast = true) (rest : List Step) :
    runSteps w interval (step :: rest) scope s
      = ((act.result? step).map fun result => ([result], false), s') := by
  rcases Act.does_iff.mp h with ⟨hcondition, rfl, rfl⟩ | ⟨-, rfl, -⟩ |
    ⟨hcondition, hexecuted, hexecute⟩
  · exact runSteps_of_malformed hcondition rest s'
  · exact Bool.noConfusion hlast
  · rw [runSteps, hcondition]
    dsimp only
    rw [hexecute]
    cases act with
    | passOver => exact Bool.noConfusion hlast
    | refuse => exact Bool.noConfusion hexecuted
    | succeed status took headers body => exact Bool.noConfusion hlast
    | fail status took message => rfl
    | lose => rfl

/-- A visit is the same where the requests are kept. -/
theorem Visit.Fits.does_noting {scope : Dict String} {s : σ} {v : Visit σ}
    (h : v.Fits w interval scope s) (log : List Http.Request) :
    v.act.Does (noting w) interval v.step scope (s, log) (v.after, log ++ v.requests) := by
  have hunsent : v.act.isExecuted = false → log ++ v.requests = log := by
    intro hunexecuted
    rw [h.requests, hunexecuted]
    exact List.append_nil log
  rcases Act.does_iff.mp h.does with ⟨hcondition, hact, hafter⟩ | ⟨hcondition, hact, hafter⟩ |
    ⟨hcondition, hexecuted, hexecute⟩
  · refine Act.does_iff.mpr (Or.inl ⟨hcondition, hact, Prod.ext hafter (hunsent ?_)⟩)
    rw [hact]
    rfl
  · refine Act.does_iff.mpr (Or.inr (Or.inl ⟨hcondition, hact, Prod.ext hafter (hunsent ?_)⟩))
    rw [hact]
    rfl
  · refine Act.does_iff.mpr (Or.inr (Or.inr ⟨hcondition, hexecuted, ?_⟩))
    rw [execute_noting, hexecute, h.requests, if_pos hexecuted]

/-! ## Traces -/

/-- The variables behind some visits. -/
def scopeAfter (scope : Dict String) (visits : List (Visit σ)) : Dict String :=
  visits.foldl Visit.learned scope

/-- The world behind some visits. -/
def worldAfter (s : σ) (visits : List (Visit σ)) : σ := visits.foldl (fun _ v => v.after) s

/-- Are these the visits of an account to its steps, with the variables and in the world that it
starts with? -/
structure Trace (w : Http.World σ) (interval : Duration) (steps : List Step) (scope : Dict String)
    (s : σ) (visits : List (Visit σ)) : Prop where
  /-- The steps are visited in their order, from the first one on. -/
  inOrder : visits.map Visit.step <+: steps
  /-- The pass goes on up to the last visit. -/
  goesOn : ∀ v ∈ visits.dropLast, v.act.isLast = false
  /-- The last visit ends the pass if steps are left. -/
  ends : visits.length < steps.length → ∃ v ∈ visits.getLast?, v.act.isLast = true
  /-- Each visit fits what the visits before it have left. -/
  fits : ∀ before v later, visits = before ++ v :: later →
    v.Fits w interval (scopeAfter scope before) (worldAfter s before)

variable {steps rest : List Step} {scope : Dict String} {s : σ} {v : Visit σ}
  {visits : List (Visit σ)}

/-- What holds at each position of a list holds at the first one and at those behind it. -/
theorem forall_position_cons {α : Type} {P : List α → α → Prop} {x : α} {xs : List α} :
    (∀ before y later, x :: xs = before ++ y :: later → P before y) ↔
      P [] x ∧ ∀ before y later, xs = before ++ y :: later → P (x :: before) y := by
  constructor
  · intro h
    exact ⟨h [] x xs rfl, fun before y later heq => h (x :: before) y later (heq ▸ rfl)⟩
  · rintro ⟨hfirst, hlater⟩ before y later heq
    cases before with
    | nil =>
      cases heq
      exact hfirst
    | cons z before =>
      obtain ⟨rfl, htail⟩ := List.cons.inj heq
      exact hlater before y later htail

theorem Trace.nil (w : Http.World σ) (interval : Duration) (scope : Dict String) (s : σ) :
    Trace w interval [] scope s [] := by
  refine ⟨List.prefix_refl _, nofun, fun h => absurd h (Nat.lt_irrefl _), ?_⟩
  intro before v later h
  exact absurd h.symm (List.append_ne_nil_of_right_ne_nil _ (List.cons_ne_nil _ _))

theorem Trace.eq_nil (h : Trace w interval steps scope s []) : steps = [] := by
  cases steps with
  | nil => rfl
  | cons step steps =>
    obtain ⟨v, hv, -⟩ := h.ends (Nat.succ_pos _)
    exact absurd hv nofun

/-- A visit that ends the pass is a trace of its own. -/
theorem Trace.single (hfits : v.Fits w interval scope s) (hlast : v.act.isLast = true)
    (rest : List Step) : Trace w interval (v.step :: rest) scope s [v] := by
  refine ⟨List.cons_prefix_cons.mpr ⟨rfl, List.nil_prefix⟩, nofun, fun _ => ⟨v, rfl, hlast⟩, ?_⟩
  refine forall_position_cons.mpr ⟨hfits, fun before u later h => ?_⟩
  exact absurd h.symm (List.append_ne_nil_of_right_ne_nil _ (List.cons_ne_nil _ _))

/-- A visit that lets the pass go on comes before a trace of the rest. -/
theorem Trace.cons (hfits : v.Fits w interval scope s) (hgoes : v.act.isLast = false)
    (h : Trace w interval rest (v.learned scope) v.after visits) :
    Trace w interval (v.step :: rest) scope s (v :: visits) := by
  refine ⟨List.cons_prefix_cons.mpr ⟨rfl, h.inOrder⟩, ?_, ?_,
    forall_position_cons.mpr ⟨hfits, h.fits⟩⟩
  · cases visits with
    | nil => exact nofun
    | cons u visits =>
      rw [List.dropLast_cons_cons, List.forall_mem_cons]
      exact ⟨hgoes, h.goesOn⟩
  · intro hlength
    have hends := h.ends (Nat.lt_of_succ_lt_succ hlength)
    cases visits with
    | nil => exact absurd hends nofun
    | cons u visits => exact hends

/-- **A trace is its first visit and, if the pass goes on, a trace of the rest.** -/
theorem Trace.uncons (h : Trace w interval steps scope s (v :: visits)) :
    ∃ rest, steps = v.step :: rest ∧ v.Fits w interval scope s ∧
      (v.act.isLast = true ∧ visits = [] ∨
        v.act.isLast = false ∧ Trace w interval rest (v.learned scope) v.after visits) := by
  obtain ⟨left, rfl⟩ := h.inOrder
  obtain ⟨hfits, hlater⟩ := forall_position_cons.mp h.fits
  refine ⟨visits.map Visit.step ++ left, rfl, hfits, ?_⟩
  cases visits with
  | nil =>
    cases hlast : v.act.isLast with
    | true => exact Or.inl ⟨rfl, rfl⟩
    | false =>
      refine Or.inr ⟨rfl, List.prefix_append _ _, nofun, fun hlength => ?_, hlater⟩
      -- steps are left behind the only visit, so it would end the pass
      obtain ⟨u, hu, hends⟩ := h.ends (Nat.succ_lt_succ hlength)
      cases hu
      exact absurd (hlast.symm.trans hends) nofun
  | cons u visits =>
    have hgoes := h.goesOn
    rw [List.dropLast_cons_cons, List.forall_mem_cons] at hgoes
    exact Or.inr ⟨hgoes.1, List.prefix_append _ _, hgoes.2,
      fun hlength => h.ends (Nat.succ_lt_succ hlength), hlater⟩

/-- **Each pass has a trace.** -/
theorem exists_trace (w : Http.World σ) (interval : Duration) (steps : List Step)
    (scope : Dict String) (s : σ) : ∃ visits, Trace w interval steps scope s visits := by
  induction steps generalizing scope s with
  | nil => exact ⟨[], .nil w interval scope s⟩
  | cons step rest ih =>
    obtain ⟨v, rfl, hfits⟩ := exists_visit w interval step scope s
    cases hlast : v.act.isLast with
    | true => exact ⟨[v], .single hfits hlast rest⟩
    | false =>
      obtain ⟨visits, hvisits⟩ := ih (v.learned scope) v.after
      exact ⟨v :: visits, .cons hfits hlast hvisits⟩

/-- The steps behind a visit that ends the pass can be any. -/
theorem Trace.with_later (h : Trace w interval steps scope s visits)
    (hends : ∃ v ∈ visits, v.act.isLast = true) (later : List Step) :
    Trace w interval (visits.map Visit.step ++ later) scope s visits := by
  refine ⟨List.prefix_append _ _, h.goesOn, fun _ => ?_, h.fits⟩
  obtain ⟨v, hv, hlast⟩ := hends
  rcases List.eq_nil_or_concat' visits with rfl | ⟨before, u, rfl⟩
  · exact absurd hv List.not_mem_nil
  · refine ⟨u, by rw [List.getLast?_concat]; rfl, ?_⟩
    rcases List.mem_append.mp hv with hbefore | hu
    · have hgoes := h.goesOn v (by rwa [List.dropLast_concat])
      exact absurd (hlast.symm.trans hgoes) nofun
    · rwa [← List.mem_singleton.mp hu]

/-! ## What a trace tells -/

/-- What visits are recorded as: the results and whether all is well; nothing if one of them is
lost. -/
def recorded (visits : List (Visit σ)) : Option (List StepResult × Bool) :=
  if ∃ v ∈ visits, v.act = .lose then none
  else some (visits.filterMap Visit.result?, visits.all fun v => !v.act.isLast)

theorem recorded_cons (hgoes : v.act.isLast = false) (visits : List (Visit σ)) :
    recorded (v :: visits) = (recorded visits).map fun later =>
      (v.result?.toList ++ later.1, later.2) := by
  have hlose : v.act ≠ .lose := fun hlose => absurd (hlose ▸ hgoes) nofun
  unfold recorded
  simp only [List.exists_mem_cons_iff, hlose, false_or]
  split
  · rfl
  · rw [Option.map_some, List.all_cons, hgoes, List.filterMap_cons]
    cases v.result? <;> rfl

theorem recorded_singleton (hlast : v.act.isLast = true) :
    recorded [v] = v.result?.map fun result => ([result], false) := by
  obtain ⟨step, act, requests, after⟩ := v
  unfold recorded
  simp only [List.mem_singleton, exists_eq_left, List.filterMap_cons, List.filterMap_nil,
    Visit.result?]
  cases act with
  | passOver => exact absurd hlast nofun
  | succeed status took headers body => exact absurd hlast nofun
  | refuse => rfl
  | fail status took message => rfl
  | lose => rfl

/-- **A pass comes to what its trace records**, and leaves the world that its last visit leaves. -/
theorem runSteps_of_trace (h : Trace w interval steps scope s visits) :
    runSteps w interval steps scope s = (recorded visits, worldAfter s visits) := by
  induction visits generalizing steps scope s with
  | nil =>
    rw [h.eq_nil]
    rfl
  | cons v visits ih =>
    obtain ⟨rest, rfl, hfits, ⟨hlast, rfl⟩ | ⟨hgoes, hrest⟩⟩ := h.uncons
    · rw [runSteps_of_last hfits.does hlast, recorded_singleton hlast]
      rfl
    · change Trace w interval rest (v.act.learned v.step scope) v.after visits at hrest
      rw [runSteps_of_goes_on hfits.does hgoes, ih hrest, recorded_cons hgoes]
      rfl

/-- **A pass sends what the visits of its trace send.** -/
theorem runSteps_noting (h : Trace w interval steps scope s visits) (log : List Http.Request) :
    runSteps (noting w) interval steps scope (s, log)
      = (recorded visits, worldAfter s visits, log ++ visits.flatMap Visit.requests) := by
  induction visits generalizing steps scope s log with
  | nil =>
    rw [h.eq_nil, List.flatMap_nil, List.append_nil]
    rfl
  | cons v visits ih =>
    obtain ⟨rest, rfl, hfits, ⟨hlast, rfl⟩ | ⟨hgoes, hrest⟩⟩ := h.uncons
    · rw [runSteps_of_last (hfits.does_noting log) hlast, recorded_singleton hlast,
        List.flatMap_cons, List.flatMap_nil, List.append_nil]
      rfl
    · change Trace w interval rest (v.act.learned v.step scope) v.after visits at hrest
      rw [runSteps_of_goes_on (hfits.does_noting log) hgoes, ih hrest, recorded_cons hgoes,
        List.flatMap_cons, ← List.append_assoc]
      rfl

/-! ## Passes of accounts -/

/-- The results of visits that let the pass go on are successes. -/
theorem success_of_goes_on (hgoes : v.act.isLast = false) {result : StepResult}
    (h : v.result? = some result) : result.isSuccess = true := by
  have hlose : v.act ≠ .lose := fun hlose => absurd (hlose ▸ hgoes) nofun
  exact (Act.isLast_eq_false_iff hlose v.step).mp hgoes result h

/-- All results but the last are successes. -/
theorem Trace.success_of_mem_dropLast (h : Trace w interval steps scope s visits) :
    ∀ result ∈ (visits.filterMap Visit.result?).dropLast,
      result.isSuccess = true := by
  rcases List.eq_nil_or_concat' visits with rfl | ⟨before, last, rfl⟩
  · exact nofun
  · have hbefore : ∀ result ∈ before.filterMap Visit.result?,
        result.isSuccess = true := by
      intro result hresult
      obtain ⟨v, hv, hv'⟩ := List.mem_filterMap.mp hresult
      exact success_of_goes_on (h.goesOn v (by rwa [List.dropLast_concat])) hv'
    intro result hresult
    refine hbefore result ?_
    rw [List.filterMap_append] at hresult
    cases hlast : last.result? with
    | none =>
      rw [List.filterMap_cons_none hlast, List.filterMap_nil, List.append_nil] at hresult
      exact List.mem_of_mem_dropLast hresult
    | some r =>
      rw [List.filterMap_cons_some hlast, List.filterMap_nil, List.dropLast_concat] at hresult
      exact hresult

/-- Visits of which none is lost go on exactly if all results are successes. -/
theorem all_goes_on_iff (h : ¬ ∃ v ∈ visits, v.act = .lose) :
    (visits.all fun v => !v.act.isLast) = true ↔
      ∀ result ∈ visits.filterMap Visit.result?, result.isSuccess = true := by
  rw [List.all_eq_true]
  simp only [Bool.not_eq_true', List.mem_filterMap]
  constructor
  · rintro hgoes result ⟨v, hv, hresult⟩
    exact success_of_goes_on (hgoes v hv) hresult
  · intro hsuccess v hv
    have hlose : v.act ≠ .lose := fun hlose => h ⟨v, hv, hlose⟩
    exact (Act.isLast_eq_false_iff hlose v.step).mpr fun result hresult =>
      hsuccess result ⟨v, hv, hresult⟩

/-- What an account's pass comes to, by what its steps come to. -/
theorem runAccount_eq (w : Http.World σ) (script : Script) (a : Account) (s : σ) :
    runAccount w interval script a s
      = ((runSteps w interval script.steps a.scope s).1.map fun pass =>
          { username := a.username
            steps := pass.1
            totalTime :=
              ⟨(w.now (runSteps w interval script.steps a.scope s).2).nanos - (w.now s).nanos⟩
            isSuccess := pass.2 },
        (runSteps w interval script.steps a.scope s).2) := by
  unfold runAccount
  rcases runSteps w interval script.steps a.scope s with ⟨pass, after⟩
  cases pass <;> rfl

/-- **The pass of an account is a prefix of its script.**  It visits the steps in order, each with
the variables made of user name, password and what the steps executed before have left, up to the
first visit that is neither a success nor passes over its step; what follows is of no account.  The
results are those of the visits, all successes but perhaps the last, and nothing is sent or learned
without executing a step.  A result is missing exactly if the time for a step has no end. -/
theorem pass_traced (w : Http.World σ) (interval : Duration) (script : Script) (a : Account)
    (s : σ) :
    ∃ visits : List (Visit σ),
      Trace w interval script.steps
        (.ofList [("username", a.username), ("password", a.password)]) s visits ∧
      -- what is sent, and the world behind it
      (runAccount w interval script a s).2 = worldAfter s visits ∧
      (runAccount (noting w) interval script a (s, [])).2.2 = visits.flatMap Visit.requests ∧
      -- other steps behind the last visit would make no difference
      ((∃ v ∈ visits, v.act.isLast = true) → ∀ later,
        runAccount w interval { script with steps := visits.map Visit.step ++ later } a s
          = runAccount w interval script a s) ∧
      ((runAccount w interval script a s).1 = none ↔ ∃ v ∈ visits, v.act = .lose) ∧
      ∀ result, (runAccount w interval script a s).1 = some result →
        result.username = a.username ∧
        result.steps = visits.filterMap Visit.result? ∧
        (∀ r ∈ result.steps.dropLast, r.isSuccess = true) ∧
        (result.isSuccess = true ↔ ∀ r ∈ result.steps, r.isSuccess = true) := by
  obtain ⟨visits, htrace⟩ := exists_trace w interval script.steps a.scope s
  have hpass := runSteps_of_trace htrace
  refine ⟨visits, htrace, ?_, ?_, ?_, ?_, ?_⟩
  · rw [runAccount_eq, hpass]
  · rw [runAccount_eq, runSteps_noting htrace, List.nil_append]
  · intro hends later
    rw [runAccount_eq, runAccount_eq, hpass, runSteps_of_trace (htrace.with_later hends later)]
  · rw [runAccount_eq, hpass, Option.map_eq_none_iff]
    unfold recorded
    split
    next hlost => exact iff_of_true rfl hlost
    next hkept => exact iff_of_false nofun hkept
  · intro result hresult
    rw [runAccount_eq, hpass] at hresult
    obtain ⟨pass, hrecorded, rfl⟩ := Option.map_eq_some_iff.mp hresult
    unfold recorded at hrecorded
    split at hrecorded
    next => exact absurd hrecorded nofun
    next hkept =>
      obtain rfl := Option.some.inj hrecorded
      exact ⟨rfl, rfl, htrace.success_of_mem_dropLast, all_goes_on_iff hkept⟩

/-- **A step whose time has no end leaves an account without a result**, the steps before it
included. -/
theorem unmeasured_step_unrecorded :
    let guarded : Step :=
      { (default : Step) with
        name := "guarded"
        path := "http://127.0.0.1:1/"
        condition := "\x7b\x7busername\x7d\x7d == root" }
    let unmeasured : Step :=
      { (default : Step) with
        name := "view"
        path := "http://127.0.0.1:1/"
        retryForSeconds := 18446744073709551615
        maxRetryTimes := 1 }
    runAccount Http.World.void (.ofMillis 1000) ⟨"shop", 1, "", [guarded, unmeasured]⟩ ⟨"u", "p"⟩
      ⟨.zero, .zero⟩ = (none, ⟨.zero, .zero⟩) := by
  decide +kernel

end MockServer.Run
