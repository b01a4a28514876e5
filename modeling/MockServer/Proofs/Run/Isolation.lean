/-
  MockServer.Proofs.Run.Isolation — what a pass depends on.

  A server may answer each request in one way, whatever was asked
  before.  Then the passes of one account tell the same whenever they
  are made: time decides how long the steps take and how often one that
  fails is tried, and nothing else.

  Main definitions:
    * `Answers` — a world whose server answers each request in one way;
    * `StepResult.Alike`, `AccountResult.Alike` — results that differ in
      what time decides.

  Main results:
    * `execute_of_error`, `execute_of_ok` — a step by its request;
    * `execute_shows` — what a step comes to, up to time;
    * `runAccount_alike` — two passes of an account tell the same.
-/
import Mathlib.Data.List.Forall2
import MockServer.Run.Pass

namespace MockServer.Run

variable {σ : Type} {w : Http.World σ} {interval : Duration}

/-! ## The server -/

/-- Does the server answer each request in this way, whatever was asked before? -/
def Answers (w : Http.World σ) (serve : Http.Request → Http.Outcome) : Prop :=
  ∀ r s, (w.send r s).1 = serve r

/-- What is transmitted comes to what the server answers, if it is sent. -/
def transmitted (serve : Http.Request → Http.Outcome) (r : Http.Request) : Http.Outcome :=
  if Http.isSendable r.url then serve r
  else .failed ("builder error for url (" ++ r.url.toText ++ ")")

theorem transmit_fst {serve : Http.Request → Http.Outcome} (h : Answers w serve)
    (r : Http.Request) (s : σ) : (w.transmit r s).1 = transmitted serve r := by
  unfold Http.World.transmit transmitted
  split
  · exact h r s
  · rfl

/-! ## Attempts -/

/-- **The attempts come to what one of them comes to**; time decides to which. -/
theorem attempts_judge {serve : Http.Request → Http.Outcome} (h : Answers w serve)
    (deadline : Duration) (step : Step) (r : Http.Request) (left attempt : Nat) (s : σ) :
    ∃ n, attempt ≤ n ∧ n ≤ attempt + left ∧
      (attempts w interval deadline step r left attempt s).1
        = judge step n (transmitted serve r) := by
  induction left generalizing attempt s with
  | zero =>
    refine ⟨attempt, Nat.le_refl _, Nat.le_refl _, ?_⟩
    rw [attempts, ← transmit_fst h r s]
    generalize w.transmit r s = sent
    obtain ⟨outcome, after⟩ := sent
    simp only
    cases judge step attempt outcome with
    | success status headers body => rfl
    | failure status message => rfl
  | succ left ih =>
    rw [attempts, ← transmit_fst h r s]
    generalize hsent : w.transmit r s = sent
    obtain ⟨outcome, after⟩ := sent
    simp only
    cases hverdict : judge step attempt outcome with
    | success status headers body => exact ⟨attempt, Nat.le_refl _, by omega, hverdict.symm⟩
    | failure status message =>
      simp only
      by_cases htime : (w.now after).nanos < deadline.nanos
      · -- the next attempt meets the same answer
        obtain ⟨n, hfrom, hto, hn⟩ := ih (attempt + 1) (w.pause interval after)
        rw [← transmit_fst h r s, hsent] at hn
        rw [if_pos htime]
        exact ⟨n, by omega, by omega, hn⟩
      · rw [if_neg htime]
        exact ⟨attempt, Nat.le_refl _, by omega, hverdict.symm⟩

/-- A step without time for attempts has one. -/
theorem attemptLimit_of_once {step : Step} (h : step.retryForSeconds = 0) : attemptLimit step = 1 :=
  if_pos h

/-! ## Steps -/

/-- The request of a step, or why there is none. -/
def requested (step : Step) (scope : Dict String) : Except String Http.Request :=
  match prepare step scope with
  | .error message => .error message
  | .ok p =>
    match Http.Method.parseOrDefault? p.method with
    | none => .error (notCreated (Http.Method.unknown (Text.trim p.method)))
    | some method =>
      match Http.Request.build method p.url p.headers p.body with
      | .error e => .error (notCreated e.message)
      | .ok r => .ok r

/-- The result of a step and the variables behind it, by the verdict on it and the time it took. -/
def shown (step : Step) (scope : Dict String) (took : Duration) :
    Verdict → StepResult × Dict String
  | .success status headers body =>
    (.success step.name status took, Extract.set step.saveVariables headers body scope)
  | .failure status message => (.failure step.name status took message, scope)

/-- **A step without a request fails with what is said of it**, and the world stays as it is; a
time without end is noticed before the parts of the request are. -/
theorem execute_of_error {step : Step} {scope : Dict String} {message : String}
    (hmessage : requested step scope = .error message) (s : σ) :
    execute w interval step scope s = (some (.failure step.name 0 .zero message, scope), s) ∨
      deadline? (w.now s) step = none ∧ execute w interval step scope s = (none, s) := by
  have hzero : (⟨(w.now s).nanos - (w.now s).nanos⟩ : Duration) = .zero := by
    rw [Nat.sub_self]
    rfl
  unfold requested at hmessage
  unfold execute
  -- nothing below depends on what the stages do
  generalize prepare step scope = prepared at hmessage
  generalize Http.Method.parseOrDefault? = method? at hmessage
  generalize deadline? = limit?
  generalize Http.Request.build = build at hmessage
  generalize attempts w interval = last
  cases prepared with
  | error detail =>
    simp only [Except.error.injEq] at hmessage
    simp only [hzero, hmessage, true_or]
  | ok p =>
    cases hmethod : method? p.method with
    | none =>
      simp only [hmethod, Except.error.injEq] at hmessage
      simp only [hmethod, hzero, hmessage, true_or]
    | some method =>
      cases hbuilt : build method p.url p.headers p.body with
      | ok r => simp only [hmethod, hbuilt, reduceCtorEq] at hmessage
      | error e =>
        simp only [hmethod, hbuilt, Except.error.injEq] at hmessage
        cases hlimit : limit? (w.now s) step with
        | none => simp only [hmethod, hlimit, and_self, or_true]
        | some deadline => simp only [hmethod, hlimit, hbuilt, hzero, hmessage, true_or]

/-- The world after a step that came to a response as expected. -/
def rested (w : Http.World σ) (step : Step) (s : σ) : σ :=
  if step.waitAfterSeconds = 0 then s else w.pause (.ofSeconds step.waitAfterSeconds.toNat) s

/-- How a step that starts at `s` ends, by what its attempts came to. -/
def ended (w : Http.World σ) (step : Step) (scope : Dict String) (s : σ) :
    Verdict × Duration × σ → Option (StepResult × Dict String) × σ
  | (.success status headers body, took, after) =>
    (some (shown step scope took (.success status headers body)), rested w step after)
  | (.failure status message, _, after) =>
    (some (shown step scope ⟨(w.now after).nanos - (w.now s).nanos⟩ (.failure status message)),
      after)

/-- **A step with a request ends as its attempts do**, if their time has an end. -/
theorem execute_of_ok {step : Step} {scope : Dict String} {r : Http.Request}
    (hr : requested step scope = .ok r) (s : σ) :
    execute w interval step scope s = match deadline? (w.now s) step with
      | none => (none, s)
      | some deadline =>
        ended w step scope s (attempts w interval deadline step r (attemptLimit step - 1) 1 s) := by
  unfold requested at hr
  unfold execute
  generalize prepare step scope = prepared at hr
  generalize Http.Method.parseOrDefault? = method? at hr
  generalize deadline? = limit?
  generalize Http.Request.build = build at hr
  generalize attempts w interval = last
  generalize attemptLimit step - 1 = left
  cases prepared with
  | error detail => simp only [reduceCtorEq] at hr
  | ok p =>
    cases hmethod : method? p.method with
    | none => simp only [hmethod, reduceCtorEq] at hr
    | some method =>
      cases hbuilt : build method p.url p.headers p.body with
      | error e => simp only [hmethod, hbuilt, reduceCtorEq] at hr
      | ok built =>
        simp only [hmethod, hbuilt, Except.ok.injEq] at hr
        subst hr
        cases hlimit : limit? (w.now s) step with
        | none => simp only [hmethod, hlimit]
        | some deadline =>
          simp only [hmethod, hlimit, hbuilt]
          rcases last deadline step built left 1 s with ⟨verdict | verdict, took, after⟩ <;> rfl

/-- A step without a request shows what is said of it. -/
theorem execute_of_rejected {step : Step} {scope : Dict String} {message : String}
    (hmessage : requested step scope = .error message) {s : σ} {result : StepResult × Dict String}
    (hresult : (execute w interval step scope s).1 = some result) :
    ∃ took, result = shown step scope took (.failure 0 message) := by
  rcases @execute_of_error σ w interval _ _ _ hmessage s with hfail | ⟨-, hnone⟩
  · rw [hfail] at hresult
    exact ⟨.zero, (Option.some.inj hresult).symm⟩
  · rw [hnone] at hresult
    exact absurd hresult.symm (Option.some_ne_none result)

/-- A step with a request shows what its attempts come to. -/
theorem execute_of_requested {step : Step} {scope : Dict String} {r : Http.Request}
    (hr : requested step scope = .ok r) {s : σ} {result : StepResult × Dict String}
    (hresult : (execute w interval step scope s).1 = some result) :
    ∃ deadline took, result = shown step scope took
      (attempts w interval deadline step r (attemptLimit step - 1) 1 s).1 := by
  rw [execute_of_ok hr] at hresult
  cases hlimit : deadline? (w.now s) step with
  | none =>
    rw [hlimit] at hresult
    exact absurd hresult.symm (Option.some_ne_none result)
  | some deadline =>
    rw [hlimit] at hresult
    dsimp only at hresult
    refine ⟨deadline, ?_⟩
    generalize attempts w interval deadline step r (attemptLimit step - 1) 1 s = last at hresult ⊢
    obtain ⟨verdict, took, after⟩ := last
    cases verdict with
    | success status headers body => exact ⟨took, (Option.some.inj hresult).symm⟩
    | failure status message => exact ⟨_, (Option.some.inj hresult).symm⟩

/-- The verdict on a step at one of its attempts. -/
def verdict (serve : Http.Request → Http.Outcome) (step : Step) (scope : Dict String) (n : Nat) :
    Verdict :=
  match requested step scope with
  | .error message => .failure 0 message
  | .ok r => judge step n (transmitted serve r)

/-- **A step shows the verdict at one of its attempts**, the first if it is tried only once. -/
theorem execute_shows {serve : Http.Request → Http.Outcome} (h : Answers w serve) {step : Step}
    {scope : Dict String} {s : σ} {result : StepResult × Dict String}
    (hresult : (execute w interval step scope s).1 = some result) :
    ∃ took n, (step.retryForSeconds = 0 → n = 1) ∧
      result = shown step scope took (verdict serve step scope n) := by
  unfold verdict
  cases hrequest : requested step scope with
  | error message =>
    obtain ⟨took, hshown⟩ := execute_of_rejected hrequest hresult
    exact ⟨took, 1, fun _ => rfl, hshown⟩
  | ok r =>
    obtain ⟨deadline, took, hshown⟩ := execute_of_requested hrequest hresult
    obtain ⟨n, hfrom, hto, hn⟩ : ∃ n, 1 ≤ n ∧ n ≤ 1 + (attemptLimit step - 1) ∧
        (attempts w interval deadline step r (attemptLimit step - 1) 1 s).1
          = judge step n (transmitted serve r) := attempts_judge h deadline step r _ 1 s
    refine ⟨took, n, ?_, hshown.trans (congrArg _ hn)⟩
    intro honce
    rw [attemptLimit_of_once honce] at hto
    omega

/-! ## Results that tell the same -/

/-- Are these the messages of one failure of a step, at attempts that may differ? -/
def SameFailure (step : Step) (x y : Option String) : Prop :=
  ∃ outcome status m n xText yText, judge step m outcome = .failure status xText ∧
    judge step n outcome = .failure status yText ∧ x = some xText ∧ y = some yText

/-- Results of a step that differ in what time decides: in how long it took and, for a step that is
tried again, in how often it was tried. -/
structure StepResult.Alike (steps : List Step) (x y : StepResult) : Prop where
  stepName : x.stepName = y.stepName
  status : x.status = y.status
  isSuccess : x.isSuccess = y.isSuccess
  errorMessage : x.errorMessage = y.errorMessage ∨
    ∃ step ∈ steps, step.retryForSeconds ≠ 0 ∧ SameFailure step x.errorMessage y.errorMessage

/-- Results of an account that differ in what time decides. -/
structure AccountResult.Alike (steps : List Step) (x y : AccountResult) : Prop where
  username : x.username = y.username
  steps : List.Forall₂ (StepResult.Alike steps) x.steps y.steps
  isSuccess : x.isSuccess = y.isSuccess

theorem StepResult.Alike.refl (steps : List Step) (x : StepResult) : x.Alike steps x :=
  ⟨rfl, rfl, rfl, Or.inl rfl⟩

/-- Whether an attempt succeeds does not depend on which one it is. -/
theorem judge_cases (step : Step) (outcome : Http.Outcome) :
    (∃ status headers body, ∀ n, judge step n outcome = .success status headers body) ∨
    (∃ status, ∀ n, ∃ message, judge step n outcome = .failure status message) := by
  cases outcome with
  | failed detail => exact Or.inr ⟨0, fun n => ⟨_, rfl⟩⟩
  | unreadable status detail => exact Or.inr ⟨status, fun n => ⟨_, rfl⟩⟩
  | response status headers body =>
    by_cases hexpected : 0 < step.expectStatus.toNat ∧ status ≠ step.expectStatus.toNat
    · exact Or.inr ⟨status, fun n => ⟨_, if_pos hexpected⟩⟩
    · exact Or.inl ⟨status, headers, body, fun n => if_neg hexpected⟩

/-- **The verdicts at two attempts are shown alike**, and leave the same variables. -/
theorem shown_alike {steps : List Step} {step : Step} (hstep : step ∈ steps)
    (serve : Http.Request → Http.Outcome) (scope : Dict String) {m n : Nat}
    (hm : step.retryForSeconds = 0 → m = 1) (hn : step.retryForSeconds = 0 → n = 1)
    (took took' : Duration) :
    (shown step scope took (verdict serve step scope m)).1.Alike steps
      (shown step scope took' (verdict serve step scope n)).1 ∧
    (shown step scope took (verdict serve step scope m)).2
      = (shown step scope took' (verdict serve step scope n)).2 := by
  unfold verdict
  cases requested step scope with
  | error message => exact ⟨⟨rfl, rfl, rfl, Or.inl rfl⟩, rfl⟩
  | ok r =>
    obtain ⟨status, headers, body, hsuccess⟩ | ⟨status, hfailure⟩ :=
      judge_cases step (transmitted serve r)
    · simp only [hsuccess]
      exact ⟨⟨rfl, rfl, rfl, Or.inl rfl⟩, rfl⟩
    · obtain ⟨x, hx⟩ := hfailure m
      obtain ⟨y, hy⟩ := hfailure n
      simp only [hx, hy]
      refine ⟨⟨rfl, rfl, rfl, ?_⟩, rfl⟩
      by_cases honce : step.retryForSeconds = 0
      · -- both are the first attempt
        rw [hm honce] at hx
        rw [hn honce, hx] at hy
        exact Or.inl (congrArg some (Verdict.failure.inj hy).2)
      · exact Or.inr ⟨step, hstep, honce, transmitted serve r, status, m, n, x, y, hx, hy, rfl, rfl⟩

/-! ## Passes -/

/-- A condition that makes no sense ends the pass. -/
theorem runSteps_of_malformed {step : Step} {scope : Dict String}
    (h : Condition.holds? scope step.condition = none) (rest : List Step) (s : σ) :
    runSteps w interval (step :: rest) scope s = (some ([conditionFailure step], false), s) := by
  rw [runSteps, h]

/-- A step whose condition is false is passed over. -/
theorem runSteps_of_false {step : Step} {scope : Dict String}
    (h : Condition.holds? scope step.condition = some false) (rest : List Step) (s : σ) :
    runSteps w interval (step :: rest) scope s = runSteps w interval rest scope s := by
  rw [runSteps, h]

/-- A step whose condition is true is executed, and ends the pass or comes before the rest. -/
theorem runSteps_of_true {step : Step} {rest : List Step} {scope : Dict String} {s : σ}
    {pass : List StepResult × Bool} (h : Condition.holds? scope step.condition = some true)
    (hpass : (runSteps w interval (step :: rest) scope s).1 = some pass) :
    ∃ result scope' after, execute w interval step scope s = (some (result, scope'), after) ∧
      ((result.isSuccess = false ∧ pass = ([result], false)) ∨
        (result.isSuccess = true ∧ ∃ later, (runSteps w interval rest scope' after).1 = some later ∧
          pass = (result :: later.1, later.2))) := by
  rw [runSteps, h] at hpass
  rcases hexecute : execute w interval step scope s with ⟨outcome, after⟩
  simp only [hexecute] at hpass
  cases outcome with
  | none => exact absurd hpass nofun
  | some shown =>
    obtain ⟨result, scope'⟩ := shown
    refine ⟨result, scope', after, rfl, ?_⟩
    cases hresult : result.isSuccess with
    | false =>
      simp only [hresult, Bool.false_eq_true, if_false] at hpass
      exact Or.inl ⟨rfl, (Option.some.inj hpass).symm⟩
    | true =>
      simp only [hresult, if_true] at hpass
      rcases hlater : runSteps w interval rest scope' after with ⟨later, last⟩
      rw [hlater] at hpass
      cases later with
      | none => exact absurd hpass nofun
      | some later => exact Or.inr ⟨rfl, later, rfl, (Option.some.inj hpass).symm⟩

/-- **Two passes through steps tell the same.** -/
theorem runSteps_alike {serve : Http.Request → Http.Outcome} (h : Answers w serve)
    {all steps : List Step} (hall : ∀ step ∈ steps, step ∈ all) {scope : Dict String} {s s' : σ}
    {x y : List StepResult × Bool} (hx : (runSteps w interval steps scope s).1 = some x)
    (hy : (runSteps w interval steps scope s').1 = some y) :
    List.Forall₂ (StepResult.Alike all) x.1 y.1 ∧ x.2 = y.2 := by
  induction steps generalizing scope s s' x y with
  | nil =>
    rw [← Option.some.inj hx, ← Option.some.inj hy]
    exact ⟨.nil, rfl⟩
  | cons step rest ih =>
    rw [List.forall_mem_cons] at hall
    -- the condition depends on the variables alone, so both passes do the same with the step
    cases hcondition : Condition.holds? scope step.condition with
    | none =>
      rw [runSteps_of_malformed hcondition] at hx hy
      rw [← Option.some.inj hx, ← Option.some.inj hy]
      exact ⟨.cons (StepResult.Alike.refl _ _) .nil, rfl⟩
    | some isTrue =>
      cases isTrue with
      | false =>
        rw [runSteps_of_false hcondition] at hx hy
        exact ih hall.2 hx hy
      | true =>
        obtain ⟨result, scope', after, hexecute, hx⟩ := runSteps_of_true hcondition hx
        obtain ⟨result', scope'', after', hexecute', hy⟩ := runSteps_of_true hcondition hy
        obtain ⟨took, m, hm, hshown⟩ := execute_shows h (congrArg Prod.fst hexecute)
        obtain ⟨took', n, hn, hshown'⟩ := execute_shows h (congrArg Prod.fst hexecute')
        have hboth := shown_alike hall.1 serve scope hm hn took took'
        rw [← hshown, ← hshown'] at hboth
        obtain ⟨halike, hscope⟩ := hboth
        obtain ⟨hends, rfl⟩ | ⟨hgoes, later, hlater, rfl⟩ := hx
        · obtain ⟨-, rfl⟩ | ⟨hgoes', -⟩ := hy
          · exact ⟨.cons halike .nil, rfl⟩
          · exact absurd (hends.symm.trans (halike.isSuccess.trans hgoes')) Bool.false_ne_true
        · obtain ⟨hends', -⟩ | ⟨-, later', hlater', rfl⟩ := hy
          · exact absurd (hends'.symm.trans (halike.isSuccess.symm.trans hgoes)) Bool.false_ne_true
          · rw [show scope' = scope'' from hscope] at hlater
            have hrest := ih hall.2 hlater hlater'
            exact ⟨.cons halike hrest.1, hrest.2⟩

/-- **Two passes of an account tell the same**, whenever they are made. -/
theorem runAccount_alike {serve : Http.Request → Http.Outcome} (h : Answers w serve)
    {script : Script} {a : Account} {s s' : σ} {x y : AccountResult}
    (hx : (runAccount w interval script a s).1 = some x)
    (hy : (runAccount w interval script a s').1 = some y) : x.Alike script.steps y := by
  unfold runAccount at hx hy
  rcases hpass : runSteps w interval script.steps a.scope s with ⟨pass, after⟩
  rcases hpass' : runSteps w interval script.steps a.scope s' with ⟨pass', after'⟩
  rw [hpass] at hx
  rw [hpass'] at hy
  cases pass with
  | none => exact absurd hx nofun
  | some pass =>
    cases pass' with
    | none => exact absurd hy nofun
    | some pass' =>
      have halike := runSteps_alike h (fun _ hstep => hstep) (congrArg Prod.fst hpass)
        (congrArg Prod.fst hpass')
      rw [← Option.some.inj hx, ← Option.some.inj hy]
      exact ⟨rfl, halike.1, halike.2⟩

end MockServer.Run
