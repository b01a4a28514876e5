/-
  MockServer.Proofs.Run.Retry — how often a step is tried.

  The attempts at a step follow a course that the world lays down: what
  the next one would come to if all before it failed.  A step takes this
  course up to the first response as expected, and no further than the
  limit on its attempts allows.  Only then, and only after a success,
  do the variables change.

  The attempts end at one that is a success, the last one, or over too
  late.  The induction is on the number of failed attempts in front of
  it; with each of them the course begins one place later.

  Main definitions:
    * `Course` — the attempts one after another;
    * `Accepts` — the outcomes that count as success;
    * `report` — what is said of the others;
    * `sent` — the requests that reach the network;
    * `IsStuck` — what keeps a step from its request.

  Main results:
    * `Course.exists_ends`, `attempts_of_ends` — where the attempts end,
      and what they come to;
    * `scope_of_failure` — a step that fails changes no variable;
    * `execute_within_limits` — what a step comes to.
-/
import MockServer.Proofs.Run.Command
import MockServer.Proofs.Run.Isolation

namespace MockServer.Run

variable {σ : Type}

/-! ## Outcomes -/

/-- Is the outcome a response as expected? -/
def Accepts (step : Step) : Http.Outcome → Prop
  | .response status _ _ => step.expectStatus = 0 ∨ status = step.expectStatus.toNat
  | _ => False

instance (step : Step) : (o : Http.Outcome) → Decidable (Accepts step o)
  | .response _ _ _ => inferInstanceAs (Decidable (_ ∨ _))
  | .failed _ => .isFalse id
  | .unreadable _ _ => .isFalse id

/-- The status of an outcome, zero without a response. -/
def statusOf : Http.Outcome → Nat
  | .failed _ => 0
  | .unreadable status _ => status
  | .response status _ _ => status

/-- The cause of an outcome that is no success: the fault, or the body of the response. -/
def causeOf : Http.Outcome → String
  | .failed detail => detail
  | .unreadable _ detail => detail
  | .response _ _ body => body

/-- What went wrong. -/
def complaint (step : Step) : Http.Outcome → String
  | .failed _ => "request failed"
  | .unreadable _ _ => "failed to read response"
  | .response status _ _ =>
    "expected status " ++ Nat.repr step.expectStatus.toNat ++ ", got " ++ Nat.repr status

/-- What is said of the last of some attempts. -/
def report (step : Step) (made : Nat) (o : Http.Outcome) : String :=
  complaint step o ++ " after " ++ Nat.repr made ++ " attempt(s): " ++ causeOf o

theorem judge_response {step : Step} {status : Nat} {headers : Header.Fields} {body : String}
    (h : Accepts step (.response status headers body)) (made : Nat) :
    judge step made (.response status headers body) = .success status headers body := by
  have hexpected : ¬ (0 < step.expectStatus.toNat ∧ status ≠ step.expectStatus.toNat) := by
    rintro ⟨hpos, hne⟩
    rcases h with hzero | heq
    · rw [hzero] at hpos
      exact absurd hpos (Nat.lt_irrefl 0)
    · exact hne heq
  exact if_neg hexpected

theorem judge_of_not_accepts {step : Step} {o : Http.Outcome} (h : ¬ Accepts step o) (made : Nat) :
    judge step made o = .failure (statusOf o) (report step made o) := by
  cases o with
  | failed detail => rfl
  | unreadable status detail => rfl
  | response status headers body =>
    rw [Accepts, not_or] at h
    have hpos : 0 < step.expectStatus.toNat :=
      Nat.pos_of_ne_zero fun hzero => h.1 (UInt16.toNat_inj.mp hzero)
    exact if_pos ⟨hpos, h.2⟩

/-! ## The course of the attempts -/

/-- The attempts that a world, a pause between them and a request lay down, from a state on. -/
structure Course (σ : Type) where
  world : Http.World σ
  interval : Duration
  request : Http.Request
  start : σ

namespace Course

variable (c : Course σ)

/-- The state before an attempt, if all attempts before it fail. -/
def before : Nat → σ
  | 0 => c.start
  | k + 1 => c.world.pause c.interval (c.world.transmit c.request (before k)).2

/-- What an attempt comes to. -/
def outcome (k : Nat) : Http.Outcome := (c.world.transmit c.request (c.before k)).1

/-- The state after an attempt. -/
def after (k : Nat) : σ := (c.world.transmit c.request (c.before k)).2

/-- How long an attempt takes. -/
def took (k : Nat) : Duration :=
  ⟨(c.world.now (c.after k)).nanos - (c.world.now (c.before k)).nanos⟩

/-- The course behind its first attempt. -/
def next : Course σ := { c with start := c.before 1 }

theorem before_next (k : Nat) : c.next.before k = c.before (k + 1) := by
  induction k with
  | zero => rfl
  | succ k ih =>
    show c.world.pause c.interval (c.world.transmit c.request (c.next.before k)).2 = _
    rw [ih]
    rfl

theorem outcome_next (k : Nat) : c.next.outcome k = c.outcome (k + 1) := by
  show (c.world.transmit c.request (c.next.before k)).1 = _
  rw [before_next]
  rfl

theorem after_next (k : Nat) : c.next.after k = c.after (k + 1) := by
  show (c.world.transmit c.request (c.next.before k)).2 = _
  rw [before_next]
  rfl

theorem took_next (k : Nat) : c.next.took k = c.took (k + 1) := by
  show (⟨(c.world.now (c.next.after k)).nanos - (c.world.now (c.next.before k)).nanos⟩ : Duration)
    = _
  rw [after_next, before_next]
  rfl

/-- Do the first attempts fail before the deadline? -/
def FailsInTime (step : Step) (deadline : Duration) (n : Nat) : Prop :=
  ∀ k < n, ¬ Accepts step (c.outcome k) ∧ (c.world.now (c.after k)).nanos < deadline.nanos

instance (step : Step) (deadline : Duration) (n : Nat) :
    Decidable (c.FailsInTime step deadline n) :=
  inferInstanceAs (Decidable (∀ k < n, _ ∧ _))

/-- Is there no attempt behind this one: is it a success, the last one, or over too late? -/
def Ends (step : Step) (deadline : Duration) (left n : Nat) : Prop :=
  Accepts step (c.outcome n) ∨ n = left ∨ ¬ (c.world.now (c.after n)).nanos < deadline.nanos

/-- There is always a first attempt without another one behind it. -/
theorem exists_ends (step : Step) (deadline : Duration) (left : Nat) :
    ∃ n ≤ left, c.FailsInTime step deadline n ∧ c.Ends step deadline left n := by
  induction left with
  | zero => exact ⟨0, Nat.le_refl 0, fun k hk => absurd hk (Nat.not_lt_zero k), Or.inr (Or.inl rfl)⟩
  | succ left ih =>
    obtain ⟨n, hn, hfails, haccepts | rfl | hlate⟩ := ih
    · exact ⟨n, Nat.le_succ_of_le hn, hfails, Or.inl haccepts⟩
    · -- the attempts so far fail in time, so that the last one decides whether there is another
      by_cases hagain : ¬ Accepts step (c.outcome n) ∧
          (c.world.now (c.after n)).nanos < deadline.nanos
      · refine ⟨n + 1, Nat.le_refl _, fun k hk => ?_, Or.inr (Or.inl rfl)⟩
        rcases Nat.lt_succ_iff_lt_or_eq.mp hk with hk | rfl
        · exact hfails k hk
        · exact hagain
      · rw [not_and_or, not_not] at hagain
        exact ⟨n, Nat.le_succ n, hfails, hagain.imp_right Or.inr⟩
    · exact ⟨n, Nat.le_succ_of_le hn, hfails, Or.inr (Or.inr hlate)⟩

end Course

/-- **The attempts end at the first one that has none behind it.** -/
theorem attempts_of_ends {deadline : Duration} {step : Step} {n left : Nat} (hn : n ≤ left)
    (c : Course σ) (attempt : Nat) (hfails : c.FailsInTime step deadline n)
    (hends : c.Ends step deadline left n) :
    attempts c.world c.interval deadline step c.request left attempt c.start
      = (judge step (attempt + n) (c.outcome n), c.took n, c.after n) := by
  induction n generalizing c left attempt with
  | zero =>
    show _ = (judge step attempt (c.world.transmit c.request c.start).1,
      (⟨(c.world.now (c.world.transmit c.request c.start).2).nanos - (c.world.now c.start).nanos⟩ :
        Duration), (c.world.transmit c.request c.start).2)
    change Accepts step (c.world.transmit c.request c.start).1 ∨ 0 = left ∨
      ¬ (c.world.now (c.world.transmit c.request c.start).2).nanos < deadline.nanos at hends
    rw [attempts]
    generalize c.world.transmit c.request c.start = sent at hends ⊢
    obtain ⟨outcome, after⟩ := sent
    dsimp only at hends ⊢
    by_cases haccepts : Accepts step outcome
    · cases outcome with
      | response status headers body => rw [judge_response haccepts]
      | failed detail => exact haccepts.elim
      | unreadable status detail => exact haccepts.elim
    · rw [judge_of_not_accepts haccepts]
      rcases hends with haccepts' | rfl | hlate
      · exact absurd haccepts' haccepts
      · rfl
      · cases left with
        | zero => rfl
        | succ left => exact if_neg hlate
  | succ n ih =>
    obtain ⟨left, rfl⟩ : ∃ m, left = m + 1 := ⟨left - 1, by omega⟩
    obtain ⟨hfirst, htime⟩ := hfails 0 (Nat.succ_pos n)
    have hlater := ih (Nat.le_of_succ_le_succ hn) c.next (attempt + 1)
      (fun k hk => by
        rw [c.outcome_next, c.after_next]
        exact hfails (k + 1) (Nat.succ_lt_succ hk))
      (by
        unfold Course.Ends
        rw [c.outcome_next, c.after_next]
        exact hends.imp_right (Or.imp_left Nat.succ.inj))
    rw [c.outcome_next, c.took_next, c.after_next, Nat.add_assoc, Nat.add_comm 1 n] at hlater
    rw [← hlater, attempts]
    show _ = attempts c.world c.interval deadline step c.request left (attempt + 1)
      (c.world.pause c.interval (c.world.transmit c.request c.start).2)
    change ¬ Accepts step (c.world.transmit c.request c.start).1 at hfirst
    change (c.world.now (c.world.transmit c.request c.start).2).nanos < _ at htime
    generalize c.world.transmit c.request c.start = sent at hfirst htime ⊢
    obtain ⟨outcome, after⟩ := sent
    dsimp only at hfirst htime ⊢
    rw [judge_of_not_accepts hfirst]
    exact if_pos htime

/-- **The attempts go on until one is a success or none is left.** -/
theorem attempts_course {deadline : Duration} {step : Step} {n left : Nat} (hn : n ≤ left)
    (c : Course σ) (attempt : Nat) (hfails : c.FailsInTime step deadline n)
    (hlast : Accepts step (c.outcome n) ∨ n = left) :
    attempts c.world c.interval deadline step c.request left attempt c.start
      = (judge step (attempt + n) (c.outcome n), c.took n, c.after n) :=
  attempts_of_ends hn c attempt hfails (hlast.imp_right Or.inl)

/-! ## What is sent -/

/-- A world that keeps the requests it is sent. -/
def noting (w : Http.World σ) : Http.World (σ × List Http.Request) where
  send r s := ((w.send r s.1).1, (w.send r s.1).2, s.2 ++ [r])
  now s := w.now s.1
  pause d s := (w.pause d s.1, s.2)

/-- The requests that a step sends. -/
def sent (w : Http.World σ) (interval : Duration) (step : Step) (scope : Dict String) (s : σ) :
    List Http.Request :=
  (execute (noting w) interval step scope (s, [])).2.2

namespace Course

variable (c : Course σ)

def noting : Course (σ × List Http.Request) := ⟨Run.noting c.world, c.interval, c.request, (c.start, [])⟩

/-- What some attempts send: a request that is not for the web never gets there. -/
def sends (n : Nat) : List Http.Request :=
  if Http.isSendable c.request.url then List.replicate n c.request else []

theorem transmit_noting (w : Http.World σ) (r : Http.Request) (s : σ) (log : List Http.Request) :
    (Run.noting w).transmit r (s, log) = ((w.transmit r s).1, (w.transmit r s).2,
      log ++ if Http.isSendable r.url then [r] else []) := by
  unfold Http.World.transmit
  split
  · rfl
  · rw [List.append_nil]

theorem sends_succ (n : Nat) :
    c.sends (n + 1) = c.sends n ++ if Http.isSendable c.request.url then [c.request] else [] := by
  unfold sends
  split
  · exact List.replicate_succ'
  · rfl

/-- Keeping the requests changes nothing else. -/
theorem before_noting (k : Nat) : c.noting.before k = (c.before k, c.sends k) := by
  induction k with
  | zero =>
    have hnone : c.sends 0 = [] := by
      unfold sends
      split <;> rfl
    rw [hnone]
    rfl
  | succ k ih =>
    show (Run.noting c.world).pause c.interval
      ((Run.noting c.world).transmit c.request (c.noting.before k)).2 = _
    rw [ih, transmit_noting, ← sends_succ]
    rfl

theorem outcome_noting (k : Nat) : c.noting.outcome k = c.outcome k := by
  show ((Run.noting c.world).transmit c.request (c.noting.before k)).1 = _
  rw [before_noting, transmit_noting]
  rfl

theorem after_noting (k : Nat) : c.noting.after k = (c.after k, c.sends (k + 1)) := by
  show ((Run.noting c.world).transmit c.request (c.noting.before k)).2 = _
  rw [before_noting, transmit_noting, ← sends_succ]
  rfl

theorem failsInTime_noting {step : Step} {deadline : Duration} {n : Nat}
    (h : c.FailsInTime step deadline n) : c.noting.FailsInTime step deadline n := by
  intro k hk
  rw [outcome_noting, after_noting]
  exact h k hk

end Course

theorem rested_snd (w : Http.World σ) (step : Step) (s : σ) (log : List Http.Request) :
    (rested (noting w) step (s, log)).2 = log := by
  unfold rested
  split <;> rfl

/-! ## Steps -/

variable {interval : Duration} {step : Step} {scope : Dict String} {r : Http.Request}
  {deadline : Duration}

theorem attemptLimit_pos (step : Step) : 0 < attemptLimit step := by
  unfold attemptLimit
  split
  · exact Nat.one_pos
  · split
    · decide
    · next hmax => exact Nat.pos_of_ne_zero fun h => hmax (UInt32.toNat_inj.mp h)

/-- **A step succeeds at its first attempt that is a success.** -/
theorem execute_of_accepts (hr : requested step scope = .ok r) {w : Http.World σ} {s : σ}
    (hdeadline : deadline? (w.now s) step = some deadline) {n : Nat} (hn : n < attemptLimit step)
    (hfails : Course.FailsInTime ⟨w, interval, r, s⟩ step deadline n)
    {status : Nat} {headers : Header.Fields} {body : String}
    (houtcome : Course.outcome ⟨w, interval, r, s⟩ n = .response status headers body)
    (haccepts : Accepts step (.response status headers body)) :
    execute w interval step scope s
      = (some (.success step.name status (Course.took ⟨w, interval, r, s⟩ n),
          Extract.set step.saveVariables headers body scope),
        rested w step (Course.after ⟨w, interval, r, s⟩ n)) := by
  have hattempts := attempts_course (Nat.le_sub_one_of_lt hn) ⟨w, interval, r, s⟩ 1 hfails
    (Or.inl (houtcome ▸ haccepts))
  dsimp only at hattempts
  rw [execute_of_ok hr, hdeadline]
  dsimp only
  rw [hattempts, houtcome, judge_response haccepts]
  rfl

/-- **A step without a success fails at its last attempt.** -/
theorem execute_of_not_accepts (hr : requested step scope = .ok r) {w : Http.World σ} {s : σ}
    (hdeadline : deadline? (w.now s) step = some deadline)
    (hfails : Course.FailsInTime ⟨w, interval, r, s⟩ step deadline (attemptLimit step - 1))
    (hlast : ¬ Accepts step (Course.outcome ⟨w, interval, r, s⟩ (attemptLimit step - 1))) :
    let c : Course σ := ⟨w, interval, r, s⟩
    let last := c.outcome (attemptLimit step - 1)
    let after := c.after (attemptLimit step - 1)
    execute w interval step scope s
      = (some (.failure step.name (statusOf last) ⟨(w.now after).nanos - (w.now s).nanos⟩
          (report step (attemptLimit step) last), scope), after) := by
  have hattempts := attempts_course (Nat.le_refl _) ⟨w, interval, r, s⟩ 1 hfails (Or.inr rfl)
  dsimp only at hattempts
  have hmade : 1 + (attemptLimit step - 1) = attemptLimit step :=
    Nat.add_sub_cancel' (attemptLimit_pos step)
  intro c last after
  rw [execute_of_ok hr, hdeadline]
  dsimp only
  rw [hattempts, judge_of_not_accepts hlast, hmade]
  rfl

/-- **A step that fails leaves the variables as they are.** -/
theorem scope_of_failure {w : Http.World σ} {s : σ} {result : StepResult} {scope' : Dict String}
    (hresult : (execute w interval step scope s).1 = some (result, scope'))
    (hfailure : result.isSuccess = false) : scope' = scope := by
  have hshown : ∀ took verdict, (result, scope') = shown step scope took verdict →
      scope' = scope := by
    intro took verdict h
    cases verdict with
    | failure status message => exact (Prod.mk.inj h).2
    | success status headers body =>
      rw [(Prod.mk.inj h).1] at hfailure
      exact absurd hfailure Bool.true_eq_false.mp
  cases hrequest : requested step scope with
  | error message =>
    obtain ⟨took, h⟩ := execute_of_rejected hrequest hresult
    exact hshown took _ h
  | ok r =>
    obtain ⟨deadline, took, h⟩ := execute_of_requested hrequest hresult
    exact hshown took _ h

/-! ## Steps without a request -/

/-- The texts of a step that have holes for variables. -/
def texts (step : Step) : List String := step.path :: step.body :: step.headers.entries.map Prod.snd

/-- The names of a text that have no value. -/
def lacking (scope : Dict String) (text : String) : List String :=
  Template.missing scope (Template.parse text.toList)

theorem lacking_empty (scope : Dict String) : lacking scope "" = [] := by
  have hparse : Template.parse "".toList = [] := Template.parse.eq_3
  unfold lacking
  rw [hparse]
  rfl

theorem lacking_of_interpolate {part text filled : String}
    (h : interpolate scope part text = .ok filled) : lacking scope text = [] := by
  unfold interpolate Template.fill Template.fillChars at h
  unfold lacking
  dsimp only at h
  cases hnames : Template.missing scope (Template.parse text.toList) with
  | nil => rfl
  | cons name names =>
    rw [hnames] at h
    exact absurd h nofun

theorem lacking_of_interpolateHeaders {part : String} {es fs : List (String × String)}
    (h : interpolateHeaders scope part es = .ok fs) :
    ∀ text ∈ es.map Prod.snd, lacking scope text = [] := by
  induction es generalizing fs with
  | nil => exact fun text htext => absurd htext List.not_mem_nil
  | cons e es ih =>
    rw [interpolateHeaders] at h
    obtain ⟨value, hvalue, h⟩ := bind_eq_ok.mp h
    obtain ⟨rest, hrest, -⟩ := bind_eq_ok.mp h
    exact List.forall_mem_cons.mpr ⟨lacking_of_interpolate hvalue, ih hrest⟩

/-- **A step is prepared only if each of its names has a value.** -/
theorem lacking_of_prepare {p : Prepared} (h : prepare step scope = .ok p) :
    ∀ text ∈ texts step, lacking scope text = [] := by
  unfold prepare at h
  split at h
  · unfold prepareCommand at h
    obtain ⟨command, hcommand, h⟩ := bind_eq_ok.mp h
    have hrest : lacking scope step.body = [] ∧
        ∀ text ∈ step.headers.entries.map Prod.snd, lacking scope text = [] := by
      dsimp only at h
      split at h
      · obtain ⟨curl, -, h⟩ := bind_eq_ok.mp h
        obtain ⟨url, -, h⟩ := bind_eq_ok.mp h
        split at h
        · next hempty =>
          obtain ⟨body, -, h⟩ := bind_eq_ok.mp h
          obtain ⟨inner, -, h⟩ := bind_eq_ok.mp h
          obtain ⟨outer, houter, -⟩ := bind_eq_ok.mp h
          rw [String.isEmpty_iff.mp hempty]
          exact ⟨lacking_empty scope, lacking_of_interpolateHeaders houter⟩
        · obtain ⟨body, hbody, h⟩ := bind_eq_ok.mp h
          obtain ⟨inner, -, h⟩ := bind_eq_ok.mp h
          obtain ⟨outer, houter, -⟩ := bind_eq_ok.mp h
          exact ⟨lacking_of_interpolate hbody, lacking_of_interpolateHeaders houter⟩
      · exact absurd h nofun
    exact List.forall_mem_cons.mpr ⟨lacking_of_interpolate hcommand,
      List.forall_mem_cons.mpr hrest⟩
  · unfold prepareAddress at h
    obtain ⟨url, hurl, h⟩ := bind_eq_ok.mp h
    obtain ⟨body, hbody, h⟩ := bind_eq_ok.mp h
    obtain ⟨headers, hheaders, -⟩ := bind_eq_ok.mp h
    exact List.forall_mem_cons.mpr ⟨lacking_of_interpolate hurl,
      List.forall_mem_cons.mpr ⟨lacking_of_interpolate hbody,
        lacking_of_interpolateHeaders hheaders⟩⟩

/-- What a request is made from. -/
theorem prepare_of_requested (h : requested step scope = .ok r) :
    ∃ p method, prepare step scope = .ok p ∧ Http.Method.parseOrDefault? p.method = some method ∧
      Http.Request.build method p.url p.headers p.body = .ok r := by
  unfold requested at h
  split at h
  · exact absurd h nofun
  · next p hp =>
    split at h
    · exact absurd h nofun
    · next method hmethod =>
      split at h
      · exact absurd h nofun
      · next built hbuilt => exact ⟨p, method, hp, hmethod, hbuilt.trans (Except.ok.inj h ▸ rfl)⟩

/-- Is there something that keeps a step from its request: a name without a value, a command, a
method, an address or a header that is none? -/
def IsStuck (step : Step) (scope : Dict String) : Prop :=
  (∃ text ∈ texts step, lacking scope text ≠ []) ∨
    (∃ message, prepare step scope = .error message) ∨
    ∃ p, prepare step scope = .ok p ∧
      (Http.Method.parseOrDefault? p.method = none ∨
        ∃ method e, Http.Method.parseOrDefault? p.method = some method ∧
          Http.Request.build method p.url p.headers p.body = .error e)

/-- **Nothing else keeps a step from its request.** -/
theorem isStuck_iff : IsStuck step scope ↔ ∃ message, requested step scope = .error message := by
  constructor
  · intro hstuck
    cases hrequest : requested step scope with
    | error message => exact ⟨message, rfl⟩
    | ok r =>
      obtain ⟨p, method, hp, hmethod, hbuilt⟩ := prepare_of_requested hrequest
      rcases hstuck with ⟨text, htext, hlacking⟩ | ⟨message, herror⟩ | ⟨q, hq, hrest⟩
      · exact absurd (lacking_of_prepare hp text htext) hlacking
      · rw [hp] at herror
        exact absurd herror nofun
      · rw [hp] at hq
        rw [← Except.ok.inj hq, hmethod] at hrest
        rcases hrest with hnone | ⟨other, e, hother, herror⟩
        · exact absurd hnone nofun
        · rw [← Option.some.inj hother, hbuilt] at herror
          exact absurd herror nofun
  · rintro ⟨message, hmessage⟩
    unfold requested at hmessage
    split at hmessage
    · next detail hprepare => exact .inr (.inl ⟨detail, hprepare⟩)
    · next p hp =>
      refine .inr (.inr ⟨p, hp, ?_⟩)
      split at hmessage
      · next hnone => exact .inl hnone
      · next method hmethod =>
        split at hmessage
        · next e herror => exact .inr ⟨method, e, hmethod, herror⟩
        · exact absurd hmessage nofun

/-! ## Limits -/

/-- Does the clock go as far as the time for attempts does? -/
def EndsOnClock (start : Duration) (step : Step) : Prop :=
  start.seconds + step.retryForSeconds.toNat < 2 ^ 63

instance (start : Duration) (step : Step) : Decidable (EndsOnClock start step) :=
  inferInstanceAs (Decidable (_ < _))

/-- The end of the time for attempts. -/
def deadlineOf (start : Duration) (step : Step) : Duration :=
  start.add (.ofSeconds step.retryForSeconds.toNat)

theorem seconds_deadlineOf (start : Duration) (step : Step) :
    (deadlineOf start step).seconds = start.seconds + step.retryForSeconds.toNat :=
  Nat.add_mul_div_left start.nanos step.retryForSeconds.toNat (Nat.pow_pos (by decide))

theorem deadline?_of_endsOnClock {start : Duration} (h : EndsOnClock start step) :
    deadline? start step = some (deadlineOf start step) :=
  if_pos ((seconds_deadlineOf start step).symm ▸ h)

theorem deadline?_of_not_endsOnClock {start : Duration} (h : ¬ EndsOnClock start step) :
    deadline? start step = none :=
  if_neg ((seconds_deadlineOf start step).symm ▸ h)

/-- The attempts that a step with a limit has. -/
theorem attemptLimit_of_limited (h : step.retryForSeconds = 0 ∨ 0 < step.maxRetryTimes) :
    attemptLimit step = if step.retryForSeconds = 0 then 1 else step.maxRetryTimes.toNat := by
  unfold attemptLimit
  split
  · rfl
  · next hretries =>
    have hpos : 0 < step.maxRetryTimes := h.resolve_left hretries
    refine if_neg fun hzero => ?_
    rw [hzero] at hpos
    exact absurd hpos (by decide)

/-! ## Steps within their limits -/

/-- A step without a request sends none. -/
theorem sent_of_error {message : String} (h : requested step scope = .error message)
    (w : Http.World σ) (s : σ) : sent w interval step scope s = [] := by
  unfold sent
  rcases @execute_of_error _ (noting w) interval _ _ _ h (s, []) with hfail | ⟨-, hnone⟩
  · rw [hfail]
  · rw [hnone]

/-- A step that succeeds has sent its request at every attempt up to the success; the course with
the requests kept goes the same way. -/
theorem sent_of_accepts (hr : requested step scope = .ok r) {w : Http.World σ} {s : σ}
    (hdeadline : deadline? (w.now s) step = some deadline) {n : Nat} (hn : n < attemptLimit step)
    (hfails : Course.FailsInTime ⟨w, interval, r, s⟩ step deadline n)
    {status : Nat} {headers : Header.Fields} {body : String}
    (houtcome : Course.outcome ⟨w, interval, r, s⟩ n = .response status headers body)
    (haccepts : Accepts step (.response status headers body)) :
    sent w interval step scope s = Course.sends ⟨w, interval, r, s⟩ (n + 1) := by
  let c : Course σ := ⟨w, interval, r, s⟩
  have hnoting := execute_of_accepts (w := noting w) (s := (s, [])) hr hdeadline hn
    (c.failsInTime_noting hfails) ((c.outcome_noting n).trans houtcome) haccepts
  unfold sent
  rw [hnoting]
  show (rested (noting w) step (c.noting.after n)).2 = _
  rw [c.after_noting, rested_snd]

/-- A step that fails has sent its request at every attempt it had. -/
theorem sent_of_not_accepts (hr : requested step scope = .ok r) {w : Http.World σ} {s : σ}
    (hdeadline : deadline? (w.now s) step = some deadline)
    (hfails : Course.FailsInTime ⟨w, interval, r, s⟩ step deadline (attemptLimit step - 1))
    (hlast : ¬ Accepts step (Course.outcome ⟨w, interval, r, s⟩ (attemptLimit step - 1))) :
    sent w interval step scope s = Course.sends ⟨w, interval, r, s⟩ (attemptLimit step) := by
  let c : Course σ := ⟨w, interval, r, s⟩
  have hnoting := execute_of_not_accepts (w := noting w) (s := (s, [])) hr hdeadline
    (c.failsInTime_noting hfails) ((c.outcome_noting _).symm ▸ hlast)
  unfold sent
  rw [hnoting]
  show (c.noting.after (attemptLimit step - 1)).2 = _
  rw [c.after_noting, Nat.sub_add_cancel (attemptLimit_pos step)]

/-- Nothing comes of a step whose time does not end on the clock, and nothing is sent for it. -/
theorem execute_of_not_endsOnClock (hr : requested step scope = .ok r) {w : Http.World σ} {s : σ}
    (hclock : ¬ EndsOnClock (w.now s) step) :
    execute w interval step scope s = (none, s) ∧ sent w interval step scope s = [] := by
  have hdeadline := deadline?_of_not_endsOnClock hclock
  have hnow : (noting w).now (s, []) = w.now s := rfl
  constructor
  · rw [execute_of_ok hr, hdeadline]
  · unfold sent
    rw [execute_of_ok hr, hnow, hdeadline]

/-- **A step keeps within its limits, and changes the variables only when it succeeds.** -/
theorem execute_within_limits (w : Http.World σ) (interval : Duration) (step : Step)
    (scope : Dict String) (s : σ)
    (hlimited : step.retryForSeconds = 0 ∨ 0 < step.maxRetryTimes) :
    let limit := if step.retryForSeconds = 0 then 1 else step.maxRetryTimes.toNat
    0 < limit ∧
    -- nothing is sent for a step that is stuck
    (IsStuck step scope →
      sent w interval step scope s = [] ∧
        (EndsOnClock (w.now s) step →
          ∃ message, requested step scope = .error message ∧
            execute w interval step scope s
              = (some (.failure step.name 0 .zero message, scope), s))) ∧
    (∀ r, requested step scope = .ok r →
      let c : Course σ := ⟨w, interval, r, s⟩
      (EndsOnClock (w.now s) step →
        -- the first success ends the attempts
        (∀ n < limit, c.FailsInTime step (deadlineOf (w.now s) step) n →
          ∀ status headers body, c.outcome n = .response status headers body →
            Accepts step (.response status headers body) →
            execute w interval step scope s
                = (some (.success step.name status (c.took n),
                    Extract.set step.saveVariables headers body scope),
                  rested w step (c.after n)) ∧
              sent w interval step scope s = c.sends (n + 1)) ∧
        -- without one they are made as often as they may be
        (c.FailsInTime step (deadlineOf (w.now s) step) (limit - 1) →
          ¬ Accepts step (c.outcome (limit - 1)) →
            execute w interval step scope s
                = (some (.failure step.name (statusOf (c.outcome (limit - 1)))
                    ⟨(w.now (c.after (limit - 1))).nanos - (w.now s).nanos⟩
                    (report step limit (c.outcome (limit - 1))), scope),
                  c.after (limit - 1)) ∧
              sent w interval step scope s = c.sends limit)) ∧
      -- time that the clock does not measure leaves no result
      (¬ EndsOnClock (w.now s) step →
        execute w interval step scope s = (none, s) ∧ sent w interval step scope s = [])) ∧
    ∀ result scope', (execute w interval step scope s).1 = some (result, scope') →
      result.isSuccess = false → scope' = scope := by
  intro limit
  have hlimit : attemptLimit step = limit := attemptLimit_of_limited hlimited
  have hpos : 0 < limit := hlimit ▸ attemptLimit_pos step
  refine ⟨hpos, ?_, ?_, fun result scope' => scope_of_failure⟩
  · intro hstuck
    obtain ⟨message, hmessage⟩ := isStuck_iff.mp hstuck
    refine ⟨sent_of_error hmessage w s, fun hclock => ⟨message, hmessage, ?_⟩⟩
    refine (execute_of_error hmessage s).resolve_right fun hnone => ?_
    rw [deadline?_of_endsOnClock hclock] at hnone
    exact absurd hnone.1 nofun
  · intro r hr c
    refine ⟨fun hclock => ⟨?_, ?_⟩, execute_of_not_endsOnClock hr⟩
    · intro n hn hfails status headers body houtcome haccepts
      have hdeadline := deadline?_of_endsOnClock hclock
      rw [← hlimit] at hn
      exact ⟨execute_of_accepts hr hdeadline hn hfails houtcome haccepts,
        sent_of_accepts hr hdeadline hn hfails houtcome haccepts⟩
    · intro hfails hlast
      have hdeadline := deadline?_of_endsOnClock hclock
      rw [← hlimit] at hfails hlast ⊢
      exact ⟨execute_of_not_accepts hr hdeadline hfails hlast,
        sent_of_not_accepts hr hdeadline hfails hlast⟩

/-- A server that is busy at first; its state is how often it was asked. -/
def busyTwice : Http.World Nat where
  send _ asked :=
    (.response (if asked < 2 then 503 else 200) [.ofText "x-order" "7"] "", asked + 1)
  now _ := .zero
  pause _ asked := asked

/-- A step that waits for its server. -/
def awaitOrder : Step :=
  { (default : Step) with
    name := "await"
    path := "http://shop/order"
    saveVariables := .ofList [("id", "header.x-order")]
    expectStatus := 200
    retryForSeconds := 30
    maxRetryTimes := 3 }

/-- The request of that step. -/
def orderRequest : Http.Request where
  method := .get
  url :=
    { scheme := "http".toList, username := [], password := [], host := some (.name "shop"),
      port := none, path := .segments ["order".toList], query := none, fragment := none }
  headers := [.ofText "content-type" "application/json"]
  body := ""

theorem awaitOrder_third_attempt :
    0 < awaitOrder.maxRetryTimes ∧
      execute busyTwice (.ofMillis 500) awaitOrder .empty 0
        = (some (.success "await" 200 .zero, .ofList [("id", "7")]), 3) ∧
      sent busyTwice (.ofMillis 500) awaitOrder .empty 0 = List.replicate 3 orderRequest := by
  have hmax : 0 < awaitOrder.maxRetryTimes := by decide
  have hrequest : requested awaitOrder .empty = .ok orderRequest := by decide +kernel
  have hwithin := execute_within_limits busyTwice (.ofMillis 500) awaitOrder .empty 0 (.inr hmax)
  obtain ⟨hended, -⟩ := hwithin.2.2.1 orderRequest hrequest
  have hfails : Course.FailsInTime ⟨busyTwice, .ofMillis 500, orderRequest, 0⟩ awaitOrder
      (deadlineOf .zero awaitOrder) 2 := by decide +kernel
  obtain ⟨hresult, hsent⟩ := (hended (by decide)).1 2 (by decide) hfails 200 _ _ rfl (by decide)
  exact ⟨hmax, hresult.trans (by decide +kernel), hsent⟩

/-- **Time that the clock does not measure leaves a step without a result**, though it could be
tried once. -/
theorem awaitOrder_unmeasured :
    let step : Step := { awaitOrder with retryForSeconds := 18446744073709551615, maxRetryTimes := 1 }
    0 < step.maxRetryTimes ∧ requested step .empty = .ok orderRequest ∧
      execute Http.World.void (.ofMillis 500) step .empty ⟨.zero, .zero⟩
        = (none, ⟨.zero, .zero⟩) :=
  ⟨by decide, by decide +kernel, by decide +kernel⟩

end MockServer.Run
