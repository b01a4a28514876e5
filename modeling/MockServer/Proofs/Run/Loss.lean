/-
  MockServer.Proofs.Run.Loss — the accounts that a load test loses.

  The time for attempts at a step ends at a point of the clock, and the
  clock has a last one.  Of a step whose time would end behind it
  nothing comes, nothing of the account that comes to the step, and the
  worker that runs the account stops.  What it leaves is for the others;
  when all workers are lost, it is left.

  So a load test counts all its accounts exactly if none of them comes
  to such a step.  In one direction this is the bookkeeping of the
  workers; in the other, an order of their steps is built in which an
  account is lost.

  Main definitions:
    * `Outlasts` — passes that come to a step whose time has no end;
    * `Reckoned` — a result, with the accounts it does not count;
    * `CountsAll` — no account is missing, whatever the order.

  Main results:
    * `execute_eq_none_iff`, `runAccount_eq_none_iff` — when nothing
      comes of a step and of an account;
    * `Pool.lose_reached` — where an account can be lost, some order of
      the steps loses one;
    * `accounts_counted` — which accounts a load test counts;
    * `overlong_uncounted` — one that counts none.
-/
import MockServer.Proofs.Duration
import MockServer.Proofs.Entity.LoadTest
import MockServer.Proofs.Run.Trace
import MockServer.Proofs.Run.Workers

namespace MockServer.Run

variable {σ : Type} {w : Http.World σ} {interval : Duration}

/-! ## The clock -/

theorem deadline?_isSome_iff {start : Duration} {step : Step} :
    (deadline? start step).isSome ↔ EndsOnClock start step := by
  constructor
  · intro hsome
    by_contra hclock
    rw [deadline?_of_not_endsOnClock hclock] at hsome
    exact absurd hsome Bool.false_ne_true
  · intro hclock
    rw [deadline?_of_endsOnClock hclock]
    rfl

/-- Only a step without time for attempts ends on the clock whenever it starts. -/
theorem endsOnClock_forall_iff {step : Step} :
    (∀ start : Duration, start.seconds < 2 ^ 63 → EndsOnClock start step) ↔
      step.retryForSeconds = 0 := by
  constructor
  · intro h
    -- the last second of the clock leaves no time at all
    have hlast : (Duration.ofSeconds (2 ^ 63 - 1)).seconds = 2 ^ 63 - 1 :=
      Duration.seconds_ofSeconds _
    have hends := h (.ofSeconds (2 ^ 63 - 1)) (by rw [hlast]; omega)
    unfold EndsOnClock at hends
    rw [hlast] at hends
    exact UInt64.toNat_inj.mp (show step.retryForSeconds.toNat = 0 by omega)
  · intro h start hstart
    unfold EndsOnClock
    rw [h]
    exact hstart

/-- A step whose time is longer than the clock ends on it at no start. -/
theorem endsOnClock_exists_iff {step : Step} :
    (∃ start : Duration, EndsOnClock start step) ↔ step.retryForSeconds.toNat < 2 ^ 63 := by
  constructor
  · rintro ⟨start, hstart⟩
    exact Nat.lt_of_le_of_lt (Nat.le_add_left _ _) hstart
  · intro h
    have hzero : Duration.zero.seconds = 0 := Nat.zero_div _
    refine ⟨.zero, ?_⟩
    unfold EndsOnClock
    rwa [hzero, Nat.zero_add]

/-! ## Steps and passes -/

/-- **Nothing comes of a step exactly if its time has no end.** -/
theorem execute_eq_none_iff {step : Step} {scope : Dict String} {s : σ} :
    (execute w interval step scope s).1 = none ↔ IsUnmeasured (w.now s) step scope := by
  constructor
  · exact isUnmeasured_of_execute
  · intro h
    rw [execute_of_isUnmeasured h]

/-- Does a pass come to a step that it executes, and whose time has no end?  The visits before it
have left the variables and the world. -/
def Outlasts (w : Http.World σ) (interval : Duration) (steps : List Step) (scope : Dict String)
    (s : σ) : Prop :=
  ∃ before v, Trace w interval steps scope s (before ++ [v]) ∧ v.act.isExecuted = true ∧
    IsUnmeasured (w.now (worldAfter s before)) v.step (scopeAfter scope before)

/-- A visit that is lost is the last one. -/
theorem Trace.exists_lost_iff {steps : List Step} {scope : Dict String} {s : σ}
    {visits : List (Visit σ)} (h : Trace w interval steps scope s visits) :
    (∃ v ∈ visits, v.act = .lose) ↔
      ∃ before v, visits = before ++ [v] ∧ v.act.isExecuted = true ∧
        IsUnmeasured (w.now (worldAfter s before)) v.step (scopeAfter scope before) := by
  constructor
  · rintro ⟨v, hv, hlose⟩
    obtain ⟨before, later, rfl⟩ := List.append_of_mem hv
    obtain ⟨hexecuted, hclock⟩ := (h.fits before v later rfl).lost.mp hlose
    rcases later.eq_nil_or_concat' with rfl | ⟨later, u, rfl⟩
    · exact ⟨before, v, rfl, hexecuted, hclock⟩
    · -- the pass would go on behind the visit, which a lost one does not let it
      have hgoes := h.goesOn v (by
        rw [← List.cons_append, ← List.append_assoc, List.dropLast_concat]
        exact List.mem_append_right _ List.mem_cons_self)
      rw [hlose] at hgoes
      exact absurd hgoes nofun
  · rintro ⟨before, v, rfl, hexecuted, hclock⟩
    exact ⟨v, List.mem_append_right _ List.mem_cons_self,
      (h.fits before v [] rfl).lost.mpr ⟨hexecuted, hclock⟩⟩

theorem recorded_eq_none_iff {visits : List (Visit σ)} :
    recorded visits = none ↔ ∃ v ∈ visits, v.act = .lose := by
  unfold recorded
  split
  next hlost => exact iff_of_true rfl hlost
  next hkept => exact iff_of_false nofun hkept

/-- **Nothing comes of a pass exactly if it outlasts the clock.** -/
theorem runSteps_eq_none_iff {steps : List Step} {scope : Dict String} {s : σ} :
    (runSteps w interval steps scope s).1 = none ↔ Outlasts w interval steps scope s := by
  constructor
  · intro hnone
    obtain ⟨visits, htrace⟩ := exists_trace w interval steps scope s
    rw [runSteps_of_trace htrace, recorded_eq_none_iff, htrace.exists_lost_iff] at hnone
    obtain ⟨before, v, rfl, hv⟩ := hnone
    exact ⟨before, v, htrace, hv⟩
  · rintro ⟨before, v, htrace, hv⟩
    rw [runSteps_of_trace htrace, recorded_eq_none_iff, htrace.exists_lost_iff]
    exact ⟨before, v, rfl, hv⟩

theorem runAccount_eq_none_iff {script : Script} {a : Account} {s : σ} :
    (runAccount w interval script a s).1 = none ↔
      Outlasts w interval script.steps a.scope s := by
  rw [runAccount_eq, Option.map_eq_none_iff, runSteps_eq_none_iff]

/-- A pass through steps that all end on the clock does not outlast it. -/
theorem not_outlasts {steps : List Step} (h : ∀ step ∈ steps, ∀ s, EndsOnClock (w.now s) step)
    (scope : Dict String) (s : σ) : ¬ Outlasts w interval steps scope s := by
  rintro ⟨before, v, htrace, -, -, hclock⟩
  refine hclock (h v.step (htrace.inOrder.subset ?_) _)
  exact List.mem_map_of_mem (List.mem_append_right _ List.mem_cons_self)

/-! ## Workers -/

namespace Pool

variable {script : Script}

theorem isLost_iff {a : Account} :
    IsLost w interval script a ↔ ∃ s, Outlasts w interval script.steps a.scope s :=
  exists_congr fun _ => runAccount_eq_none_iff

/-- **Where an account waits that can be lost, some order of the steps loses one**: a worker runs
the accounts up to it, and meets the world that loses it. -/
theorem lose_reached {queue : List Account} {rest : List Worker} {published : List AccountResult}
    {lost : List Account} {a : Account} (ha : a ∈ queue) (hlost : IsLost w interval script a) :
    ∃ q, Reaches w interval script ⟨queue, .idle :: rest, published, lost⟩ q ∧ q.lost ≠ [] := by
  induction queue generalizing published with
  | nil => exact absurd ha List.not_mem_nil
  | cons b queue ih =>
    have htake : Step w interval script ⟨b :: queue, .idle :: rest, published, lost⟩
        ⟨queue, .busy b :: rest, published, lost⟩ := .take b queue [] rest published lost
    by_cases hb : IsLost w interval script b
    · -- the account at hand is lost already
      obtain ⟨s, hs⟩ := hb
      have hlose : Step w interval script ⟨queue, .busy b :: rest, published, lost⟩
          ⟨queue, .stopped :: rest, published, b :: lost⟩ := .lose queue [] rest published lost hs
      exact ⟨_, .head htake (.single hlose), List.cons_ne_nil b lost⟩
    · have hne : a ≠ b := fun hab => hb (hab ▸ hlost)
      obtain ⟨s, -⟩ := hlost
      obtain ⟨r, hr⟩ := Option.ne_none_iff_exists'.mp fun hnone => hb ⟨s, hnone⟩
      have hfinish : Step w interval script ⟨queue, .busy b :: rest, published, lost⟩
          ⟨queue, .holding r :: rest, published, lost⟩ := .finish queue [] rest published lost hr
      have hpublish : Step w interval script ⟨queue, .holding r :: rest, published, lost⟩
          ⟨queue, .idle :: rest, published ++ [r], lost⟩ := .publish queue [] rest published lost r
      obtain ⟨q, hreach, hq⟩ := ih (List.mem_of_ne_of_mem hne ha)
      exact ⟨q, .head htake (.head hfinish (.head hpublish hreach)), hq⟩

end Pool

/-! ## Load tests -/

variable {script : Script} {accounts lost left : List Account} {count : Nat} {p : Pool}
  {result : RunResult}

/-- A result, with the accounts that were lost and those that were left.  What is counted are runs
of all others.  A worker is lost with each account, and accounts are left when all workers are. -/
structure Reckoned (w : Http.World σ) (interval : Duration) (script : Script) (count : Nat)
    (accounts lost left : List Account) (result : RunResult) : Prop where
  runs : ∃ done : List (Account × AccountResult),
    (done.map Prod.fst ++ (lost ++ left)).Perm accounts ∧
    (done.map Prod.snd).Perm result.accounts ∧ ∀ d ∈ done, Pool.IsRun w interval script d.1 d.2
  outlasts : ∀ a ∈ lost, ∃ s, Outlasts w interval script.steps a.scope s
  lost_le : lost.length ≤ count
  left_eq : left ≠ [] → lost.length = count
  total : result.totalAccounts = accounts.length
  sum : result.successes + result.failures + (lost.length + left.length) = result.totalAccounts

/-- All accounts are counted if none is lost, and only then. -/
theorem Reckoned.complete_iff (h : Reckoned w interval script count accounts lost left result)
    (hcount : 0 < count) :
    result.successes + result.failures = result.totalAccounts ↔ lost = [] := by
  have hsum := h.sum
  constructor
  · intro hcomplete
    exact List.length_eq_zero_iff.mp (by omega)
  · rintro rfl
    have hleft : left = [] := by
      by_contra hne
      exact absurd (h.left_eq hne) (Nat.ne_of_lt hcount)
    rw [hleft] at hsum
    exact hsum

theorem Reckoned.mem_of_mem_lost
    (h : Reckoned w interval script count accounts lost left result) {a : Account} (ha : a ∈ lost) :
    a ∈ accounts := by
  obtain ⟨done, hdone, -⟩ := h.runs
  exact hdone.mem_iff.mp (List.mem_append_right _ (List.mem_append_left _ ha))

/-- What workers come to that have all stopped. -/
theorem reckoned_of_finished (h : Pool.Settled w interval script accounts p)
    (hfinished : p.IsFinished) (took : Duration) :
    Reckoned w interval script p.workers.length accounts p.lost p.queue
      (.collect script.name accounts.length took p.published) := by
  obtain ⟨⟨done, hdone, hresults, hrun⟩, hlost, hle, hwaiting⟩ := h
  obtain ⟨hrunning, hpublished⟩ := Pool.underWay_of_finished hfinished
  rw [hrunning, List.nil_append] at hdone
  rw [hpublished] at hresults
  rw [Pool.halted_of_finished hfinished] at hle hwaiting
  refine ⟨⟨done, hdone, hresults, hrun⟩, fun a ha => Pool.isLost_iff.mp (hlost a ha), hle,
    fun hleft => (hwaiting hleft).symm, rfl, ?_⟩
  rw [successes_add_failures, ← hresults.length_eq]
  show _ = accounts.length
  rw [← hdone.length_eq]
  simp only [List.length_append, List.length_map]

/-- Any order in which the workers stop is reckoned with. -/
theorem reckoned_of_reaches
    (hreach : Pool.Reaches w interval script (.start count accounts) p) (hfinished : p.IsFinished)
    (took : Duration) :
    Reckoned w interval script count accounts p.lost p.queue
      (.collect script.name accounts.length took p.published) := by
  have hlength : p.workers.length = count :=
    (Pool.length_of_reaches hreach).trans List.length_replicate
  rw [← hlength]
  exact reckoned_of_finished
    (Pool.settled_of_reaches (Pool.settled_start count accounts) hreach) hfinished took

/-- So is the order in which the accounts are run one after another. -/
theorem reckoned_runAll (cap : Nat) (s : σ) :
    ∃ lost left, Reckoned w interval script
      (workerCount cap script.concurrency accounts.length) accounts lost left
      (runAll w interval cap script accounts s).1 := by
  by_cases hne : accounts = []
  · subst hne
    exact ⟨[], [], ⟨[], .refl _, .refl _, nofun⟩, nofun, Nat.zero_le _, nofun, rfl, rfl⟩
  · obtain ⟨p, took, hreach, hfinished, hresult⟩ : ∃ p took,
        Pool.Reaches w interval script (.start _ accounts) p ∧ p.IsFinished ∧
          (runAll w interval cap script accounts s).1
            = .collect script.name accounts.length took p.published := runAll_reached hne cap s
    rw [hresult]
    exact ⟨p.lost, p.queue, reckoned_of_reaches hreach hfinished took⟩

/-- Some order of the steps loses an account that can be lost. -/
theorem exists_incomplete (hcount : 0 < count) {a : Account} (ha : a ∈ accounts) {s : σ}
    (hs : Outlasts w interval script.steps a.scope s) :
    ∃ p, Pool.Reaches w interval script (.start count accounts) p ∧ p.IsFinished ∧
      p.published.length < accounts.length := by
  obtain ⟨others, rfl⟩ := Nat.exists_eq_add_one.mpr hcount
  obtain ⟨q, hreach, hq⟩ : ∃ q,
      Pool.Reaches w interval script (.start (others + 1) accounts) q ∧ q.lost ≠ [] :=
    Pool.lose_reached ha (Pool.isLost_iff.mpr ⟨s, hs⟩)
  have : Nonempty σ := ⟨s⟩
  obtain ⟨p, hlast, hfinished⟩ : ∃ p, Pool.Reaches w interval script q p ∧ p.IsFinished :=
    Pool.finished_reached q
  have hmore : 0 < p.lost.length :=
    lt_of_lt_of_le (List.length_pos_iff.mpr hq) (Pool.lost_suffix_of_reaches hlast).length_le
  have hsum := (reckoned_of_reaches (hreach.trans hlast) hfinished .zero).sum
  rw [successes_add_failures] at hsum
  refine ⟨p, hreach.trans hlast, hfinished, ?_⟩
  change _ = accounts.length at hsum
  omega

/-- Are all accounts counted, in whatever order the workers take their steps? -/
def CountsAll (w : Http.World σ) (interval : Duration) (script : Script) (count : Nat)
    (accounts : List Account) : Prop :=
  ∀ p, Pool.Reaches w interval script (.start count accounts) p → p.IsFinished → ∀ took,
    let result := RunResult.collect script.name accounts.length took p.published
    result.successes + result.failures = result.totalAccounts

/-- **All accounts are counted exactly if none can outlast the clock.** -/
theorem countsAll_iff (hcount : 0 < count) :
    CountsAll w interval script count accounts ↔
      ∀ a ∈ accounts, ∀ s, ¬ Outlasts w interval script.steps a.scope s := by
  constructor
  · intro hcomplete a ha s hs
    obtain ⟨p, hreach, hfinished, hfewer⟩ := exists_incomplete hcount ha hs
    have hall := hcomplete p hreach hfinished .zero
    dsimp only at hall
    rw [successes_add_failures] at hall
    exact absurd hall (Nat.ne_of_lt hfewer)
  · intro hnone p hreach hfinished took
    have hreckoned := reckoned_of_reaches hreach hfinished took
    refine (hreckoned.complete_iff hcount).mpr (List.eq_nil_iff_forall_not_mem.mpr ?_)
    intro a ha
    obtain ⟨s, hs⟩ := hreckoned.outlasts a ha
    exact hnone a (hreckoned.mem_of_mem_lost ha) s hs

/-- **A load test loses the accounts that outlast the clock, and counts all others.**  A step is
read with any time for attempts, and nothing comes of it exactly if this time ends behind the clock;
of an account, if it comes to such a step.  Whatever the order of the workers' steps, the accounts
that are not counted are those lost in this way and, once every worker is lost, those left.  So all
are counted where every time ends on the clock, and in general if and only if no account can outlast
it. -/
theorem accounts_counted (w : Http.World σ) (interval : Duration) (cap : Nat) (script : Script)
    (accounts : List Account) :
    let count := workerCount cap script.concurrency accounts.length
    -- which steps are read, and when their time ends on the clock
    (∀ step : Step,
      ((∃ d, Step.ofDocument? d = some step) ↔
        Dict.Increasing step.headers.entries ∧ Dict.Increasing step.saveVariables.entries) ∧
      (∀ start, (deadline? start step).isSome ↔ EndsOnClock start step) ∧
      ((∀ start : Duration, start.seconds < 2 ^ 63 → EndsOnClock start step) ↔
        step.retryForSeconds = 0) ∧
      ((∃ start : Duration, EndsOnClock start step) ↔ step.retryForSeconds.toNat < 2 ^ 63)) ∧
    -- what comes to nothing
    (∀ step scope s, (execute w interval step scope s).1 = none ↔
      IsUnmeasured (w.now s) step scope) ∧
    (∀ a s, (runAccount w interval script a s).1 = none ↔
      Outlasts w interval script.steps a.scope s) ∧
    -- what is counted in each order of the steps, and with one account after another
    (∀ p, Pool.Reaches w interval script (.start count accounts) p → p.IsFinished → ∀ took,
      let result := RunResult.collect script.name accounts.length took p.published
      Reckoned w interval script count accounts p.lost p.queue result ∧
        (result.successes + result.failures = result.totalAccounts ↔ p.lost = [])) ∧
    (∀ s, ∃ lost left,
      let result := (runAll w interval cap script accounts s).1
      Reckoned w interval script count accounts lost left result ∧
        (result.successes + result.failures = result.totalAccounts ↔ lost = [])) ∧
    -- when all are counted
    ((∀ step ∈ script.steps, ∀ s, EndsOnClock (w.now s) step) →
      CountsAll w interval script count accounts) ∧
    (CountsAll w interval script count accounts ↔
      ∀ a ∈ accounts, ∀ s, ¬ Outlasts w interval script.steps a.scope s) := by
  intro count
  have hcount : 0 < count := workerCount_pos cap script.concurrency accounts.length
  refine ⟨fun step => ⟨Step.exists_ofDocument?_iff, fun _ => deadline?_isSome_iff,
    endsOnClock_forall_iff, endsOnClock_exists_iff⟩, fun _ _ _ => execute_eq_none_iff,
    fun _ _ => runAccount_eq_none_iff, ?_, ?_, ?_, countsAll_iff hcount⟩
  · intro p hreach hfinished took
    have hreckoned := reckoned_of_reaches hreach hfinished took
    exact ⟨hreckoned, hreckoned.complete_iff hcount⟩
  · intro s
    obtain ⟨lost, left, hreckoned⟩ := reckoned_runAll cap s
    exact ⟨lost, left, hreckoned, hreckoned.complete_iff hcount⟩
  · intro hends
    exact (countsAll_iff hcount).mpr fun a _ s => not_outlasts hends a.scope s

/-- A load test of one page, whose time for attempts is longer than the clock. -/
def overlong : String :=
  "name: view\nconcurrency: 1\naccounts: u-p,v-p\nsteps:\n  - name: page\n" ++
  "    path: http://127.0.0.1:1/\n    retry_for_seconds: 18446744073709551615\n" ++
  "    max_retry_times: 1\n"

/-- The load test that is read from it. -/
def overlongView : Script where
  name := "view"
  concurrency := 1
  accounts := "u-p,v-p"
  steps := [{ (default : Step) with
    name := "page"
    path := "http://127.0.0.1:1/"
    retryForSeconds := 18446744073709551615
    maxRetryTimes := 1 }]

/-- **A load test that was read counts none of its accounts**: the first one stops the only
worker, and the second one is left. -/
theorem overlong_uncounted :
    Script.ofYaml overlong "unnamed" = .ok overlongView ∧
    Account.parse overlongView.accounts = [⟨"u", "p"⟩, ⟨"v", "p"⟩] ∧
    (∀ step ∈ overlongView.steps,
      (execute Http.World.void (.ofMillis 1000) step .empty ⟨.zero, .zero⟩).1 = none) ∧
    let result := (runAll Http.World.void (.ofMillis 1000) 256 overlongView
      (Account.parse overlongView.accounts) ⟨.zero, .zero⟩).1
    result = { RunResult.empty "view" with totalAccounts := 2 } ∧
      result.successes + result.failures ≠ result.totalAccounts := by
  refine ⟨?_, ?_, ?_, ?_⟩
  · decide +kernel
  · decide +kernel
  · decide +kernel
  · decide +kernel

end MockServer.Run
