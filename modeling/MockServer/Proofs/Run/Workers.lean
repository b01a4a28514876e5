/-
  MockServer.Proofs.Run.Workers — the accounts of a load test, run by
  workers side by side.

  A worker takes an account from the queue, runs it, publishes the
  result and comes back for the next one, until the queue is empty.  The
  workers do this in any order, and each run meets the world in whatever
  state the others and the time have left it.  So every account is at
  each moment in the queue, with one worker, done, or lost together with
  the worker that ran it; and when all workers have stopped and none is
  lost, each was run exactly once.

  Main definitions:
    * `Pool`, `Pool.Step` — the workers, and what one of them does next;
    * `Pool.Reaches` — what any order of such steps leads to;
    * `Pool.Settled` — where all accounts are;
    * `Complete` — a result that accounts for every account.

  Main results:
    * `Pool.settled_of_step` — what every step preserves;
    * `accounts_run_once` — where every order of steps ends;
    * `runAll_reached` — one account after another is such an order.
-/
import Mathlib
import MockServer.Proofs.Run.Isolation
import MockServer.Run.Pool

namespace MockServer.Run

variable {σ : Type}

/-! ## Workers -/

/-- What a worker is about to do. -/
inductive Worker where
  /-- It takes an account, or stops. -/
  | idle
  /-- It runs an account. -/
  | busy (a : Account)
  /-- It publishes a result. -/
  | holding (r : AccountResult)
  | stopped
  deriving DecidableEq, Repr

/-- The account that is being run. -/
def Worker.account? : Worker → Option Account
  | .busy a => some a
  | _ => none

/-- The result that is not yet published. -/
def Worker.result? : Worker → Option AccountResult
  | .holding r => some r
  | _ => none

/-- How many steps a worker can take without another account. -/
def Worker.work : Worker → Nat
  | .stopped => 0
  | .idle => 1
  | .holding _ => 2
  | .busy _ => 3

/-- Workers with the accounts that wait, the results that are published, and the accounts that were
lost with their workers. -/
structure Pool where
  queue : List Account
  workers : List Worker
  published : List AccountResult
  lost : List Account
  deriving DecidableEq, Repr

namespace Pool

/-- A number of workers before they begin. -/
def start (count : Nat) (accounts : List Account) : Pool :=
  ⟨accounts, List.replicate count .idle, [], []⟩

def running (p : Pool) : List Account := p.workers.filterMap Worker.account?

/-- The results that are published or about to be. -/
def results (p : Pool) : List AccountResult := p.published ++ p.workers.filterMap Worker.result?

/-- How many steps can still be taken. -/
def work (p : Pool) : Nat := 3 * p.queue.length + (p.workers.map Worker.work).sum

/-- How many workers have stopped. -/
def halted (p : Pool) : Nat := p.workers.count .stopped

def IsFinished (p : Pool) : Prop := ∀ x ∈ p.workers, x = .stopped

section Steps

variable (w : Http.World σ) (interval : Duration) (script : Script)

/-- What one of the workers does next.  A run meets the world in some state; one of which nothing
comes loses the account and stops the worker. -/
inductive Step : Pool → Pool → Prop where
  | take (a : Account) (queue : List Account) (before after : List Worker)
      (published : List AccountResult) (lost : List Account) :
      Step ⟨a :: queue, before ++ .idle :: after, published, lost⟩
        ⟨queue, before ++ .busy a :: after, published, lost⟩
  | leave (before after : List Worker) (published : List AccountResult) (lost : List Account) :
      Step ⟨[], before ++ .idle :: after, published, lost⟩
        ⟨[], before ++ .stopped :: after, published, lost⟩
  | finish (queue : List Account) (before after : List Worker) (published : List AccountResult)
      (lost : List Account) {a : Account} {s : σ} {r : AccountResult}
      (run : (runAccount w interval script a s).1 = some r) :
      Step ⟨queue, before ++ .busy a :: after, published, lost⟩
        ⟨queue, before ++ .holding r :: after, published, lost⟩
  | lose (queue : List Account) (before after : List Worker) (published : List AccountResult)
      (lost : List Account) {a : Account} {s : σ}
      (run : (runAccount w interval script a s).1 = none) :
      Step ⟨queue, before ++ .busy a :: after, published, lost⟩
        ⟨queue, before ++ .stopped :: after, published, a :: lost⟩
  | publish (queue : List Account) (before after : List Worker) (published : List AccountResult)
      (lost : List Account) (r : AccountResult) :
      Step ⟨queue, before ++ .holding r :: after, published, lost⟩
        ⟨queue, before ++ .idle :: after, published ++ [r], lost⟩

/-- What any order of steps leads to. -/
def Reaches : Pool → Pool → Prop := Relation.ReflTransGen (Step w interval script)

/-- Is this the result of a run of the account? -/
def IsRun (a : Account) (r : AccountResult) : Prop :=
  ∃ s : σ, (runAccount w interval script a s).1 = some r

/-- Is there a run of the account of which nothing comes? -/
def IsLost (a : Account) : Prop := ∃ s : σ, (runAccount w interval script a s).1 = none

/-- Every account waits, is being run, is done or is lost, and the results are those of runs of the
accounts that are done.  Each loss has stopped a worker, and nothing else has while an account
waits. -/
structure Settled (accounts : List Account) (p : Pool) : Prop where
  parts : ∃ done : List (Account × AccountResult),
    (done.map Prod.fst ++ (p.lost ++ (p.running ++ p.queue))).Perm accounts ∧
    (done.map Prod.snd).Perm p.results ∧ ∀ d ∈ done, IsRun w interval script d.1 d.2
  isLost : ∀ a ∈ p.lost, IsLost w interval script a
  lost_le : p.lost.length ≤ p.halted
  waiting : p.queue ≠ [] → p.halted = p.lost.length

end Steps

variable {w : Http.World σ} {interval : Duration} {script : Script} {accounts : List Account}
  {p q : Pool}

/-! ## What a step preserves -/

section Parts

variable (queue : List Account) (before after : List Worker) (x : Worker)
  (published : List AccountResult) (lost : List Account)

theorem running_mk :
    running ⟨queue, before ++ x :: after, published, lost⟩
      = before.filterMap Worker.account? ++
        (x.account?.toList ++ after.filterMap Worker.account?) := by
  unfold running
  rw [List.filterMap_append, List.filterMap_cons]
  cases x.account? <;> rfl

theorem results_mk :
    results ⟨queue, before ++ x :: after, published, lost⟩
      = published ++ (before.filterMap Worker.result? ++
        (x.result?.toList ++ after.filterMap Worker.result?)) := by
  unfold results
  rw [List.filterMap_append, List.filterMap_cons]
  cases x.result? <;> rfl

theorem work_mk :
    work ⟨queue, before ++ x :: after, published, lost⟩
      = 3 * queue.length + ((before.map Worker.work).sum +
        (x.work + (after.map Worker.work).sum)) := by
  unfold work
  rw [List.map_append, List.sum_append, List.map_cons, List.sum_cons]

theorem halted_mk :
    halted ⟨queue, before ++ x :: after, published, lost⟩
      = before.count .stopped + ((if x = .stopped then 1 else 0) + after.count .stopped) := by
  unfold halted
  rw [List.count_append, List.count_cons, Nat.add_comm (after.count _)]
  simp only [beq_iff_eq]

end Parts

theorem settled_start (count : Nat) (accounts : List Account) :
    Settled w interval script accounts (start count accounts) := by
  have hnone : ∀ {α : Type} (f : Worker → Option α), f .idle = none →
      (List.replicate count Worker.idle).filterMap f = [] := by
    intro α f hf
    rw [List.filterMap_eq_nil_iff]
    intro x hx
    rw [List.eq_of_mem_replicate hx, hf]
  refine ⟨⟨[], ?_, ?_, nofun⟩, nofun, Nat.zero_le _, fun _ => ?_⟩
  · show ((start count accounts).running ++ accounts).Perm accounts
    unfold running start
    rw [hnone _ rfl, List.nil_append]
  · unfold results start
    rw [hnone _ rfl]
    exact .refl _
  · exact List.count_eq_zero.mpr fun hmem => absurd (List.eq_of_mem_replicate hmem) nofun

/-- All accounts are still there if they are where one worker, the queue and the losses are. -/
theorem accounts_of_move {done done' lost lost' queue queue' : List Account} {x y : Worker}
    {before after : List Worker} {published published' : List AccountResult}
    (h : (done ++ (lost ++ (running ⟨queue, before ++ x :: after, published, lost⟩ ++ queue))).Perm
      accounts)
    (hmove : (done' ++ (lost' ++ (y.account?.toList ++ queue'))).Perm
      (done ++ (lost ++ (x.account?.toList ++ queue)))) :
    (done' ++ (lost' ++
      (running ⟨queue', before ++ y :: after, published', lost'⟩ ++ queue'))).Perm accounts := by
  refine List.Perm.trans ?_ h
  -- in the counts the workers before and behind the one that moves cancel
  rw [List.perm_iff_count] at hmove ⊢
  intro b
  have hcount := hmove b
  rw [running_mk, running_mk]
  simp only [List.count_append] at hcount ⊢
  omega

/-- All results are still there if they are where one worker and the published ones are. -/
theorem results_of_move {done done' published published' : List AccountResult} {x y : Worker}
    {before after : List Worker} {queue queue' lost lost' : List Account}
    (h : done.Perm (results ⟨queue, before ++ x :: after, published, lost⟩))
    (hmove : (done' ++ (published ++ x.result?.toList)).Perm
      (done ++ (published' ++ y.result?.toList))) :
    done'.Perm (results ⟨queue', before ++ y :: after, published', lost'⟩) := by
  rw [List.perm_iff_count] at h hmove ⊢
  intro r
  have hcount := hmove r
  have hdone := h r
  rw [results_mk] at hdone ⊢
  simp only [List.count_append] at hcount hdone ⊢
  omega

/-- A worker that goes on leaves the number of those that have stopped. -/
theorem halted_of_move {queue queue' lost lost' : List Account} {x y : Worker}
    {before after : List Worker} {published published' : List AccountResult}
    (hx : x ≠ .stopped) (hy : y ≠ .stopped) :
    halted ⟨queue', before ++ y :: after, published', lost'⟩
      = halted ⟨queue, before ++ x :: after, published, lost⟩ := by
  rw [halted_mk, halted_mk, if_neg hx, if_neg hy]

/-- A worker that stops is one more of those that have stopped. -/
theorem halted_of_stop {queue queue' lost lost' : List Account} {x : Worker}
    {before after : List Worker} {published published' : List AccountResult}
    (hx : x ≠ .stopped) :
    halted ⟨queue', before ++ .stopped :: after, published', lost'⟩
      = halted ⟨queue, before ++ x :: after, published, lost⟩ + 1 := by
  rw [halted_mk, halted_mk, if_neg hx, if_pos rfl]
  omega

/-- **Every step preserves where the accounts are.** -/
theorem settled_of_step (h : Settled w interval script accounts p)
    (hstep : Step w interval script p q) : Settled w interval script accounts q := by
  obtain ⟨⟨done, hdone, hresults, hrun⟩, hlost, hle, hwaiting⟩ := h
  cases hstep with
  | take a queue before after published lost =>
    have hhalted : halted ⟨queue, before ++ .busy a :: after, published, lost⟩
        = halted ⟨a :: queue, before ++ .idle :: after, published, lost⟩ :=
      halted_of_move nofun nofun
    refine ⟨⟨done, accounts_of_move hdone (.refl _), results_of_move hresults (.refl _), hrun⟩,
      hlost, ?_, fun _ => ?_⟩
    · rw [hhalted]
      exact hle
    · -- an account waits before the step, whether or not one waits behind it
      rw [hhalted]
      exact hwaiting (List.cons_ne_nil a queue)
  | leave before after published lost =>
    refine ⟨⟨done, accounts_of_move hdone (.refl _), results_of_move hresults (.refl _), hrun⟩,
      hlost, ?_, fun hqueue => absurd rfl hqueue⟩
    have hhalted : halted ⟨[], before ++ .stopped :: after, published, lost⟩
        = halted ⟨[], before ++ .idle :: after, published, lost⟩ + 1 := halted_of_stop nofun
    rw [hhalted]
    exact Nat.le_succ_of_le hle
  | finish queue before after published lost run =>
    rename_i a s r
    have hmove : (a :: done.map Prod.fst ++ (lost ++ queue)).Perm
        (done.map Prod.fst ++ (lost ++ (a :: queue))) := by
      refine List.perm_middle.symm.trans (List.Perm.append_left _ ?_)
      exact List.perm_middle.symm
    have hresult : (r :: done.map Prod.snd ++ (published ++ [])).Perm
        (done.map Prod.snd ++ (published ++ [r])) := by
      refine List.perm_middle.symm.trans (List.Perm.append_left _ ?_)
      exact List.perm_middle.symm
    have hhalted : halted ⟨queue, before ++ .holding r :: after, published, lost⟩
        = halted ⟨queue, before ++ .busy a :: after, published, lost⟩ :=
      halted_of_move nofun nofun
    refine ⟨⟨(a, r) :: done, accounts_of_move hdone hmove, results_of_move hresults hresult,
      List.forall_mem_cons.mpr ⟨⟨s, run⟩, hrun⟩⟩, hlost, ?_, fun hqueue => ?_⟩
    · rw [hhalted]
      exact hle
    · rw [hhalted]
      exact hwaiting hqueue
  | lose queue before after published lost run =>
    rename_i a s
    have hmove : (done.map Prod.fst ++ (a :: lost ++ queue)).Perm
        (done.map Prod.fst ++ (lost ++ (a :: queue))) := List.perm_middle.symm.append_left _
    -- the worker stops with its account
    have hhalted : halted ⟨queue, before ++ .stopped :: after, published, a :: lost⟩
        = halted ⟨queue, before ++ .busy a :: after, published, lost⟩ + 1 := halted_of_stop nofun
    refine ⟨⟨done, accounts_of_move hdone hmove, results_of_move hresults (.refl _), hrun⟩,
      List.forall_mem_cons.mpr ⟨⟨s, run⟩, hlost⟩, ?_, fun hqueue => ?_⟩
    · rw [hhalted, List.length_cons]
      exact Nat.succ_le_succ hle
    · rw [hhalted, List.length_cons]
      exact congrArg Nat.succ (hwaiting hqueue)
  | publish queue before after published lost r =>
    have hresult : (done.map Prod.snd ++ (published ++ [r])).Perm
        (done.map Prod.snd ++ (published ++ [r] ++ [])) := by rw [List.append_nil]
    have hhalted : halted ⟨queue, before ++ .idle :: after, published ++ [r], lost⟩
        = halted ⟨queue, before ++ .holding r :: after, published, lost⟩ :=
      halted_of_move nofun nofun
    refine ⟨⟨done, accounts_of_move hdone (.refl _), results_of_move hresults hresult, hrun⟩,
      hlost, ?_, fun hqueue => ?_⟩
    · rw [hhalted]
      exact hle
    · rw [hhalted]
      exact hwaiting hqueue

/-- **Every reachable pool has all accounts**, those that got lost included. -/
theorem settled_of_reaches (h : Settled w interval script accounts p)
    (hreach : Reaches w interval script p q) : Settled w interval script accounts q := by
  induction hreach with
  | refl => exact h
  | tail _ hstep ih => exact settled_of_step ih hstep

/-- A lost account is one of all. -/
theorem Settled.mem_of_mem_lost (h : Settled w interval script accounts p) {a : Account}
    (ha : a ∈ p.lost) : a ∈ accounts := by
  obtain ⟨done, hdone, -⟩ := h.parts
  exact hdone.mem_iff.mp (List.mem_append_right _ (List.mem_append_left _ ha))

/-- No account is lost if something comes of every run. -/
theorem Settled.lost_eq_nil (h : Settled w interval script accounts p)
    (hruns : ∀ a ∈ accounts, ∀ s : σ, (runAccount w interval script a s).1.isSome) :
    p.lost = [] := by
  rw [List.eq_nil_iff_forall_not_mem]
  intro a ha
  obtain ⟨s, hs⟩ := h.isLost a ha
  have hsome := hruns a (h.mem_of_mem_lost ha) s
  rw [hs] at hsome
  exact absurd hsome Bool.false_ne_true

/-- What is lost stays lost. -/
theorem lost_suffix_of_reaches (h : Reaches w interval script p q) : p.lost <:+ q.lost := by
  induction h with
  | refl => exact List.suffix_rfl
  | tail _ hstep ih =>
    cases hstep with
    | lose queue before after published lost run => exact ih.trans (List.suffix_cons _ _)
    | take | leave | finish | publish => exact ih

theorem length_of_step (h : Step w interval script p q) :
    q.workers.length = p.workers.length := by
  cases h <;> simp only [List.length_append, List.length_cons]

theorem length_of_reaches (h : Reaches w interval script p q) :
    q.workers.length = p.workers.length := by
  induction h with
  | refl => rfl
  | tail _ hstep ih => rw [length_of_step hstep, ih]

/-! ## Where the steps end -/

/-- **Every step uses up work.** -/
theorem work_of_step (h : Step w interval script p q) : q.work < p.work := by
  cases h <;> simp only [work_mk, Worker.work, List.length_cons] <;> omega

/-- No order of steps goes on forever. -/
theorem wellFounded_step : WellFounded fun q p => Step w interval script p q :=
  Subrelation.wf work_of_step (InvImage.wf work Nat.lt_wfRel.wf)

/-- **As long as a worker has not stopped, a step can be taken.** -/
theorem step_of_not_finished [Nonempty σ] (h : ¬ p.IsFinished) :
    ∃ q, Step w interval script p q := by
  obtain ⟨queue, workers, published, lost⟩ := p
  obtain ⟨x, hx⟩ := not_forall.mp h
  obtain ⟨hx, hne⟩ := Classical.not_imp.mp hx
  obtain ⟨before, after, rfl⟩ := List.append_of_mem hx
  cases x with
  | idle =>
    cases queue with
    | nil => exact ⟨_, .leave before after published lost⟩
    | cons a queue => exact ⟨_, .take a queue before after published lost⟩
  | busy a =>
    obtain ⟨s⟩ := ‹Nonempty σ›
    cases hrun : (runAccount w interval script a s).1 with
    | none => exact ⟨_, .lose queue before after published lost hrun⟩
    | some r => exact ⟨_, .finish queue before after published lost hrun⟩
  | holding r => exact ⟨_, .publish queue before after published lost r⟩
  | stopped => exact absurd rfl hne

/-- From every pool the end is reached. -/
theorem finished_reached [Nonempty σ] (p : Pool) :
    ∃ q, Reaches w interval script p q ∧ q.IsFinished := by
  have hwf : WellFounded fun q p => Step w interval script p q := wellFounded_step
  induction p using hwf.induction with
  | _ p ih =>
    by_cases hp : p.IsFinished
    · exact ⟨p, .refl, hp⟩
    · obtain ⟨next, hstep⟩ : ∃ next, Step w interval script p next := step_of_not_finished hp
      obtain ⟨q, hreach, hq⟩ := ih next hstep
      exact ⟨q, .head hstep hreach, hq⟩

/-! ## Where all accounts are done -/

/-- Nothing is under way when all workers have stopped. -/
theorem underWay_of_finished (h : p.IsFinished) : p.running = [] ∧ p.results = p.published := by
  have hnone : ∀ {α : Type} (f : Worker → Option α), f .stopped = none →
      p.workers.filterMap f = [] := by
    intro α f hf
    rw [List.filterMap_eq_nil_iff]
    intro x hx
    rw [h x hx, hf]
  refine ⟨hnone _ rfl, ?_⟩
  unfold results
  rw [hnone _ rfl, List.append_nil]

theorem halted_of_finished (h : p.IsFinished) : p.halted = p.workers.length :=
  List.count_eq_length.mpr fun x hx => (h x hx).symm

/-- **When all workers have stopped and no account is lost, every account has the result of one
run.** -/
theorem runs_of_finished (hworkers : 0 < p.workers.length)
    (h : Settled w interval script accounts p) (hfinished : p.IsFinished) (hlost : p.lost = []) :
    ∃ own, p.published.Perm own ∧ List.Forall₂ (IsRun w interval script) accounts own := by
  obtain ⟨⟨done, hdone, hresults, hrun⟩, -, -, hwaiting⟩ := h
  have hqueue : p.queue = [] := by
    -- while an account waits, only a loss stops a worker
    by_contra hne
    have hhalted := hwaiting hne
    rw [halted_of_finished hfinished, hlost, List.length_nil] at hhalted
    omega
  obtain ⟨hrunning, hpublished⟩ := underWay_of_finished hfinished
  rw [hlost, hrunning, hqueue, List.append_nil, List.append_nil, List.append_nil] at hdone
  rw [hpublished] at hresults
  have hpairs : List.Forall₂ (IsRun w interval script) (done.map Prod.fst) (done.map Prod.snd) := by
    rw [List.forall₂_map_left_iff, List.forall₂_map_right_iff, List.forall₂_same]
    exact hrun
  obtain ⟨own, hown, hperm⟩ := List.perm_comp_forall₂ hdone.symm hpairs
  exact ⟨own, hresults.symm.trans hperm.symm, hown⟩

end Pool

/-! ## Results -/

variable {w : Http.World σ} {interval : Duration} {script : Script} {accounts : List Account}

/-- The result of a load test that has each account's run once, counts what succeeded and what
failed, and has the mean of the times (of as many accounts as 32 bits can count).  What the runs
tell is what runs of the accounts alone tell. -/
structure Complete (w : Http.World σ) (interval : Duration) (script : Script)
    (accounts : List Account) (result : RunResult) : Prop where
  runs : ∃ own, result.accounts.Perm own ∧
    List.Forall₂ (Pool.IsRun w interval script) accounts own
  alike : ∀ alone, List.Forall₂ (Pool.IsRun w interval script) accounts alone →
    ∃ own, result.accounts.Perm own ∧
      List.Forall₂ (AccountResult.Alike script.steps) own alone
  successes : result.successes = (result.accounts.filter fun r => r.isSuccess).length
  failures : result.failures = (result.accounts.filter fun r => !r.isSuccess).length
  total : result.totalAccounts = accounts.length
  sum : result.successes + result.failures = result.totalAccounts
  average : result.accounts.length < UInt32.size →
    result.averageDuration.nanos
      = (result.accounts.map fun r => r.totalTime.nanos).sum / result.accounts.length

theorem averageTime_nanos {results : List AccountResult} (h : results.length < UInt32.size) :
    (averageTime results).nanos
      = (results.map fun r => r.totalTime.nanos).sum / results.length := by
  unfold averageTime
  rw [List.sum_eq_foldl, List.foldl_map, UInt32.toNat_ofNat_of_lt' h]

/-- Every result that is collected is counted once. -/
theorem successes_add_failures (scriptName : String) (total : Nat) (took : Duration)
    (results : List AccountResult) :
    (RunResult.collect scriptName total took results).successes
      + (RunResult.collect scriptName total took results).failures = results.length := by
  show results.countP AccountResult.isSuccess + results.countP (fun r => !r.isSuccess) = _
  rw [List.length_eq_countP_add_countP AccountResult.isSuccess]
  simp only [Bool.not_eq_true, Bool.decide_eq_false]

/-- Runs of the same accounts tell the same. -/
theorem forall₂_alike {serve : Http.Request → Http.Outcome} (hserver : Answers w serve)
    {own alone : List AccountResult}
    (hown : List.Forall₂ (Pool.IsRun w interval script) accounts own)
    (halone : List.Forall₂ (Pool.IsRun w interval script) accounts alone) :
    List.Forall₂ (AccountResult.Alike script.steps) own alone := by
  induction hown generalizing alone with
  | nil =>
    cases halone
    exact .nil
  | cons hrun _ ih =>
    obtain _ | ⟨hrun', hrest⟩ := halone
    obtain ⟨s, hs⟩ := hrun
    obtain ⟨s', hs'⟩ := hrun'
    exact .cons (runAccount_alike hserver hs hs') (ih hrest)

/-- Results of one run of each account make a complete result. -/
theorem complete_collect {serve : Http.Request → Http.Outcome} (hserver : Answers w serve)
    {results own : List AccountResult} (hperm : results.Perm own)
    (hown : List.Forall₂ (Pool.IsRun w interval script) accounts own) (took : Duration) :
    Complete w interval script accounts
      (.collect script.name accounts.length took results) := by
  refine ⟨⟨own, hperm, hown⟩, ?_, ?_, ?_, rfl, ?_, averageTime_nanos⟩
  · exact fun alone halone => ⟨own, hperm, forall₂_alike hserver hown halone⟩
  · exact List.countP_eq_length_filter
  · exact List.countP_eq_length_filter
  · rw [successes_add_failures, hperm.length_eq]
    exact hown.length_eq.symm

/-- There is at least one worker. -/
theorem workerCount_pos (cap concurrency accounts : Nat) :
    0 < workerCount cap concurrency accounts := by
  unfold workerCount
  omega

/-- **Every account is run once and on its own.**  Whatever the order in which the workers take
their steps, no more accounts are run at once than there are workers; a step can be taken until all
workers have stopped, and not forever; and if no account was lost on the way, what is then published
makes a complete result. -/
theorem accounts_run_once [Nonempty σ] {serve : Http.Request → Http.Outcome}
    (hserver : Answers w serve) (cap : Nat) :
    let count := workerCount cap script.concurrency accounts.length
    WellFounded (fun q p => Pool.Step w interval script p q) ∧
    ∀ p, Pool.Reaches w interval script (.start count accounts) p →
      p.running.length ≤ count ∧
      (p.IsFinished ∨ ∃ q, Pool.Step w interval script p q) ∧
      (p.IsFinished → p.lost = [] → ∀ took, Complete w interval script accounts
        (.collect script.name accounts.length took p.published)) := by
  intro count
  refine ⟨Pool.wellFounded_step, ?_⟩
  intro p hreach
  have hlength : p.workers.length = count :=
    (Pool.length_of_reaches hreach).trans List.length_replicate
  refine ⟨?_, ?_, ?_⟩
  · rw [← hlength]
    exact List.length_filterMap_le _ _
  · by_cases hfinished : p.IsFinished
    · exact Or.inl hfinished
    · exact Or.inr (Pool.step_of_not_finished hfinished)
  · intro hfinished hlost took
    have hworkers : 0 < p.workers.length := by
      rw [hlength]
      exact workerCount_pos cap script.concurrency accounts.length
    obtain ⟨own, hperm, hown⟩ := Pool.runs_of_finished hworkers
      (Pool.settled_of_reaches (Pool.settled_start count accounts) hreach) hfinished hlost
    exact complete_collect hserver hperm hown took

/-- A server that answers everything with success, at a clock that stands still. -/
def calmWorld : Http.World Unit where
  send _ s := (.response 200 [] "{}", s)
  now _ := .zero
  pause _ s := s

/-- A script that visits one page. -/
def visit : Script where
  name := "visit"
  concurrency := 2
  accounts := ""
  steps := [{ (default : Step) with name := "page", path := "http://127.0.0.1/", expectStatus := 200 }]

def visitors : List Account := [⟨"ann", "a"⟩, ⟨"bob", "b"⟩, ⟨"ann", "a"⟩]

theorem visitors_run_once :
    let count := workerCount 8 visit.concurrency visitors.length
    WellFounded (fun q p => Pool.Step calmWorld .zero visit p q) ∧
    ∀ p, Pool.Reaches calmWorld .zero visit (.start count visitors) p →
      p.running.length ≤ count ∧
      (p.IsFinished ∨ ∃ q, Pool.Step calmWorld .zero visit p q) ∧
      (p.IsFinished → ∀ took, Complete calmWorld .zero visit visitors
        (.collect visit.name visitors.length took p.published)) := by
  have hserver : Answers calmWorld fun _ => .response 200 [] "{}" := fun _ _ => rfl
  have hruns : ∀ a ∈ visitors, (runAccount calmWorld .zero visit a ()).1.isSome := by
    decide +kernel
  refine ⟨Pool.wellFounded_step, fun p hreach => ?_⟩
  have hlost : p.lost = [] :=
    (Pool.settled_of_reaches (Pool.settled_start _ visitors) hreach).lost_eq_nil
      fun a ha _ => hruns a ha
  obtain ⟨hrunning, hgoes, hcomplete⟩ := (accounts_run_once hserver 8).2 p hreach
  exact ⟨hrunning, hgoes, fun hfinished => hcomplete hfinished hlost⟩

/-! ## One account after another -/

/-- Without accounts the workers stop one after another. -/
theorem leave_reached (before : List Worker) (count : Nat) (published : List AccountResult)
    (lost : List Account) :
    Pool.Reaches w interval script ⟨[], before ++ .replicate count .idle, published, lost⟩
      ⟨[], before ++ .replicate count .stopped, published, lost⟩ := by
  induction count generalizing before with
  | zero => exact .refl
  | succ count ih =>
    have hrest := ih (before ++ [.stopped])
    rw [List.append_assoc, List.append_assoc] at hrest
    rw [List.replicate_succ, List.replicate_succ]
    exact .head (.leave before (.replicate count .idle) published lost) hrest

/-- The first worker that has not stopped takes the accounts of the queue, until it is lost. -/
theorem runQueue_reached (queue : List Account) {before : List Worker}
    (hbefore : ∀ x ∈ before, x = .stopped) (count : Nat) (published : List AccountResult)
    (lost : List Account) (s : σ) :
    ∃ p, Pool.Reaches w interval script
        ⟨queue, before ++ .replicate count .idle, published, lost⟩ p ∧
      p.IsFinished ∧ p.published = published ++ (runQueue w interval script count queue s).1 := by
  induction queue generalizing before count published lost s with
  | nil =>
    rw [runQueue, List.append_nil]
    refine ⟨_, leave_reached before count published lost, fun x hx => ?_, rfl⟩
    rcases List.mem_append.mp hx with hx | hx
    · exact hbefore x hx
    · exact List.eq_of_mem_replicate hx
  | cons a queue ih =>
    cases count with
    | zero =>
      refine ⟨_, .refl, fun x hx => ?_, (List.append_nil published).symm⟩
      rw [List.replicate_zero, List.append_nil] at hx
      exact hbefore x hx
    | succ count =>
      rw [runQueue, List.replicate_succ]
      have htake : Pool.Step w interval script
          ⟨a :: queue, before ++ .idle :: .replicate count .idle, published, lost⟩ _ :=
        .take a queue before (.replicate count .idle) published lost
      rcases hrun : runAccount w interval script a s with ⟨outcome, after⟩
      cases outcome with
      | none =>
        have hstopped : ∀ x ∈ before ++ [.stopped], x = Worker.stopped :=
          List.forall_mem_append.mpr ⟨hbefore, fun x hx => List.mem_singleton.mp hx⟩
        obtain ⟨p, hrest, hp⟩ := ih hstopped count published (a :: lost) after
        rw [List.append_assoc, List.singleton_append] at hrest
        have hlose : Pool.Step w interval script
            ⟨queue, before ++ .busy a :: .replicate count .idle, published, lost⟩ _ :=
          .lose queue before (.replicate count .idle) published lost (congrArg Prod.fst hrun)
        exact ⟨p, .head htake (.head hlose hrest), hp⟩
      | some result =>
        obtain ⟨p, hrest, hfinished, hpublished⟩ :=
          ih hbefore (count + 1) (published ++ [result]) lost after
        rw [List.replicate_succ] at hrest
        rw [List.append_assoc, List.singleton_append] at hpublished
        have hfinish : Pool.Step w interval script
            ⟨queue, before ++ .busy a :: .replicate count .idle, published, lost⟩ _ :=
          .finish queue before (.replicate count .idle) published lost (congrArg Prod.fst hrun)
        have hpublish : Pool.Step w interval script
            ⟨queue, before ++ .holding result :: .replicate count .idle, published, lost⟩ _ :=
          .publish queue before (.replicate count .idle) published lost result
        exact ⟨p, .head htake (.head hfinish (.head hpublish hrest)), hfinished, hpublished⟩

/-- **Running one account after another is an order of the steps.** -/
theorem runAll_reached (hne : accounts ≠ []) (cap : Nat) (s : σ) :
    ∃ p took, Pool.Reaches w interval script
        (.start (workerCount cap script.concurrency accounts.length) accounts) p ∧
      p.IsFinished ∧
      (runAll w interval cap script accounts s).1
        = .collect script.name accounts.length took p.published := by
  let count := workerCount cap script.concurrency accounts.length
  obtain ⟨p, hreach, hfinished, hpublished⟩ : ∃ p,
      Pool.Reaches w interval script (.start count accounts) p ∧ p.IsFinished ∧
        p.published = (runQueue w interval script count accounts s).1 :=
    runQueue_reached accounts (List.forall_mem_nil _) count [] [] s
  unfold runAll
  rw [if_neg (by rwa [List.isEmpty_iff])]
  exact ⟨p, _, hreach, hfinished, by rw [hpublished]⟩

end MockServer.Run
