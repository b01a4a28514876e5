/-
  MockServer.Proofs.Service.Run — what every run of a server keeps.

  A run interleaves operations on the records, activations, their
  removal, and forwarded requests.  Requests change no record and bring
  in one cached body at most, the one that the store answers; the other
  steps bring in none, and take no mock away.  So a cached body is at
  all times what the store would answer.

  Main definitions:
    * `Service.Op`, `Service.Outcome`, `Service.step`, `Service.run`;
    * `Service.asked` — the plans of the requests of a run;
    * `Service.Sound` — every cached body is what the store answers.

  Main results:
    * `tended_activate`, `tended_deactivate` — what activations leave;
    * `sound_step`, `sound_run` — no cached body becomes stale.
-/
import MockServer.Activate
import MockServer.Proofs.Resolve.Ending
import MockServer.Proofs.Store.Alike

namespace MockServer.Service

open Resolve (Plan Answers)

/-! ## Runs -/

/-- A step of a server. -/
inductive Op where
  | record (op : Store.Op)
  | activate (id : Uuid) (account : Option String)
  | deactivate (id : Uuid) (account : Option String)
  | resolve (r : Resolve.Request) (took : Duration)

/-- What a step comes to, without the values that it draws. -/
inductive Outcome where
  | recorded (result : Except StoreError Unit)
  | activated (result : Except ActivateError Activation)
  | deactivated (result : Except ActivateError Nat)
  | resolved (result : Except ResolveError String)

/-- The body of a response, or the error without its trace identifier. -/
def bodyOf : Except ResolveError Resolve.Response → Except ResolveError String
  | .ok response => .ok response.body
  | .error (.mockNotFound _) => .error (.mockNotFound "")
  | .error e => .error e

theorem bodyOf_mockNotFound (id : String) :
    bodyOf (.error (.mockNotFound id)) = .error (.mockNotFound "") := rfl

/-- One step. -/
def step (s : Service) : Op → Outcome × Service
  | .record op =>
    match s.store.perform? op with
    | .ok store => (.recorded (.ok ()), { s with store })
    | .error e => (.recorded (.error e), s)
  | .activate id account =>
    ((Outcome.activated ((Activate.activate s id account).1.map Activation.anonymous)),
      (Activate.activate s id account).2)
  | .deactivate id account =>
    (.deactivated (Activate.deactivate s id account).1, (Activate.deactivate s id account).2)
  | .resolve r took =>
    (.resolved (bodyOf (Resolve.resolve s r took).1), (Resolve.resolve s r took).2)

/-- The outcomes of a sequence of steps, and the server after them. -/
def run (s : Service) : List Op → List Outcome × Service
  | [] => ([], s)
  | op :: ops => ((s.step op).1 :: ((s.step op).2.run ops).1, ((s.step op).2.run ops).2)

/-- The plan of a step that has one. -/
def askedBy (s : Service) : Op → List Plan
  | .resolve r _ => (Resolve.plan s r).toOption.toList
  | _ => []

/-- The plans of all requests of a run. -/
def asked (s : Service) : List Op → List Plan
  | [] => []
  | op :: ops => s.askedBy op ++ (s.step op).2.asked ops

/-- An operation on the records changes nothing else. -/
theorem step_record (s : Service) (op : Store.Op) :
    (s.step (.record op)).2 = { s with store := s.store.step op } := by
  simp only [step, Store.step]
  cases s.store.perform? op with
  | error e => rfl
  | ok store => rfl

theorem askedBy_resolve {s : Service} {r : Resolve.Request} {p : Plan}
    (h : Resolve.plan s r = .ok p) (took : Duration) : s.askedBy (.resolve r took) = [p] := by
  simp only [askedBy, h]
  rfl

theorem asked_append (s : Service) (ops later : List Op) :
    s.asked (ops ++ later) = s.asked ops ++ (s.run ops).2.asked later := by
  induction ops generalizing s with
  | nil => rfl
  | cons op ops ih =>
    show s.askedBy op ++ (s.step op).2.asked (ops ++ later) = _
    rw [ih, ← List.append_assoc]
    rfl

/-! ## What activations leave -/

/-- Does the second server have the mocks of the first one, and no other cached bodies? -/
structure Tended (s t : Service) : Prop where
  mocks : t.store.mocks = s.store.mocks
  isEnabled : t.cache.isEnabled = s.cache.isEnabled
  outages : t.outages = s.outages
  entries : ∀ e ∈ t.cache.entries.entries, e ∈ s.cache.entries.entries

theorem tended_refl (s : Service) : Tended s s := ⟨rfl, rfl, rfl, fun _ h => h⟩

theorem Tended.trans {s t u : Service} (h : Tended s t) (h' : Tended t u) : Tended s u :=
  ⟨h'.mocks.trans h.mocks, h'.isEnabled.trans h.isEnabled, h'.outages.trans h.outages,
    fun e he => h.entries e (h'.entries e he)⟩

theorem tended_draw (s : Service) : Tended s s.draw.2 := ⟨rfl, rfl, rfl, fun _ h => h⟩

theorem tended_change (s : Service) (c : Change) : Tended s (s.change c).2 := by
  unfold change ifInOrder
  cases s.outage? c.call with
  | some detail => exact tended_refl s
  | none =>
    cases c with
    | removeOverrides feature => exact ⟨rfl, rfl, rfl, fun _ h => h⟩
    | remove feature account => exact ⟨rfl, rfl, rfl, fun _ h => h⟩
    | add a =>
      simp only [Change.applyTo]
      cases hadd : s.store.addActivation? a with
      | error e => exact tended_refl s
      | ok store =>
        refine ⟨?_, rfl, rfl, fun _ h => h⟩
        show store.mocks = s.store.mocks
        rw [(Store.addActivation?_eq_ok hadd).2]

theorem tended_stages (n : Nat) (s : Service) (stages : List Activate.Stage) :
    Tended s (Activate.run n s stages).2 := by
  induction stages generalizing n s with
  | nil => exact tended_refl s
  | cons stage rest ih =>
    -- the stages go on only after a call that succeeded
    have hchange := tended_change s stage.change
    unfold Activate.run
    split
    next hok =>
      rw [hok] at hchange
      exact hchange.trans (ih _ _)
    next herror =>
      rw [herror] at hchange
      exact hchange

theorem tended_dropCached (s : Service) (feature : String) :
    Tended s (Activate.dropCached s feature) := by
  unfold Activate.dropCached clearCache
  split
  next => exact tended_refl s
  next =>
    split
    next hok =>
      obtain ⟨henabled, hentries⟩ := Cache.invalidate_eq_ok hok
      exact ⟨rfl, henabled, rfl, hentries⟩
    next => exact tended_refl s

/-- **An activation leaves the mocks**, and brings in no cached body. -/
theorem tended_activate (s : Service) (id : Uuid) (account : Option String) :
    Tended s (Activate.activate s id account).2 := by
  unfold Activate.activate
  split
  next => exact tended_refl s
  next x _ =>
    have hstages := tended_stages 0 s.draw.2
      (Activate.stages (Activation.new s.draw.1 x.featureName x.id account))
    simp only
    split
    next hok =>
      rw [hok] at hstages
      exact ((tended_draw s).trans hstages).trans (tended_dropCached _ _)
    next herror =>
      rw [herror] at hstages
      exact (tended_draw s).trans hstages

/-- Taking an activation back leaves the mocks, too. -/
theorem tended_deactivate (s : Service) (id : Uuid) (account : Option String) :
    Tended s (Activate.deactivate s id account).2 := by
  unfold Activate.deactivate
  split
  next => exact tended_refl s
  next x _ =>
    have hstages := tended_stages 0 s
      [⟨.remove x.featureName account, "failed to deactivate scenario"⟩]
    split
    next hok =>
      rw [hok] at hstages
      exact hstages.trans (tended_dropCached _ _)
    next herror =>
      rw [herror] at hstages
      exact hstages

/-! ## Cached bodies -/

/-- Is every cached body what the store answers to one of the plans? -/
def Sound (plans : List Plan) (s : Service) : Prop :=
  ∀ e ∈ s.cache.entries.entries,
    ∃ p ∈ plans, p.cacheKey.toText = e.1 ∧ Answers s.store p e.2

theorem sound_new (isEnabled : Bool) (supply : Supply) : Sound [] (Service.new isEnabled supply) :=
  fun _ he => absurd he List.not_mem_nil

theorem answers_of_mocks {store store' : Store} (h : store'.mocks = store.mocks) {p : Plan}
    {body : String} (ha : Answers store p body) : Answers store' p body := by
  obtain ⟨m, response, hfound, hrespond⟩ := ha
  refine ⟨m, response, ?_, hrespond⟩
  unfold Store.findMock at hfound ⊢
  rw [h, hfound]

theorem sound_of_tended {plans : List Plan} {s t : Service} (h : Sound plans s)
    (ht : Tended s t) : Sound plans t := by
  intro e he
  obtain ⟨p, hp, htext, hanswers⟩ := h e (ht.entries e he)
  exact ⟨p, hp, htext, answers_of_mocks ht.mocks hanswers⟩

/-- **No step makes a cached body stale.** -/
theorem sound_step {plans : List Plan} {s : Service} (h : Sound plans s) (op : Op) :
    Sound (plans ++ s.askedBy op) (s.step op).2 := by
  cases op with
  | record op =>
    rw [step_record, show s.askedBy (.record op) = [] from rfl, List.append_nil]
    intro e he
    obtain ⟨p, hp, htext, m, response, hfound, hrespond⟩ := h e he
    exact ⟨p, hp, htext, m, response, Store.findMock_step hfound op, hrespond⟩
  | activate id account =>
    show Sound (plans ++ []) _
    rw [List.append_nil]
    exact sound_of_tended h (tended_activate s id account)
  | deactivate id account =>
    show Sound (plans ++ []) _
    rw [List.append_nil]
    exact sound_of_tended h (tended_deactivate s id account)
  | resolve r took =>
    -- an entry is an old one, or the answer of the store to the plan of this request
    obtain ⟨hstore, -, -, hentries⟩ := Resolve.resolve_snd s r took
    intro e he
    show ∃ p ∈ _, _ ∧ Answers (Resolve.resolve s r took).2.store p e.2
    rw [hstore]
    rcases hentries e he with hold | ⟨p, hp, htext, hanswers⟩
    · obtain ⟨p, hp, hrest⟩ := h e hold
      exact ⟨p, List.mem_append_left _ hp, hrest⟩
    · refine ⟨p, List.mem_append_right _ ?_, htext, hanswers⟩
      rw [askedBy_resolve hp]
      exact List.mem_singleton_self p

/-- **In every state of every run each cached body is what the store answers.** -/
theorem sound_run {plans : List Plan} {s : Service} (h : Sound plans s) (ops : List Op) :
    Sound (plans ++ s.asked ops) (s.run ops).2 := by
  induction ops generalizing plans s with
  | nil =>
    show Sound (plans ++ []) s
    rw [List.append_nil]
    exact h
  | cons op ops ih =>
    have hrest := ih (sound_step h op)
    rw [List.append_assoc] at hrest
    exact hrest

end MockServer.Service
