/-
  MockServer.Proofs.Activate.Board — activations as a board of choices.

  Seen from outside the activations are a board: for every feature one
  scenario for everybody, or none, and scenarios of single accounts.
  Switching a scenario on for everybody wipes the single accounts of
  its feature; switching it on or off for one account touches that
  account only.  The store keeps one flat list of activations instead
  and edits it by three calls, the last of which could be refused.

  Here the list is shown to follow the board.  The relation says that
  every slot of the list holds what the board holds there, and that no
  slot is held twice; so a call that makes way for an activation leaves
  its slot free, and the activation is let in.

  Main definitions:
    * `Choice`, `Board`, `Board.step`, `Board.run` — the board;
    * `Switch` — one call that switches a scenario on or off;
    * `Board.Follows` — a server whose activations show the board.

  Main results:
    * `Activate.activate_known`, `Activate.deactivate_known` — calls
      for known scenarios succeed;
    * `follows_step` — a call does to the server what it does to the
      board;
    * `switches_follow_board` — so does every sequence of calls.
-/
import MockServer.Proofs.Service.Run
import MockServer.Proofs.Store.Slot

namespace MockServer

/-! ## The board -/

/-- The scenarios that are switched on for one feature. -/
structure Choice where
  /-- The scenario for every account without one of its own. -/
  everybody : Option Uuid
  /-- The scenarios of single accounts. -/
  own : String → Option Uuid

namespace Choice

def empty : Choice := ⟨none, fun _ => none⟩

/-- The scenario of exactly this account, or the one for everybody. -/
def exact (c : Choice) : Option String → Option Uuid
  | none => c.everybody
  | some account => c.own account

/-- The scenario that counts for an account: its own, else the one for everybody. -/
def seen (c : Choice) : Option String → Option Uuid
  | none => c.everybody
  | some account => (c.own account).or c.everybody

/-- A scenario for everybody wipes the single accounts. -/
def switchOn (c : Choice) (id : Uuid) : Option String → Choice
  | none => ⟨some id, fun _ => none⟩
  | some account => { c with own := Function.update c.own account (some id) }

def switchOff (c : Choice) : Option String → Choice
  | none => { c with everybody := none }
  | some account => { c with own := Function.update c.own account none }

theorem exact_switchOn (c : Choice) (id : Uuid) (of account : Option String) :
    (c.switchOn id of).exact account
      = if account = of then some id else if of = none then none else c.exact account := by
  cases of <;> cases account <;> simp [switchOn, exact, Function.update_apply]

theorem exact_switchOff (c : Choice) (of account : Option String) :
    (c.switchOff of).exact account = if account = of then none else c.exact account := by
  cases of <;> cases account <;> simp [switchOff, exact, Function.update_apply]

end Choice

/-- The choices of all features. -/
abbrev Board := String → Choice

/-- A call that switches a scenario on or off, for one account or for everybody. -/
inductive Switch where
  | on (id : Uuid) (account : Option String)
  | off (id : Uuid) (account : Option String)

namespace Switch

def scenario : Switch → Uuid
  | on id _ | off id _ => id

/-- The call as a step of a server. -/
def op : Switch → Service.Op
  | on id account => .activate id account
  | off id account => .deactivate id account

/-- What the call comes to if nobody knows its scenario. -/
def unknown : Switch → Service.Outcome
  | on id _ => .activated (.error (.scenarioNotFound id))
  | off id _ => .deactivated (.error (.scenarioNotFound id))

end Switch

namespace Board

def empty : Board := fun _ => .empty

/-- One call on the board.  `featureOf` gives the features of the known scenarios; the activation
that is answered has no identifier and no time. -/
def step (featureOf : Uuid → Option String) (b : Board) (w : Switch) : Service.Outcome × Board :=
  match featureOf w.scenario, w with
  | none, w => (w.unknown, b)
  | some f, .on id account =>
    (.activated (.ok (Activation.new default f id account)),
      Function.update b f ((b f).switchOn id account))
  | some f, .off _ account =>
    (.deactivated (.ok (if ((b f).exact account).isSome then 1 else 0)),
      Function.update b f ((b f).switchOff account))

/-- The outcomes of a sequence of calls, and the board after them. -/
def run (featureOf : Uuid → Option String) (b : Board) : List Switch → List Service.Outcome × Board
  | [] => ([], b)
  | w :: ws =>
    ((b.step featureOf w).1 :: (run featureOf (b.step featureOf w).2 ws).1,
      (run featureOf (b.step featureOf w).2 ws).2)

end Board

/-! ## The list of activations -/

namespace Store

/-- The store without the activations that an activation for this account replaces. -/
def cleared (s : Store) (f : String) (of : Option String) : Store :=
  ((if of.isNone then (s.removeOverrides f).1 else s).removeActivation f of).1

/-- The store with an activation in its slot. -/
def switchOn (s : Store) (a : Activation) : Store :=
  { s.cleared a.featureName a.account with
    activations := (s.cleared a.featureName a.account).activations ++ [a] }

theorem findActivation_cleared (s : Store) (f featureName : String) (of account : Option String) :
    (s.cleared f of).findActivation featureName account
      = if featureName = f ∧ (of = none ∨ account = of) then none
        else s.findActivation featureName account := by
  unfold cleared
  rw [findActivation_removeActivation]
  cases of with
  | none =>
    -- the overrides of the feature go first, then its global activation
    simp only [Option.isNone_none, if_true, findActivation_removeOverrides, Prod.mk.injEq, true_or,
      and_true]
    by_cases hf : featureName = f <;> cases account <;> simp [hf]
  | some o =>
    simp only [Option.isNone_some, Bool.false_eq_true, if_false, Prod.mk.injEq, reduceCtorEq,
      false_or]

theorem findActivation_cleared_self (s : Store) (a : Activation) :
    (s.cleared a.featureName a.account).findActivation a.featureName a.account = none := by
  rw [findActivation_cleared, if_pos ⟨rfl, Or.inr rfl⟩]

theorem findActivation_switchOn (s : Store) (a : Activation) (featureName : String)
    (account : Option String) :
    (s.switchOn a).findActivation featureName account
      = if (featureName, account) = a.slot then some a
        else (s.cleared a.featureName a.account).findActivation featureName account :=
  findActivation_append (s.findActivation_cleared_self a) featureName account

/-- Clearing takes activations away. -/
theorem cleared_sublist (s : Store) (f : String) (of : Option String) :
    (s.cleared f of).activations.Sublist s.activations := by
  unfold cleared
  refine List.filter_sublist.trans ?_
  split
  next => exact List.filter_sublist
  next => exact List.Sublist.refl _

theorem nodup_switchOn {s : Store} (h : (s.activations.map Activation.slot).Nodup)
    (a : Activation) : ((s.switchOn a).activations.map Activation.slot).Nodup := by
  apply nodup_map_append_singleton (h.sublist ((s.cleared_sublist _ _).map _))
  intro hmem
  have hsome := (findActivation_isSome_iff (s.cleared a.featureName a.account) _ _).mpr hmem
  rw [findActivation_cleared_self] at hsome
  exact absurd hsome (by decide)

/-- The feature of a scenario that is known. -/
def featureOfScenario (s : Store) (id : Uuid) : Option String :=
  (s.getScenario id).map Scenario.featureName

/-- No scenario comes or goes. -/
theorem getScenario_switchOn (s : Store) (a : Activation) (id : Uuid) :
    (s.switchOn a).getScenario id = s.getScenario id := by
  unfold switchOn cleared
  split
  next => rfl
  next => rfl

/-- The activations of other features stay. -/
theorem activationsOf_removeWhere {s : Store} {p : Activation → Bool} {f : String}
    (hp : ∀ a, a.featureName = f → p a = false) :
    (s.removeWhere p).1.activationsOf f = s.activationsOf f := by
  unfold removeWhere activationsOf
  rw [List.filter_filter]
  apply List.filter_congr
  intro a _
  by_cases hf : a.featureName = f
  · simp [hf, hp a hf]
  · simp [hf]

theorem activationsOf_cleared (s : Store) {f g : String} (hg : g ≠ f) (of : Option String) :
    (s.cleared f of).activationsOf g = s.activationsOf g := by
  unfold cleared removeActivation
  rw [activationsOf_removeWhere (by rintro a rfl; simp [hg])]
  split
  next => exact activationsOf_removeWhere (by rintro a rfl; simp [hg])
  next => rfl

theorem activationsOf_switchOn (s : Store) (a : Activation) {g : String}
    (hg : g ≠ a.featureName) : (s.switchOn a).activationsOf g = s.activationsOf g := by
  rw [← s.activationsOf_cleared hg a.account]
  unfold switchOn activationsOf
  rw [List.filter_append, List.filter_cons_of_neg (by simp [Ne.symm hg]), List.filter_nil,
    List.append_nil]

end Store

/-! ## Calls -/

namespace Activate

/-- Are the calls of an activation in order?  The cache need not be. -/
def InOrder (s : Service) : Prop :=
  ∀ c ∈ [Call.getScenario, .removeOverrides, .removeActivation, .addActivation], s.outage? c = none

variable {s : Service}

theorem scenario_of_inOrder (hin : InOrder s) (id : Uuid) :
    scenario s id = match s.store.getScenario id with
      | none => .error (.scenarioNotFound id)
      | some x => .ok x := by
  unfold scenario Service.getScenario Service.ifInOrder
  rw [hin .getScenario (by decide)]
  cases s.store.getScenario id with
  | none => rfl
  | some x => rfl

/-- A call that is in order does what it does to the store. -/
theorem change_of_ok {change : Service.Change} {n : Nat} {store : Store}
    (hin : s.outage? change.call = none) (h : change.applyTo s.store = .ok (n, store)) :
    s.change change = (.ok n, { s with store }) := by
  unfold Service.change Service.ifInOrder
  rw [hin, h]

/-- One stage that succeeds, and the stages behind it. -/
theorem run_cons_of_ok {stage : Stage} {k n : Nat} {store : Store} (rest : List Stage)
    (hin : s.outage? stage.change.call = none)
    (h : stage.change.applyTo s.store = .ok (n, store)) :
    run k s (stage :: rest) = run n { s with store } rest := by
  rw [run, change_of_ok hin h]

/-- **Making way for an activation and letting it in succeeds**, whatever was active before. -/
theorem run_stages (hin : InOrder s) (a : Activation) :
    run 0 s (stages a) = (.ok 0, { s with store := s.store.switchOn a }) := by
  have hadd : (Service.Change.add a).applyTo (s.store.cleared a.featureName a.account)
      = .ok (0, s.store.switchOn a) := by
    show (Store.addActivation? _ a).map _ = _
    rw [Store.addActivation?_of_free (s.store.findActivation_cleared_self a)]
    rfl
  unfold stages clearing
  unfold Store.cleared at hadd
  cases haccount : a.account with
  | none =>
    rw [haccount] at hadd
    show run 0 s [⟨.removeOverrides a.featureName, _⟩, ⟨.remove a.featureName none, _⟩,
      ⟨.add a, _⟩] = _
    rw [run_cons_of_ok _ (hin .removeOverrides (by decide)) rfl,
      run_cons_of_ok _ (hin .removeActivation (by decide)) rfl,
      run_cons_of_ok _ (hin .addActivation (by decide)) hadd]
    rfl
  | some o =>
    rw [haccount] at hadd
    show run 0 s [⟨.remove a.featureName (some o), _⟩, ⟨.add a, _⟩] = _
    rw [run_cons_of_ok _ (hin .removeActivation (by decide)) rfl,
      run_cons_of_ok _ (hin .addActivation (by decide)) hadd]
    rfl

/-- Dropping cached responses touches the cache only. -/
theorem dropCached_eq (s : Service) (f : String) : ∃ cache, dropCached s f = { s with cache } := by
  unfold dropCached Service.clearCache
  split
  next => exact ⟨s.cache, rfl⟩
  next =>
    split
    next cache _ => exact ⟨cache, rfl⟩
    next => exact ⟨s.cache, rfl⟩

variable {id : Uuid} {x : Scenario}

theorem id_of_getScenario {store : Store} (h : store.getScenario id = some x) : x.id = id := by
  unfold Store.getScenario at h
  have hid := List.find?_some h
  exact beq_iff_eq.mp hid

/-- **A known scenario is switched on.** -/
theorem activate_known (hin : InOrder s) (hx : s.store.getScenario id = some x)
    (account : Option String) :
    ∃ cache, activate s id account
      = (.ok (Activation.new s.supply.stamp x.featureName id account),
          { s with
            store := s.store.switchOn (Activation.new s.supply.stamp x.featureName id account)
            supply := s.supply.advance
            cache }) := by
  have hstages := run_stages (s := s.draw.2) hin
    (Activation.new s.supply.stamp x.featureName id account)
  obtain ⟨cache, hcache⟩ := dropCached_eq
    { s with
      store := s.store.switchOn (Activation.new s.supply.stamp x.featureName id account)
      supply := s.supply.advance } x.featureName
  refine ⟨cache, ?_⟩
  unfold activate
  rw [scenario_of_inOrder hin, hx]
  simp only [id_of_getScenario hx, Service.draw] at hstages ⊢
  rw [hstages]
  show (Except.ok _, dropCached _ x.featureName) = _
  rw [hcache]

/-- **A known scenario is switched off**, and its slot emptied. -/
theorem deactivate_known (hin : InOrder s) (hx : s.store.getScenario id = some x)
    (account : Option String) :
    ∃ cache, deactivate s id account
      = (.ok (s.store.removeActivation x.featureName account).2,
          { s with store := (s.store.removeActivation x.featureName account).1, cache }) := by
  obtain ⟨cache, hcache⟩ := dropCached_eq
    { s with store := (s.store.removeActivation x.featureName account).1 } x.featureName
  refine ⟨cache, ?_⟩
  unfold deactivate
  rw [scenario_of_inOrder hin, hx]
  have hstage : run 0 s [⟨.remove x.featureName account, "failed to deactivate scenario"⟩]
      = (.ok (s.store.removeActivation x.featureName account).2,
          { s with store := (s.store.removeActivation x.featureName account).1 }) :=
    run_cons_of_ok _ (hin .removeActivation (by decide)) rfl
  simp only [hstage, hcache]

end Activate

/-- A call for a scenario that is not known changes nothing. -/
theorem Switch.step_unknown {s : Service} (hin : Activate.InOrder s) (w : Switch)
    (hx : s.store.getScenario w.scenario = none) : s.step w.op = (w.unknown, s) := by
  cases w with
  | on id account =>
    simp only [scenario] at hx
    simp only [op, unknown, Service.step, Activate.activate, Activate.scenario_of_inOrder hin, hx]
    rfl
  | off id account =>
    simp only [scenario] at hx
    simp only [op, unknown, Service.step, Activate.deactivate, Activate.scenario_of_inOrder hin, hx]

/-- A call that switches a known scenario on, as a step of the server. -/
theorem Switch.step_on {s : Service} (hin : Activate.InOrder s) (id : Uuid) {x : Scenario}
    (hx : s.store.getScenario id = some x) (account : Option String) :
    ∃ supply cache, s.step (Switch.on id account).op
      = (.activated (.ok (Activation.new default x.featureName id account)),
          { s with
            store := s.store.switchOn (Activation.new s.supply.stamp x.featureName id account)
            supply
            cache }) := by
  obtain ⟨cache, hon⟩ := Activate.activate_known hin hx account
  refine ⟨s.supply.advance, cache, ?_⟩
  simp only [op, Service.step, hon]
  rfl

/-- A call that switches a known scenario off, as a step of the server. -/
theorem Switch.step_off {s : Service} (hin : Activate.InOrder s) (id : Uuid) {x : Scenario}
    (hx : s.store.getScenario id = some x) (account : Option String) :
    ∃ cache, s.step (Switch.off id account).op
      = (.deactivated (.ok (s.store.removeActivation x.featureName account).2),
          { s with store := (s.store.removeActivation x.featureName account).1, cache }) := by
  obtain ⟨cache, hoff⟩ := Activate.deactivate_known hin hx account
  exact ⟨cache, by simp only [op, Service.step, hoff]⟩

/-! ## The list follows the board -/

namespace Board

/-- Do the activations of the server show the board?  No slot is held twice, and what is found in a
slot is what the board holds there. -/
structure Follows (featureOf : Uuid → Option String) (s : Service) (b : Board) : Prop where
  inOrder : Activate.InOrder s
  known : ∀ id, s.store.featureOfScenario id = featureOf id
  distinct : (s.store.activations.map Activation.slot).Nodup
  shows : ∀ f account,
    (s.store.findActivation f account).map Activation.scenarioId = (b f).exact account

variable {featureOf : Uuid → Option String} {s : Service} {b : Board}

/-- What is switched on for an account is what the board says. -/
theorem Follows.activationFor (h : Follows featureOf s b) (f : String) (account : Option String) :
    (s.store.activationFor f account).map Activation.scenarioId = (b f).seen account := by
  unfold Store.activationFor
  cases account with
  | none => exact h.shows f none
  | some o =>
    rw [Option.map_or, h.shows f (some o), h.shows f none]
    rfl

/-- The board after a scenario was switched on is what the list shows. -/
theorem shows_switchOn {store : Store}
    (h : ∀ f account, (store.findActivation f account).map Activation.scenarioId
      = (b f).exact account) (a : Activation) (f : String) (account : Option String) :
    ((store.switchOn a).findActivation f account).map Activation.scenarioId
      = (Function.update b a.featureName ((b a.featureName).switchOn a.scenarioId a.account)
          f).exact account := by
  rw [Store.findActivation_switchOn, Store.findActivation_cleared, Activation.slot,
    Function.update_apply]
  by_cases hf : f = a.featureName
  · subst hf
    rw [if_pos rfl, Choice.exact_switchOn]
    by_cases haccount : account = a.account
    · simp [haccount]
    · by_cases hall : a.account = none <;> simp [haccount, hall, h]
  · simp [hf, h]

theorem shows_switchOff {store : Store}
    (h : ∀ f account, (store.findActivation f account).map Activation.scenarioId
      = (b f).exact account) (g : String) (of : Option String) (f : String)
    (account : Option String) :
    ((store.removeActivation g of).1.findActivation f account).map Activation.scenarioId
      = ((Function.update b g ((b g).switchOff of)) f).exact account := by
  rw [Store.findActivation_removeActivation, Function.update_apply]
  by_cases hf : f = g
  · subst hf
    rw [if_pos rfl, Choice.exact_switchOff]
    by_cases haccount : account = of <;> simp [haccount, h]
  · simp [hf, h]

/-- **A call does to the server what it does to the board**, and comes to the same. -/
theorem follows_step (h : Follows featureOf s b) (w : Switch) :
    (s.step w.op).1 = (b.step featureOf w).1 ∧
      Follows featureOf (s.step w.op).2 (b.step featureOf w).2 := by
  have hknown := h.known w.scenario
  unfold Store.featureOfScenario at hknown
  unfold step
  cases hx : s.store.getScenario w.scenario with
  | none =>
    rw [hx, Option.map_none] at hknown
    rw [w.step_unknown h.inOrder hx, ← hknown]
    exact ⟨rfl, h⟩
  | some x =>
    rw [hx, Option.map_some] at hknown
    rw [← hknown]
    cases w with
    | on id account =>
      obtain ⟨supply, cache, hon⟩ := Switch.step_on h.inOrder id hx account
      rw [hon]
      refine ⟨rfl, h.inOrder, fun i => ?_, Store.nodup_switchOn h.distinct _, ?_⟩
      · rw [Store.featureOfScenario, Store.getScenario_switchOn]
        exact h.known i
      · exact shows_switchOn h.shows _
    | off id account =>
      obtain ⟨cache, hoff⟩ := Switch.step_off h.inOrder id hx account
      rw [hoff]
      dsimp only
      refine ⟨?_, h.inOrder, h.known, h.distinct.sublist (List.filter_sublist.map _), ?_⟩
      · rw [Store.removeActivation_snd h.distinct, ← h.shows, Option.isSome_map]
      · exact shows_switchOff h.shows _ _

/-- A sequence of calls does to the server what it does to the board. -/
theorem follows_run (h : Follows featureOf s b) (ws : List Switch) :
    (s.run (ws.map Switch.op)).1 = (b.run featureOf ws).1 ∧
      Follows featureOf (s.run (ws.map Switch.op)).2 (b.run featureOf ws).2 := by
  induction ws generalizing s b with
  | nil => exact ⟨rfl, h⟩
  | cons w ws ih =>
    obtain ⟨houtcome, hstep⟩ := follows_step h w
    obtain ⟨houtcomes, hrun⟩ := ih hstep
    refine ⟨?_, hrun⟩
    show (s.step w.op).1 :: _ = _ :: _
    rw [houtcome, houtcomes]

/-- A board without choices is followed by a server without activations. -/
theorem follows_empty (hin : Activate.InOrder s) (hnone : s.store.activations = []) :
    Follows s.store.featureOfScenario s empty := by
  refine ⟨hin, fun _ => rfl, by rw [hnone]; exact List.nodup_nil, fun f account => ?_⟩
  unfold Store.findActivation
  rw [hnone]
  cases account with
  | none => rfl
  | some o => rfl

end Board

/-! ## Single calls -/

/-- Does a call, made on this server, change nothing for an unknown scenario, and for a known one
succeed and keep to the feature of the scenario? -/
structure Switch.Confined (featureOf : Uuid → Option String) (s : Service) (w : Switch) : Prop where
  unknown : featureOf w.scenario = none → s.step w.op = (w.unknown, s)
  succeeds : ∀ f, featureOf w.scenario = some f →
    (∃ a, (s.step w.op).1 = .activated (.ok a)) ∨ ∃ n ≤ 1, (s.step w.op).1 = .deactivated (.ok n)
  others : ∀ f, featureOf w.scenario = some f → ∀ g ≠ f,
    (s.step w.op).2.store.activationsOf g = s.store.activationsOf g

/-- **A call keeps to the feature of its scenario.** -/
theorem Board.Follows.confined {featureOf : Uuid → Option String} {s : Service} {b : Board}
    (h : Follows featureOf s b) (w : Switch) : w.Confined featureOf s := by
  have hknown := h.known w.scenario
  refine ⟨fun hnone => ?_, fun f hf => ?_, fun f hf g hg => ?_⟩
  · rw [hnone] at hknown
    exact w.step_unknown h.inOrder (Option.map_eq_none_iff.mp hknown)
  · rw [(follows_step h w).1]
    unfold step
    rw [hf]
    cases w with
    | on id account => exact Or.inl ⟨_, rfl⟩
    | off id account => exact Or.inr ⟨_, by split <;> decide, rfl⟩
  · rw [hf] at hknown
    obtain ⟨x, hx, rfl⟩ := Option.map_eq_some_iff.mp hknown
    cases w with
    | on id account =>
      obtain ⟨supply, cache, hon⟩ := Switch.step_on h.inOrder id hx account
      rw [hon]
      exact s.store.activationsOf_switchOn _ hg
    | off id account =>
      obtain ⟨cache, hoff⟩ := Switch.step_off h.inOrder id hx account
      rw [hoff]
      exact Store.activationsOf_removeWhere (by rintro a rfl; simp [hg])

/-- **The list of activations is a board.**  A server starts without activations; its calls on the
records are in order, its cache need not be.  After any calls that switch scenarios on and off:
every call came to what it comes to on the board, and the scenario that counts for a feature and
an account is the one that the board shows.  A further call for an unknown scenario says so and
changes nothing at all; one for a known scenario succeeds, removes one activation at most when it
switches off, and leaves the activations of all other features as they are. -/
theorem switches_follow_board (s : Service) (hnone : s.store.activations = [])
    (hin : Activate.InOrder s) (ws : List Switch) :
    (s.run (ws.map Switch.op)).1 = (Board.empty.run s.store.featureOfScenario ws).1 ∧
    (∀ f account,
      ((s.run (ws.map Switch.op)).2.store.activationFor f account).map Activation.scenarioId
        = ((Board.empty.run s.store.featureOfScenario ws).2 f).seen account) ∧
    ∀ w : Switch, w.Confined s.store.featureOfScenario (s.run (ws.map Switch.op)).2 := by
  obtain ⟨houtcomes, hfollows⟩ := Board.follows_run (Board.follows_empty hin hnone) ws
  exact ⟨houtcomes, hfollows.activationFor, hfollows.confined⟩

/-- A feature with two scenarios, and another feature with one. -/
def twoFeatures : Service :=
  { Service.new true default with
    store := { Store.empty with
      scenarios := [⟨⟨1⟩, "pay", "works", "", true, default, default⟩,
        ⟨⟨2⟩, "pay", "fails", "", true, default, default⟩,
        ⟨⟨3⟩, "ship", "works", "", true, default, default⟩] } }

/-- One account is taken off, everybody else is switched, and a scenario is not known. -/
def someSwitches : List Switch :=
  [.on ⟨1⟩ none, .on ⟨2⟩ (some "a"), .on ⟨2⟩ (some "b"), .on ⟨3⟩ none, .off ⟨1⟩ (some "a"),
    .off ⟨3⟩ (some "a"), .on ⟨4⟩ none]

theorem someSwitches_follow_board :
    ((twoFeatures.run (someSwitches.map Switch.op)).2.store.activationFor "pay" (some "a")).map
      Activation.scenarioId = some ⟨1⟩ ∧
    ((twoFeatures.run (someSwitches.map Switch.op)).2.store.activationFor "pay" (some "b")).map
      Activation.scenarioId = some ⟨2⟩ := by
  have hboard := (switches_follow_board twoFeatures rfl (fun _ _ => rfl) someSwitches).2.1
  exact ⟨(hboard "pay" (some "a")).trans (by decide), (hboard "pay" (some "b")).trans (by decide)⟩

end MockServer
