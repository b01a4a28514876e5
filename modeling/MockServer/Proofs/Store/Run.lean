/-
  MockServer.Proofs.Store.Run — what every run of a store keeps.

  A run is a sequence of operations on the records; one that is refused
  leaves the store as it was.  No operation takes a mock away or moves
  it, and an active mock is let in only if no other active one answers
  its key, so the mock that answers a lookup stays the one that does.

  Main definitions:
    * `Store.Op`, `Store.perform?`, `Store.step`, `Store.run`;
    * `Store.Rivals` — two active mocks that answer one lookup;
    * `Store.Unrivalled` — there are none.

  Main results:
    * `unrivalled_run` — so it is in every reachable store;
    * `findMock_run` — a mock that is found is found ever after;
    * `findMock_of_addMock?` — a mock that is let in is found.
-/
import Mathlib.Data.List.Pairwise
import MockServer.Proofs.Entity.Mock
import MockServer.Store.Basic

namespace MockServer.Store

/-! ## Operations -/

/-- An operation that changes the records. -/
inductive Op where
  | addFeature (f : Feature)
  | addScenario (x : Scenario)
  | addActivation (a : Activation)
  | removeOverrides (featureName : String)
  | removeActivation (featureName : String) (account : Option String)
  | addMock (m : Mock)
  | addLoadTest (x : LoadTest)
  deriving Repr

/-- The store after an operation, unless it is refused. -/
def perform? (s : Store) : Op → Except StoreError Store
  | .addFeature f => s.addFeature? f
  | .addScenario x => s.addScenario? x
  | .addActivation a => s.addActivation? a
  | .removeOverrides featureName => .ok (s.removeOverrides featureName).1
  | .removeActivation featureName account => .ok (s.removeActivation featureName account).1
  | .addMock m => (s.addMock? m).map Prod.fst
  | .addLoadTest x => s.addLoadTest? x

/-- The store after an operation; a refused one changes nothing. -/
def step (s : Store) (op : Op) : Store :=
  match s.perform? op with
  | .ok s' => s'
  | .error _ => s

/-- The store after a sequence of operations. -/
def run (s : Store) (ops : List Op) : Store := ops.foldl step s

theorem run_cons (s : Store) (op : Op) (ops : List Op) : s.run (op :: ops) = (s.step op).run ops :=
  rfl

theorem run_append (s : Store) (ops later : List Op) :
    s.run (ops ++ later) = (s.run ops).run later :=
  List.foldl_append

/-! ## What it takes to add a record -/

theorem addFeature?_eq_ok {s s' : Store} {f : Feature} (h : s.addFeature? f = .ok s') :
    Text.isBlankText f.name = false ∧ s.findFeature f.name = none ∧
      s' = { s with features := s.features ++ [f] } := by
  unfold addFeature? at h
  split at h
  next => exact absurd h (by simp)
  next hblank =>
    split at h
    next => exact absurd h (by simp)
    next hfree =>
      exact ⟨by simpa using hblank, Option.not_isSome_iff_eq_none.mp hfree,
        (Except.ok.inj h).symm⟩

theorem addScenario?_eq_ok {s s' : Store} {x : Scenario} (h : s.addScenario? x = .ok s') :
    s.findScenario x.featureName x.name = none ∧
      s' = { s with scenarios := s.scenarios ++ [x] } := by
  unfold addScenario? at h
  split at h
  next => exact absurd h (by simp)
  next hfree => exact ⟨Option.not_isSome_iff_eq_none.mp hfree, (Except.ok.inj h).symm⟩

theorem addActivation?_eq_ok {s s' : Store} {a : Activation} (h : s.addActivation? a = .ok s') :
    s.findActivation a.featureName a.account = none ∧
      s' = { s with activations := s.activations ++ [a] } := by
  unfold addActivation? at h
  split at h
  next => exact absurd h (by simp)
  next hfree => exact ⟨Option.not_isSome_iff_eq_none.mp hfree, (Except.ok.inj h).symm⟩

theorem addLoadTest?_eq_ok {s s' : Store} {x : LoadTest} (h : s.addLoadTest? x = .ok s') :
    s.findLoadTest x.name = none ∧ s' = { s with loadTests := s.loadTests ++ [x] } := by
  unfold addLoadTest? at h
  split at h
  next => exact absurd h (by simp)
  next hfree => exact ⟨Option.not_isSome_iff_eq_none.mp hfree, (Except.ok.inj h).symm⟩

/-- The mock as it is stored. -/
def stored (m : Mock) : Mock := { m with path := Url.Lookup.canonical m.path }

theorem addMock?_eq_ok {s s' : Store} {m m' : Mock} (h : s.addMock? m = .ok (s', m')) :
    (m'.isActive = true → s.findMock m'.key = none) ∧ m' = stored m ∧
      s' = { s with mocks := s.mocks ++ [m'] } := by
  unfold addMock? at h
  simp only at h
  split at h
  next => exact absurd h (by simp)
  next hfree =>
    rw [Except.ok.injEq, Prod.mk.injEq] at h
    obtain ⟨hs, hm⟩ := h
    subst hm
    refine ⟨fun hactive => ?_, rfl, hs.symm⟩
    rw [Bool.and_eq_true, not_and] at hfree
    exact Option.not_isSome_iff_eq_none.mp (hfree hactive)

theorem step_addMock {s s' : Store} {m m' : Mock} (h : s.addMock? m = .ok (s', m')) :
    s.step (.addMock m) = s' := by
  simp only [step, perform?, h, Except.map]

/-- **An operation leaves the mocks alone, or puts one behind them** that no active one rivals. -/
theorem mocks_step (s : Store) (op : Op) :
    (s.step op).mocks = s.mocks ∨
      ∃ m, (s.step op).mocks = s.mocks ++ [m] ∧ (m.isActive = true → s.findMock m.key = none) := by
  unfold step
  cases hop : s.perform? op with
  | error e => exact Or.inl rfl
  | ok s' =>
    cases op with
    | addFeature f => exact Or.inl (by rw [(addFeature?_eq_ok hop).2.2])
    | addScenario x => exact Or.inl (by rw [(addScenario?_eq_ok hop).2])
    | addActivation a => exact Or.inl (by rw [(addActivation?_eq_ok hop).2])
    | removeOverrides featureName => exact Or.inl (by rw [← Except.ok.inj hop]; rfl)
    | removeActivation featureName account => exact Or.inl (by rw [← Except.ok.inj hop]; rfl)
    | addMock m =>
      simp only [perform?] at hop
      cases hadd : s.addMock? m with
      | error e =>
        rw [hadd] at hop
        exact absurd hop (by simp [Except.map])
      | ok added =>
        obtain ⟨s'', m'⟩ := added
        rw [hadd] at hop
        obtain ⟨hfree, -, hs⟩ := addMock?_eq_ok hadd
        rw [← Except.ok.inj hop]
        exact Or.inr ⟨m', by rw [hs], hfree⟩
    | addLoadTest x => exact Or.inl (by rw [(addLoadTest?_eq_ok hop).2])

/-! ## Lookups -/

theorem findMock_eq_some {s : Store} {k : MockKey} {m : Mock} (h : s.findMock k = some m) :
    m ∈ s.mocks ∧ m.isActive = true ∧ m.answers k = true := by
  have hpred := List.find?_some h
  rw [Bool.and_eq_true] at hpred
  exact ⟨List.mem_of_find?_eq_some h, hpred⟩

theorem findMock_step {s : Store} {k : MockKey} {m : Mock} (h : s.findMock k = some m) (op : Op) :
    (s.step op).findMock k = some m := by
  unfold findMock at h ⊢
  rcases mocks_step s op with hsame | ⟨n, hnew, -⟩
  · rw [hsame, h]
  · rw [hnew, List.find?_append, h]
    rfl

/-- **A mock that is found is found ever after.** -/
theorem findMock_run {s : Store} {k : MockKey} {m : Mock} (h : s.findMock k = some m)
    (ops : List Op) : (s.run ops).findMock k = some m := by
  induction ops generalizing s with
  | nil => exact h
  | cons op ops ih => exact ih (findMock_step h op)

/-- Are both mocks active, and is there a lookup that both answer? -/
def Rivals (m n : Mock) : Prop :=
  m.isActive = true ∧ n.isActive = true ∧ ∃ k, m.answers k = true ∧ n.answers k = true

instance : Std.Symm fun m n => ¬ Rivals m n where
  symm := by
    rintro m n hmn ⟨hn, hm, k, hnk, hmk⟩
    exact hmn ⟨hm, hn, k, hmk, hnk⟩

/-- Does no lookup have two active mocks? -/
def Unrivalled (s : Store) : Prop := s.mocks.Pairwise fun m n => ¬ Rivals m n

theorem unrivalled_empty : empty.Unrivalled := List.Pairwise.nil

/-- A mock has no rival in a store that does not find its key. -/
theorem not_rivals_of_findMock {s : Store} {n : Mock}
    (hfree : n.isActive = true → s.findMock n.key = none) {m : Mock} (hm : m ∈ s.mocks) :
    ¬ Rivals m n := by
  rintro ⟨hmactive, hnactive, k, hmk, hnk⟩
  -- the rival would have been found under the key of the new mock
  have hnone := hfree hnactive
  unfold findMock at hnone
  rw [List.find?_eq_none] at hnone
  apply hnone m hm
  rw [hmactive, Mock.answers_key_of_answers hmk hnk]
  rfl

theorem unrivalled_step {s : Store} (h : s.Unrivalled) (op : Op) : (s.step op).Unrivalled := by
  unfold Unrivalled at h ⊢
  rcases mocks_step s op with hsame | ⟨n, hnew, hfree⟩
  · rw [hsame]
    exact h
  · rw [hnew, List.pairwise_append]
    refine ⟨h, List.pairwise_singleton _ _, ?_⟩
    intro m hm n' hn'
    rw [List.mem_singleton] at hn'
    rw [hn']
    exact not_rivals_of_findMock hfree hm

/-- **In every reachable store no lookup has two active mocks.** -/
theorem unrivalled_run {s : Store} (h : s.Unrivalled) (ops : List Op) : (s.run ops).Unrivalled := by
  induction ops generalizing s with
  | nil => exact h
  | cons op ops ih => exact ih (unrivalled_step h op)

/-- A lookup is answered by the mock that is found and by no other active one. -/
theorem eq_of_findMock {s : Store} (h : s.Unrivalled) {k : MockKey} {m n : Mock}
    (hfound : s.findMock k = some m) (hn : n ∈ s.mocks) (hactive : n.isActive = true)
    (hanswers : n.answers k = true) : n = m := by
  obtain ⟨hm, hmactive, hmanswers⟩ := findMock_eq_some hfound
  by_contra hne
  exact List.Pairwise.forall h hn hm hne ⟨hactive, hmactive, k, hanswers, hmanswers⟩

/-- **A mock that is let in answers the lookups of its key.** -/
theorem findMock_of_addMock? {s s' : Store} {m m' : Mock} (h : s.addMock? m = .ok (s', m'))
    (hactive : m'.isActive = true) {k : MockKey} (hk : m'.answers k = true) :
    s'.findMock k = some m' := by
  obtain ⟨hfree, -, hs⟩ := addMock?_eq_ok h
  -- any other mock that answers the lookup would be a rival
  have hnone : s.mocks.find? (fun n => n.isActive && n.answers k) = none := by
    rw [List.find?_eq_none]
    intro n hn hboth
    rw [Bool.and_eq_true] at hboth
    exact not_rivals_of_findMock hfree hn ⟨hboth.1, hactive, k, hboth.2, hk⟩
  unfold findMock
  rw [hs, List.find?_append, hnone, Option.none_or, List.find?_cons_of_pos]
  rw [hactive, hk]
  rfl

end MockServer.Store
