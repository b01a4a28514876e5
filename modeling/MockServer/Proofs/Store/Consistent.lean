/-
  MockServer.Proofs.Store.Consistent — records with keys of their own.

  Every table of a store has a key: the name of a feature, feature and
  name of a scenario, the slot of an activation, the lookup of an
  active mock, the name of a load test.  An operation lets a record in
  exactly when its key is free, so the keys of every reachable store
  are pairwise distinct.  Inactive mocks have no key; they stand among
  the active ones and are passed over.

  Main definitions:
    * `Store.Consistent` — the keys of every table are distinct;
    * `Store.Fits` — there is room for what an operation adds.

  Main results:
    * `perform?_isOk_iff` — an operation is refused iff it does not fit;
    * `consistent_step`, `consistent_run` — keys stay distinct;
    * `consistent_and_found` — no reachable store loses or shadows a
      mock that it let in.
-/
import Mathlib.Data.List.Nodup
import MockServer.Proofs.Store.Run

namespace MockServer

/-! ## Keys -/

/-- What a scenario is found by: its feature and its name. -/
def Scenario.fullName (x : Scenario) : String × String := (x.featureName, x.name)

/-- What an activation is found by: its feature and its account, or no account. -/
def Activation.slot (a : Activation) : String × Option String := (a.featureName, a.account)

theorem Activation.slot_eq_iff {a : Activation} {featureName : String} {account : Option String} :
    (a.featureName == featureName && a.account == account) = true ↔
      a.slot = (featureName, account) := by
  rw [Bool.and_eq_true, beq_iff_eq, beq_iff_eq, slot, Prod.mk.injEq]

namespace Store

/-- The lookups of the active mocks, methods without their case. -/
def activeKeys (s : Store) : List MockKey :=
  (s.mocks.filter Mock.isActive).map fun m => m.key.folded

/-- Has every record a key of its own? -/
structure Consistent (s : Store) : Prop where
  features : (s.features.map Feature.name).Nodup
  scenarios : (s.scenarios.map Scenario.fullName).Nodup
  activations : (s.activations.map Activation.slot).Nodup
  mocks : s.activeKeys.Nodup
  loadTests : (s.loadTests.map LoadTest.name).Nodup

/-- Is the key of what the operation adds still free?  A feature needs a name besides. -/
def Fits (s : Store) : Op → Prop
  | .addFeature f => Text.isBlankText f.name = false ∧ f.name ∉ s.features.map Feature.name
  | .addScenario x => x.fullName ∉ s.scenarios.map Scenario.fullName
  | .addActivation a => a.slot ∉ s.activations.map Activation.slot
  | .addMock m => m.isActive = true → (stored m).key.folded ∉ s.activeKeys
  | .addLoadTest x => x.name ∉ s.loadTests.map LoadTest.name
  | .removeOverrides _ | .removeActivation _ _ => True

/-! ## Free keys -/

section Table

variable {α κ : Type} {key : α → κ} {xs : List α}

/-- A key is free when no record has it. -/
theorem isSome_find?_iff {p : α → Bool} {k : κ} (hp : ∀ x, p x = true ↔ key x = k) :
    (xs.find? p).isSome = true ↔ k ∈ xs.map key := by
  rw [List.find?_isSome, List.mem_map]
  simp only [hp]

/-- A record is found by its key if no other one has it. -/
theorem find?_eq_some_of_nodup {p : α → Bool} {x : α} (hp : ∀ y, p y = true ↔ key y = key x)
    (h : (xs.map key).Nodup) (hx : x ∈ xs) : xs.find? p = some x := by
  obtain ⟨y, hy⟩ := Option.isSome_iff_exists.mp
    ((isSome_find?_iff hp).mpr (List.mem_map_of_mem hx))
  have hkey : key y = key x := (hp y).mp (List.find?_some hy)
  rw [hy, List.inj_on_of_nodup_map h (List.mem_of_find?_eq_some hy) hx hkey]

theorem nodup_map_append_singleton {x : α} (h : (xs.map key).Nodup) (hx : key x ∉ xs.map key) :
    ((xs ++ [x]).map key).Nodup := by
  rw [List.map_append, List.map_singleton, ← List.concat_eq_append]
  exact h.concat hx

/-- Only records with a property have a key. -/
theorem nodup_map_filter_append_singleton {p : α → Bool} {x : α} (h : ((xs.filter p).map key).Nodup)
    (hx : p x = true → key x ∉ (xs.filter p).map key) : (((xs ++ [x]).filter p).map key).Nodup := by
  rw [List.filter_append]
  by_cases hpx : p x = true
  · rw [List.filter_cons_of_pos hpx, List.filter_nil]
    exact nodup_map_append_singleton h (hx hpx)
  · rw [List.filter_cons_of_neg hpx, List.filter_nil, List.append_nil]
    exact h

end Table

variable {s : Store}

theorem findFeature_isSome_iff (s : Store) (name : String) :
    (s.findFeature name).isSome = true ↔ name ∈ s.features.map Feature.name :=
  isSome_find?_iff fun _ => beq_iff_eq

theorem findScenario_isSome_iff (s : Store) (x : Scenario) :
    (s.findScenario x.featureName x.name).isSome = true ↔
      x.fullName ∈ s.scenarios.map Scenario.fullName := by
  apply isSome_find?_iff
  intro y
  rw [Bool.and_eq_true, beq_iff_eq, beq_iff_eq, Scenario.fullName, Scenario.fullName,
    Prod.mk.injEq]

theorem findActivation_isSome_iff (s : Store) (featureName : String) (account : Option String) :
    (s.findActivation featureName account).isSome = true ↔
      (featureName, account) ∈ s.activations.map Activation.slot :=
  isSome_find?_iff fun _ => Activation.slot_eq_iff

theorem findLoadTest_isSome_iff (s : Store) (name : String) :
    (s.findLoadTest name).isSome = true ↔ name ∈ s.loadTests.map LoadTest.name :=
  isSome_find?_iff fun _ => beq_iff_eq

theorem findMock_isSome_iff (s : Store) (k : MockKey) :
    (s.findMock k).isSome = true ↔ k.folded ∈ s.activeKeys := by
  unfold findMock activeKeys
  rw [List.find?_isSome, List.mem_map]
  simp only [Bool.and_eq_true, Mock.answers_iff, List.mem_filter, and_assoc]

/-! ## Refusals -/

/-- **An operation is performed exactly when it fits**: every other one is refused. -/
theorem perform?_isOk_iff (s : Store) (op : Op) : (∃ s', s.perform? op = .ok s') ↔ s.Fits op := by
  cases op with
  | addFeature f =>
    simp only [perform?, addFeature?, Fits, ← findFeature_isSome_iff]
    by_cases hblank : Text.isBlankText f.name = true
    · simp [hblank]
    · by_cases hfound : (s.findFeature f.name).isSome = true <;> simp [hblank, hfound]
  | addScenario x =>
    simp only [perform?, addScenario?, Fits, ← findScenario_isSome_iff]
    by_cases hfound : (s.findScenario x.featureName x.name).isSome = true <;> simp [hfound]
  | addActivation a =>
    simp only [perform?, addActivation?, Fits, Activation.slot, ← findActivation_isSome_iff]
    by_cases hfound : (s.findActivation a.featureName a.account).isSome = true <;> simp [hfound]
  | removeOverrides featureName => simp [perform?, Fits]
  | removeActivation featureName account => simp [perform?, Fits]
  | addMock m =>
    simp only [perform?, addMock?, Fits, ← findMock_isSome_iff]
    by_cases hactive : m.isActive = true
    · by_cases hfound : (s.findMock (stored m).key).isSome = true <;>
        simp_all [stored, Except.map]
    · simp [hactive, Except.map]
  | addLoadTest x =>
    simp only [perform?, addLoadTest?, Fits, ← findLoadTest_isSome_iff]
    by_cases hfound : (s.findLoadTest x.name).isSome = true <;> simp [hfound]

/-- A refused operation leaves the store as it was. -/
theorem step_of_refused {op : Op} {e : StoreError} (h : s.perform? op = .error e) :
    s.step op = s := by
  unfold step
  rw [h]

/-- A mock that is let in stands behind the others, as it is stored. -/
theorem mocks_of_addMock {s' : Store} {m : Mock} (h : s.perform? (.addMock m) = .ok s') :
    s' = { s with mocks := s.mocks ++ [stored m] } := by
  simp only [perform?] at h
  cases hadd : s.addMock? m with
  | error e =>
    rw [hadd] at h
    exact absurd h (by simp [Except.map])
  | ok added =>
    rw [hadd] at h
    obtain ⟨-, hstored, hs⟩ := addMock?_eq_ok hadd
    rw [← Except.ok.inj h, ← hstored]
    exact hs

/-- An active mock brings in its key, an inactive one none. -/
theorem nodup_activeKeys_append {m : Mock} (h : s.activeKeys.Nodup)
    (hm : m.isActive = true → m.key.folded ∉ s.activeKeys) :
    (activeKeys { s with mocks := s.mocks ++ [m] }).Nodup :=
  nodup_map_filter_append_singleton h hm

/-! ## Runs -/

theorem consistent_empty : empty.Consistent :=
  ⟨List.nodup_nil, List.nodup_nil, List.nodup_nil, List.nodup_nil, List.nodup_nil⟩

/-- **Every operation keeps the keys distinct.** -/
theorem consistent_step (h : s.Consistent) (op : Op) : (s.step op).Consistent := by
  unfold step
  cases hop : s.perform? op with
  | error e => exact h
  | ok s' =>
    have hfits : s.Fits op := (perform?_isOk_iff s op).mp ⟨s', hop⟩
    cases op with
    | addFeature f =>
      rw [(addFeature?_eq_ok hop).2.2]
      exact { h with features := nodup_map_append_singleton h.features hfits.2 }
    | addScenario x =>
      rw [(addScenario?_eq_ok hop).2]
      exact { h with scenarios := nodup_map_append_singleton h.scenarios hfits }
    | addActivation a =>
      rw [(addActivation?_eq_ok hop).2]
      exact { h with activations := nodup_map_append_singleton h.activations hfits }
    | removeOverrides featureName =>
      rw [← Except.ok.inj hop]
      exact { h with activations := h.activations.sublist (List.filter_sublist.map _) }
    | removeActivation featureName account =>
      rw [← Except.ok.inj hop]
      exact { h with activations := h.activations.sublist (List.filter_sublist.map _) }
    | addMock m =>
      rw [mocks_of_addMock hop]
      exact { h with mocks := nodup_activeKeys_append h.mocks hfits }
    | addLoadTest x =>
      rw [(addLoadTest?_eq_ok hop).2]
      exact { h with loadTests := nodup_map_append_singleton h.loadTests hfits }

/-- **In every reachable store every record has a key of its own.** -/
theorem consistent_run (h : s.Consistent) (ops : List Op) : (s.run ops).Consistent := by
  induction ops generalizing s with
  | nil => exact h
  | cons op ops ih => exact ih (consistent_step h op)

/-- **No key is held twice, and no mock is lost or shadowed.**  In every store that is reached by
operations from the empty one: names of features, full names of scenarios, slots of activations and
names of load tests are pairwise distinct, and so are the lookups of the active mocks up to the
case of their methods.  An operation is refused only if what it adds does not fit, and then it
leaves the store as it was.  An active mock that is let in is found under its key, with its method
in any case of ASCII letters, whatever operations follow. -/
theorem consistent_and_found (ops : List Op) :
    (empty.run ops).Consistent ∧
    (∀ op e, (empty.run ops).perform? op = .error e →
      ¬ (empty.run ops).Fits op ∧ (empty.run ops).step op = empty.run ops) ∧
    ∀ m s' m', (empty.run ops).addMock? m = .ok (s', m') → m'.isActive = true →
      ∀ later method, Text.sameFold m'.method method = true →
        (empty.run (ops ++ .addMock m :: later)).findMock { m'.key with method } = some m' := by
  refine ⟨consistent_run consistent_empty ops, fun op e herror => ?_, ?_⟩
  · refine ⟨fun hfits => ?_, step_of_refused herror⟩
    obtain ⟨s', hok⟩ := (perform?_isOk_iff _ op).mpr hfits
    rw [herror] at hok
    exact absurd hok (by simp)
  · intro m s' m' hadd hactive later method hmethod
    have hanswers : m'.answers { m'.key with method } = true := by
      rw [Mock.answers_iff, MockKey.folded, MockKey.folded, ← Text.sameFold_iff.mp hmethod]
      rfl
    rw [run_append, run_cons, step_addMock hadd]
    exact findMock_run (findMock_of_addMock? hadd hactive hanswers) later

/-- A mock without a body. -/
def ping : Mock := .new default "health" "up" "/ping" "get" .null (.obj [])

/-- It is let in behind an inactive copy of itself, found although it is added once more, and that
is refused. -/
theorem ping_found :
    (empty.run [.addMock { ping with isActive := false }, .addMock ping, .addMock ping]).findMock
      ⟨"health", "up", "/ping", "Get", ""⟩ = some ping ∧
    (empty.run [.addMock ping]).step (.addMock ping) = empty.run [.addMock ping] :=
  ⟨(consistent_and_found [.addMock { ping with isActive := false }]).2.2 ping _ ping rfl rfl
      [.addMock ping] "Get" (by decide),
    ((consistent_and_found [.addMock ping]).2.1 (.addMock ping)
      (.duplicate (.mock "GET" "/ping" "health" "up")) rfl).2⟩

end Store

end MockServer
