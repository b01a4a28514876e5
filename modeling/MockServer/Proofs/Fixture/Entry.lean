/-
  MockServer.Proofs.Fixture.Entry — what becomes of one entry.

  An entry of a fixture becomes a record with a stamp of its own, or is
  refused for what is in the store.  For every kind of entry one
  equation says which of the two it is, and what is in the store then.
  Of the features that are mentioned the first one of a name counts, of
  the activations the last one of a slot.

  Main definitions:
    * `record` — the record of an entry, with a stamp;
    * `anonymous` — a record without its stamp;
    * `firsts` — the first entry of every name;
    * `lastFor` — the last activation of a slot.
-/
import Mathlib.Data.Finset.Card
import MockServer.Fixture.Seed
import MockServer.Proofs.Store.Slot
import MockServer.Proofs.Url.Lookup

namespace MockServer

/-! ## Records without their stamps -/

def Feature.anonymous (f : Feature) : Feature :=
  { f with id := default, createdAt := default, updatedAt := default }

def Scenario.anonymous (x : Scenario) : Scenario :=
  { x with id := default, createdAt := default, updatedAt := default }

def Mock.anonymous (m : Mock) : Mock :=
  { m with id := default, createdAt := default, updatedAt := default }

def LoadTest.anonymous (x : LoadTest) : LoadTest :=
  { x with id := default, createdAt := default, updatedAt := default }

namespace Fixture

/-! ## Entries as records -/

def FeatureEntry.record (stamp : Stamp) (x : FeatureEntry) : Feature where
  id := stamp.id
  name := x.name
  description := x.description
  isActive := true
  createdAt := stamp.now
  updatedAt := stamp.now

def ScenarioEntry.record (stamp : Stamp) (x : ScenarioEntry) : Scenario where
  id := stamp.id
  featureName := x.feature
  name := x.name
  description := x.description
  isActive := true
  createdAt := stamp.now
  updatedAt := stamp.now

/-- The mock of an entry: its path is canonical, its method in upper case, and its body has a
fingerprint. -/
def MockEntry.record (stamp : Stamp) (x : MockEntry) : Mock where
  id := stamp.id
  featureName := x.feature
  scenarioName := x.scenario
  name := x.name
  description := ""
  path := Url.Lookup.canonical x.path
  method := Text.upper x.method
  input := x.input
  hash := Fingerprint.ofValue x.input
  headers := x.headers
  output := x.output
  isActive := x.isActive
  createdAt := stamp.now
  updatedAt := stamp.now

def LoadTestEntry.record (stamp : Stamp) (x : LoadTestEntry) : LoadTest where
  id := stamp.id
  name := x.name
  description := x.description
  concurrency := x.concurrency
  accounts := x.accounts
  steps := x.steps
  isActive := x.isActive
  createdAt := stamp.now
  updatedAt := stamp.now

/-! ## Names and keys -/

def ScenarioEntry.fullName (x : ScenarioEntry) : String × String := (x.feature, x.name)

/-- The scenario that a mock belongs to. -/
def MockEntry.fullName (x : MockEntry) : String × String := (x.feature, x.scenario)

/-- What a mock is looked up by. -/
def MockEntry.key (x : MockEntry) : MockKey :=
  ⟨x.feature, x.scenario, Url.Lookup.canonical x.path, Text.upper x.method,
    Fingerprint.ofValue x.input⟩

/-- The scenario that is made active. -/
def ActivationEntry.fullName (x : ActivationEntry) : String × String := (x.feature, x.scenario)

def ActivationEntry.slot (x : ActivationEntry) : String × Option String := (x.feature, x.account)

/-- The last activation that is listed for a slot. -/
def lastFor (xs : List ActivationEntry) (slot : String × Option String) : Option ActivationEntry :=
  xs.reverse.find? fun x => x.slot == slot

theorem lastFor_concat (xs : List ActivationEntry) (x : ActivationEntry)
    (slot : String × Option String) :
    lastFor (xs ++ [x]) slot = if x.slot = slot then some x else lastFor xs slot := by
  unfold lastFor
  rw [List.reverse_append, List.reverse_singleton, List.singleton_append, List.find?_cons]
  by_cases hslot : x.slot = slot
  · rw [beq_iff_eq.mpr hslot, if_pos hslot]
  · rw [beq_false_of_ne hslot, if_neg hslot]

theorem mem_of_lastFor {xs : List ActivationEntry} {x : ActivationEntry}
    {slot : String × Option String} (h : lastFor xs slot = some x) : x ∈ xs :=
  List.mem_reverse.mp (List.mem_of_find?_eq_some h)

/-- The features of a fixture as it mentions them: those that are listed, and those of the
scenarios without a description. -/
def mentions (x : Fixture) : List FeatureEntry :=
  x.features ++ x.scenarios.map fun s => ⟨s.feature, ""⟩

/-! ## First mentions -/

/-- The first entry of every name. -/
def firsts (xs : List FeatureEntry) : List FeatureEntry :=
  xs.foldl (fun seen x => if x.name ∈ seen.map FeatureEntry.name then seen else seen ++ [x]) []

theorem firsts_concat (xs : List FeatureEntry) (x : FeatureEntry) :
    firsts (xs ++ [x]) =
      if x.name ∈ (firsts xs).map FeatureEntry.name then firsts xs else firsts xs ++ [x] := by
  unfold firsts
  rw [List.foldl_append]
  rfl

theorem mem_names_firsts {xs : List FeatureEntry} {name : String} :
    name ∈ (firsts xs).map FeatureEntry.name ↔ name ∈ xs.map FeatureEntry.name := by
  induction xs using List.reverseRecOn with
  | nil => exact Iff.rfl
  | append_singleton xs x ih =>
    rw [firsts_concat, List.map_append, List.mem_append, ← ih]
    split
    next hseen =>
      constructor
      · exact Or.inl
      · rintro (hname | hname)
        · exact hname
        · rw [List.mem_singleton.mp hname]
          exact hseen
    next => rw [List.map_append, List.mem_append]

theorem nodup_names_firsts (xs : List FeatureEntry) :
    ((firsts xs).map FeatureEntry.name).Nodup := by
  induction xs using List.reverseRecOn with
  | nil => exact List.nodup_nil
  | append_singleton xs x ih =>
    rw [firsts_concat]
    split
    next => exact ih
    next hnew => exact Store.nodup_map_append_singleton ih hnew

theorem find?_firsts (xs : List FeatureEntry) (name : String) :
    (firsts xs).find? (fun x => x.name == name) = xs.find? (fun x => x.name == name) := by
  induction xs using List.reverseRecOn with
  | nil => rfl
  | append_singleton xs x ih =>
    rw [firsts_concat, List.find?_append, ← ih]
    split
    next hseen =>
      by_cases hname : x.name = name
      · obtain ⟨y, hy⟩ := Option.isSome_iff_exists.mp
          ((Store.isSome_find?_iff fun _ => beq_iff_eq).mpr (hname ▸ hseen))
        rw [hy, Option.some_or]
      · rw [List.find?_singleton, if_neg (by rwa [beq_iff_eq]), Option.or_none]
    next => rw [List.find?_append]

/-- There are as many first entries as names. -/
theorem length_firsts (xs : List FeatureEntry) :
    (firsts xs).length = (xs.map FeatureEntry.name).toFinset.card := by
  have hset : (xs.map FeatureEntry.name).toFinset
      = ((firsts xs).map FeatureEntry.name).toFinset := by
    ext name
    rw [List.mem_toFinset, List.mem_toFinset, mem_names_firsts]
  rw [hset, List.toFinset_card_of_nodup (nodup_names_firsts xs), List.length_map]

/-! ## Single records -/

namespace Progress

variable {p : Progress}

theorem addFeature_of_found {name : String} (h : (p.store.findFeature name).isSome = true)
    (description : String) : p.addFeature name description = .ok p := if_pos h

theorem addFeature_of_free {name : String} (h : p.store.findFeature name = none)
    (description : String) :
    p.addFeature name description =
      if Text.isBlankText name = true then .error (.invalid "feature name cannot be empty")
      else .ok ⟨{ p.store with features :=
          p.store.features ++ [FeatureEntry.record p.supply.stamp ⟨name, description⟩] },
        p.supply.advance, { p.summary with features := p.summary.features + 1 }⟩ := by
  have hadd : p.store.addFeature? { Feature.new p.supply.stamp name with description }
      = if Text.isBlankText name = true then .error (.invalid "feature name cannot be empty")
        else if (p.store.findFeature name).isSome = true then
          .error (.duplicate (.feature name))
        else .ok { p.store with features :=
          p.store.features ++ [FeatureEntry.record p.supply.stamp ⟨name, description⟩] } := rfl
  unfold addFeature
  rw [hadd, h]
  by_cases hblank : Text.isBlankText name = true
  · rw [if_pos hblank, if_pos hblank]
    rfl
  · rw [if_neg hblank, if_neg hblank]
    rfl

theorem addScenario_eq (p : Progress) (x : ScenarioEntry) :
    p.addScenario x =
      if (p.store.findScenario x.feature x.name).isSome = true then
        .error (.duplicate (.scenario x.feature x.name))
      else .ok ⟨{ p.store with scenarios := p.store.scenarios ++ [x.record p.supply.stamp] },
        p.supply.advance, { p.summary with scenarios := p.summary.scenarios + 1 }⟩ := by
  have hadd : p.store.addScenario? (x.record p.supply.stamp)
      = if (p.store.findScenario x.feature x.name).isSome = true then
          .error (.duplicate (.scenario x.feature x.name))
        else .ok { p.store with scenarios := p.store.scenarios ++ [x.record p.supply.stamp] } := rfl
  show p.store.addScenario? (x.record p.supply.stamp) >>= _ = _
  rw [hadd]
  split <;> rfl

theorem addMock_of_undeclared {x : MockEntry}
    (h : p.store.findScenario x.feature x.scenario = none) :
    p.addMock x = .error (.undeclared x.feature x.scenario) := by
  unfold addMock declared
  rw [h]
  rfl

theorem addMock_of_declared {x : MockEntry}
    (h : (p.store.findScenario x.feature x.scenario).isSome = true) :
    p.addMock x =
      if (x.isActive && (p.store.findMock x.key).isSome) = true then
        .error (.duplicate (.mock x.key.method x.key.path x.feature x.scenario))
      else .ok ⟨{ p.store with mocks := p.store.mocks ++ [x.record p.supply.stamp] },
        p.supply.advance, { p.summary with mocks := p.summary.mocks + 1 }⟩ := by
  obtain ⟨scenario, hfound⟩ := Option.isSome_iff_exists.mp h
  have hstored : Store.stored (x.record p.supply.stamp) = x.record p.supply.stamp := by
    unfold Store.stored MockEntry.record
    rw [Url.Lookup.canonical_canonical]
  have hadd : p.store.addMock? (x.record p.supply.stamp)
      = if (x.isActive && (p.store.findMock (Store.stored (x.record p.supply.stamp)).key).isSome)
          = true then
          .error (.duplicate (.mock x.key.method
            (Store.stored (x.record p.supply.stamp)).path x.feature x.scenario))
        else .ok
          ({ p.store with mocks := p.store.mocks ++ [Store.stored (x.record p.supply.stamp)] },
            Store.stored (x.record p.supply.stamp)) := rfl
  have hkey : (x.record p.supply.stamp).key = x.key := rfl
  rw [hstored, hkey] at hadd
  unfold addMock declared
  rw [hfound]
  show p.store.addMock? (x.record p.supply.stamp) >>= _ = _
  rw [hadd]
  split <;> rfl

theorem addActivation_of_undeclared {x : ActivationEntry}
    (h : p.store.findScenario x.feature x.scenario = none) :
    p.addActivation x = .error (.undeclared x.feature x.scenario) := by
  unfold addActivation declared
  rw [h]
  rfl

/-- An activation is never refused for its slot: the one that was there makes way. -/
theorem addActivation_of_declared {x : ActivationEntry} {scenario : Scenario}
    (h : p.store.findScenario x.feature x.scenario = some scenario) :
    p.addActivation x = .ok
      ⟨{ p.store with activations :=
          (p.store.removeActivation x.feature x.account).1.activations ++
            [Activation.new p.supply.stamp x.feature scenario.id x.account] },
        p.supply.advance, { p.summary with activations := p.summary.activations + 1 }⟩ := by
  have hfree : (p.store.removeActivation x.feature x.account).1.findActivation x.feature x.account
      = none := by
    rw [Store.findActivation_removeActivation, if_pos rfl]
  have hadd := Store.addActivation?_of_free
    (a := Activation.new p.supply.stamp x.feature scenario.id x.account) hfree
  unfold addActivation declared
  rw [h]
  show (p.store.removeActivation x.feature x.account).1.addActivation?
    (Activation.new p.supply.stamp x.feature scenario.id x.account) >>= _ = _
  rw [hadd]
  rfl

theorem addLoadTest_eq (p : Progress) (x : LoadTestEntry) :
    p.addLoadTest x =
      if (p.store.findLoadTest x.name).isSome = true then .error (.duplicate (.loadTest x.name))
      else .ok ⟨{ p.store with loadTests := p.store.loadTests ++ [x.record p.supply.stamp] },
        p.supply.advance, { p.summary with loadTests := p.summary.loadTests + 1 }⟩ := by
  have hadd : p.store.addLoadTest? (x.record p.supply.stamp)
      = if (p.store.findLoadTest x.name).isSome = true then
          .error (.duplicate (.loadTest x.name))
        else .ok { p.store with loadTests := p.store.loadTests ++ [x.record p.supply.stamp] } := rfl
  show p.store.addLoadTest? (x.record p.supply.stamp) >>= _ = _
  rw [hadd]
  split <;> rfl

end Progress

end Fixture

end MockServer
