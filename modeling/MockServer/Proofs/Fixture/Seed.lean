/-
  MockServer.Proofs.Fixture.Seed — what a store holds after a fixture.

  Records go in one after the other, and each is refused or not by what
  is in the store.  All that is in the store came from the fixture, so
  the store shows the part of it that went in before: a record goes in
  if it fits that part, and the store then shows it too.  A whole
  fixture goes in if it is sound, and can be read off the store.

  Main definitions:
    * `Shows` — a store that holds what a fixture lists, and no more;
    * `Seeded` — what is in the store at the end.

  Main results:
    * `Shows.add_of_fits`, `Shows.add_of_not_fits` — one record;
    * `Shows.addAll` — one record after the other;
    * `seed_exact` — whole fixtures.
-/
import MockServer.Proofs.Fixture.Sound
import MockServer.Proofs.Uuid

namespace MockServer

namespace Fixture

/-! ## What a store shows -/

/-- Do the scenarios have the identifiers of different numbers, all of them drawn from `start` on? -/
def Drawn (start : Nat) (p : Progress) : Prop :=
  ∃ ns : List Nat, p.store.scenarios.map Scenario.id = ns.map Uuid.ofRandom ∧ ns.Nodup ∧
    ∀ n ∈ ns, start ≤ n ∧ n < p.supply.next

/-- The store holds what the fixture lists, and no more: every feature as it is mentioned first,
and the last activation of every slot. -/
structure Shows (start : Nat) (d : Fixture) (p : Progress) : Prop where
  named : ∀ f ∈ d.features, Text.isBlankText f.name = false
  declared : ∀ a ∈ d.activations, a.fullName ∈ d.scenarios.map ScenarioEntry.fullName
  features : p.store.features.map Feature.anonymous
    = (firsts d.features).map (FeatureEntry.record default)
  scenarios : p.store.scenarios.map Scenario.anonymous
    = d.scenarios.map (ScenarioEntry.record default)
  mocks : p.store.mocks.map Mock.anonymous = d.mocks.map (MockEntry.record default)
  loadTests : p.store.loadTests.map LoadTest.anonymous
    = d.loadTests.map (LoadTestEntry.record default)
  active : ∀ featureName account,
    (p.store.findActivation featureName account).map Activation.scenarioId
      = (lastFor d.activations (featureName, account)).bind fun a =>
          (p.store.findScenario a.feature a.scenario).map Scenario.id
  summary : p.summary = ⟨(firsts d.features).length, d.scenarios.length, d.mocks.length,
    d.activations.length, d.loadTests.length⟩
  drawn : Drawn start p
  next : start ≤ p.supply.next ∧ p.supply.next ≤ start + d.size

/-- Two lists that agree, each with one more. -/
theorem map_concat_eq {α β γ : Type} {f : α → γ} {g : β → γ} {xs : List α} {ys : List β} {x : α}
    {y : β} (h : xs.map f = ys.map g) (hxy : f x = g y) :
    (xs ++ [x]).map f = (ys ++ [y]).map g := by
  rw [List.map_append, List.map_append, h, List.map_singleton, List.map_singleton, hxy]

namespace Shows

variable {start : Nat} {d : Fixture} {p : Progress}

theorem names_features (h : Shows start d p) :
    p.store.features.map Feature.name = (firsts d.features).map FeatureEntry.name := by
  have hmap := congrArg (List.map Feature.name) h.features
  rw [List.map_map, List.map_map] at hmap
  exact hmap

theorem fullNames_scenarios (h : Shows start d p) :
    p.store.scenarios.map Scenario.fullName = d.scenarios.map ScenarioEntry.fullName := by
  have hmap := congrArg (List.map Scenario.fullName) h.scenarios
  rw [List.map_map, List.map_map] at hmap
  exact hmap

theorem names_loadTests (h : Shows start d p) :
    p.store.loadTests.map LoadTest.name = d.loadTests.map LoadTestEntry.name := by
  have hmap := congrArg (List.map LoadTest.name) h.loadTests
  rw [List.map_map, List.map_map] at hmap
  exact hmap

theorem activeKeys_mocks (h : Shows start d p) :
    p.store.activeKeys
      = ((d.mocks.filter MockEntry.isActive).map MockEntry.key).map MockKey.folded := by
  have hmap := congrArg (fun ms => (ms.filter Mock.isActive).map fun m => m.key.folded) h.mocks
  simp only [List.filter_map, List.map_map] at hmap
  rw [List.map_map]
  exact hmap

theorem findFeature_isSome_iff (h : Shows start d p) (name : String) :
    (p.store.findFeature name).isSome = true ↔ name ∈ d.features.map FeatureEntry.name := by
  rw [Store.findFeature_isSome_iff, h.names_features, mem_names_firsts]

theorem findScenario_isSome_iff (h : Shows start d p) (feature name : String) :
    (p.store.findScenario feature name).isSome = true ↔
      (feature, name) ∈ d.scenarios.map ScenarioEntry.fullName := by
  rw [← h.fullNames_scenarios]
  exact Store.findScenario_isSome_iff p.store (Scenario.new default feature name)

theorem findLoadTest_isSome_iff (h : Shows start d p) (name : String) :
    (p.store.findLoadTest name).isSome = true ↔ name ∈ d.loadTests.map LoadTestEntry.name := by
  rw [Store.findLoadTest_isSome_iff, h.names_loadTests]

/-- Methods are in upper case, so that no two keys differ by the case of their methods only. -/
theorem findMock_isSome_iff (h : Shows start d p) (x : MockEntry) :
    (p.store.findMock x.key).isSome = true ↔
      x.key ∈ (d.mocks.filter MockEntry.isActive).map MockEntry.key := by
  have hfolded : ∀ y : MockEntry, y.key.folded = x.key.folded ↔ y.key = x.key := by
    intro y
    simp only [MockEntry.key, MockKey.folded, MockKey.mk.injEq, Text.upper_eq_iff]
  rw [Store.findMock_isSome_iff, h.activeKeys_mocks]
  simp only [List.mem_map, exists_exists_and_eq_and, hfolded]

/-! ## One record more -/

/-- An identifier may be drawn for something else than a scenario. -/
theorem drawn_advance (h : Shows start d p) {p' : Progress}
    (hscenarios : p'.store.scenarios = p.store.scenarios) (hsupply : p'.supply = p.supply.advance) :
    Drawn start p' := by
  obtain ⟨ns, hids, hnodup, hbounds⟩ := h.drawn
  refine ⟨ns, by rw [hscenarios, hids], hnodup, ?_⟩
  intro n hn
  rw [hsupply]
  exact ⟨(hbounds n hn).1, Nat.lt_succ_of_lt (hbounds n hn).2⟩

/-- A scenario takes the identifier of the next number. -/
theorem drawn_scenario (h : Shows start d p) {p' : Progress} {x : Scenario}
    (hx : x.id = Uuid.ofRandom p.supply.next)
    (hscenarios : p'.store.scenarios = p.store.scenarios ++ [x])
    (hsupply : p'.supply = p.supply.advance) : Drawn start p' := by
  obtain ⟨ns, hids, hnodup, hbounds⟩ := h.drawn
  have hnew : p.supply.next ∉ ns := fun hmem => absurd (hbounds _ hmem).2 (lt_irrefl _)
  refine ⟨ns ++ [p.supply.next], ?_, ?_, ?_⟩
  · rw [hscenarios]
    exact map_concat_eq hids hx
  · rw [← List.concat_eq_append]
    exact hnodup.concat hnew
  · rw [hsupply, List.forall_mem_append, List.forall_mem_singleton]
    refine ⟨fun n hn => ?_, h.next.1, Nat.lt_succ_self _⟩
    exact ⟨(hbounds n hn).1, Nat.lt_succ_of_lt (hbounds n hn).2⟩

theorem next_advance (h : Shows start d p) (e : Entry) :
    start ≤ p.supply.advance.next ∧ p.supply.advance.next ≤ start + (d.push e).size := by
  rw [size_push]
  exact ⟨Nat.le_succ_of_le h.next.1, Nat.succ_le_succ h.next.2⟩

theorem addFeature (h : Shows start d p) {x : FeatureEntry}
    (hx : Text.isBlankText x.name = false) :
    ∃ p', p.addFeature x.name x.description = .ok p' ∧ Shows start (d.push (.feature x)) p' := by
  have hnamed : ∀ f ∈ d.features ++ [x], Text.isBlankText f.name = false := by
    intro f hf
    rcases List.mem_append.mp hf with hf | hf
    · exact h.named f hf
    · rw [List.mem_singleton.mp hf]
      exact hx
  by_cases hseen : x.name ∈ (firsts d.features).map FeatureEntry.name
  · have hfound := (h.findFeature_isSome_iff x.name).mpr (mem_names_firsts.mp hseen)
    have hfirsts : firsts (d.push (.feature x)).features = firsts d.features := by
      rw [push, firsts_concat, if_pos hseen]
    refine ⟨p, Progress.addFeature_of_found hfound _, { h with
      named := hnamed
      features := by rw [hfirsts, h.features]
      summary := by rw [hfirsts, h.summary]; rfl
      next := ⟨h.next.1, Nat.le_of_succ_le (h.next_advance (.feature x)).2⟩ }⟩
  · have hfree : p.store.findFeature x.name = none := by
      rw [← Option.not_isSome_iff_eq_none, h.findFeature_isSome_iff, ← mem_names_firsts]
      exact hseen
    have hfirsts : firsts (d.push (.feature x)).features = firsts d.features ++ [x] := by
      rw [push, firsts_concat, if_neg hseen]
    refine ⟨_, (Progress.addFeature_of_free hfree _).trans (if_neg (by rw [hx]; decide)),
      { h with
        named := hnamed
        features := ?_
        summary := ?_
        drawn := h.drawn_advance rfl rfl
        next := h.next_advance (.feature x) }⟩
    · rw [hfirsts]
      exact map_concat_eq h.features rfl
    · rw [hfirsts, List.length_append, h.summary]
      rfl

theorem addScenario (h : Shows start d p) {x : ScenarioEntry}
    (hx : x.fullName ∉ d.scenarios.map ScenarioEntry.fullName) :
    ∃ p', p.addScenario x = .ok p' ∧ Shows start (d.push (.scenario x)) p' := by
  have hfree : ¬ (p.store.findScenario x.feature x.name).isSome = true := by
    rw [h.findScenario_isSome_iff]
    exact hx
  refine ⟨_, (Progress.addScenario_eq p x).trans (if_neg hfree), { h with
    declared := ?_
    scenarios := map_concat_eq h.scenarios rfl
    active := ?_
    summary := ?_
    drawn := h.drawn_scenario rfl rfl rfl
    next := h.next_advance (.scenario x) }⟩
  · intro a ha
    show a.fullName ∈ (d.scenarios ++ [x]).map ScenarioEntry.fullName
    rw [List.map_append, List.mem_append]
    exact Or.inl (h.declared a ha)
  · -- what was found before is found in front of the new scenario
    intro featureName account
    refine (h.active featureName account).trans (Option.bind_congr fun a ha => ?_)
    have hfound := (h.findScenario_isSome_iff a.feature a.scenario).mpr
      (h.declared a (mem_of_lastFor ha))
    have hsame : (p.store.scenarios ++ [x.record p.supply.stamp]).find?
        (fun y => y.featureName == a.feature && y.name == a.scenario)
        = p.store.findScenario a.feature a.scenario :=
      List.find?_append.trans (Option.or_of_isSome hfound)
    exact congrArg (Option.map Scenario.id) hsame.symm
  · show { p.summary with scenarios := p.summary.scenarios + 1 }
      = Summary.mk _ (d.scenarios ++ [x]).length _ _ _
    rw [h.summary, List.length_append]
    rfl

theorem addMock (h : Shows start d p) {x : MockEntry}
    (hdeclared : x.fullName ∈ d.scenarios.map ScenarioEntry.fullName)
    (hfree : x.isActive = true → x.key ∉ (d.mocks.filter MockEntry.isActive).map MockEntry.key) :
    ∃ p', p.addMock x = .ok p' ∧ Shows start (d.push (.mock x)) p' := by
  have hfound := (h.findScenario_isSome_iff x.feature x.scenario).mpr hdeclared
  have hnone : ¬ (x.isActive && (p.store.findMock x.key).isSome) = true := by
    rw [Bool.and_eq_true, h.findMock_isSome_iff]
    rintro ⟨hactive, htaken⟩
    exact hfree hactive htaken
  refine ⟨_, (Progress.addMock_of_declared hfound).trans (if_neg hnone), { h with
    mocks := map_concat_eq h.mocks rfl
    summary := ?_
    drawn := h.drawn_advance rfl rfl
    next := h.next_advance (.mock x) }⟩
  · show { p.summary with mocks := p.summary.mocks + 1 }
      = Summary.mk _ _ (d.mocks ++ [x]).length _ _
    rw [h.summary, List.length_append]
    rfl

theorem addActivation (h : Shows start d p) {x : ActivationEntry}
    (hdeclared : x.fullName ∈ d.scenarios.map ScenarioEntry.fullName) :
    ∃ p', p.addActivation x = .ok p' ∧ Shows start (d.push (.activation x)) p' := by
  obtain ⟨scenario, hfound⟩ := Option.isSome_iff_exists.mp
    ((h.findScenario_isSome_iff x.feature x.scenario).mpr hdeclared)
  refine ⟨_, Progress.addActivation_of_declared hfound, { h with
    declared := ?_
    active := ?_
    summary := ?_
    drawn := h.drawn_advance rfl rfl
    next := h.next_advance (.activation x) }⟩
  · intro a ha
    rcases List.mem_append.mp ha with ha | ha
    · exact h.declared a ha
    · rw [List.mem_singleton.mp ha]
      exact hdeclared
  · intro featureName account
    have hreplaced := Store.findActivation_replace p.store
      (Activation.new p.supply.stamp x.feature scenario.id x.account) featureName account
    refine (congrArg (Option.map Activation.scenarioId) hreplaced).trans ?_
    show Option.map _ (if (featureName, account) = x.slot then _ else _)
      = (lastFor (d.activations ++ [x]) _).bind fun a =>
          (p.store.findScenario a.feature a.scenario).map Scenario.id
    rw [lastFor_concat]
    by_cases hslot : x.slot = (featureName, account)
    · rw [if_pos hslot, if_pos hslot.symm, Option.bind_some, hfound]
      rfl
    · have hother : (featureName, account) ≠ x.slot := fun h => hslot h.symm
      rw [if_neg hslot, if_neg hother]
      exact h.active featureName account
  · show { p.summary with activations := p.summary.activations + 1 }
      = Summary.mk _ _ _ (d.activations ++ [x]).length _
    rw [h.summary, List.length_append]
    rfl

theorem addLoadTest (h : Shows start d p) {x : LoadTestEntry}
    (hx : x.name ∉ d.loadTests.map LoadTestEntry.name) :
    ∃ p', p.addLoadTest x = .ok p' ∧ Shows start (d.push (.loadTest x)) p' := by
  have hfree : ¬ (p.store.findLoadTest x.name).isSome = true := by
    rw [h.findLoadTest_isSome_iff]
    exact hx
  refine ⟨_, (Progress.addLoadTest_eq p x).trans (if_neg hfree), { h with
    loadTests := map_concat_eq h.loadTests rfl
    summary := ?_
    drawn := h.drawn_advance rfl rfl
    next := h.next_advance (.loadTest x) }⟩
  · show { p.summary with loadTests := p.summary.loadTests + 1 }
      = Summary.mk _ _ _ _ (d.loadTests ++ [x]).length
    rw [h.summary, List.length_append]
    rfl

/-- **A record that fits goes in.** -/
theorem add_of_fits (h : Shows start d p) {e : Entry} (he : Fits d e) :
    ∃ p', p.add e = .ok p' ∧ Shows start (d.push e) p' := by
  cases e with
  | feature x => exact h.addFeature he
  | scenario x => exact h.addScenario he
  | mock x => exact h.addMock he.1 he.2
  | activation x => exact h.addActivation he
  | loadTest x => exact h.addLoadTest he

/-- **A record that does not fit is refused.** -/
theorem add_of_not_fits (h : Shows start d p) {e : Entry} (he : ¬ Fits d e) :
    ∃ error, p.add e = .error error := by
  cases e with
  | feature x =>
    have hblank : Text.isBlankText x.name = true := eq_true_of_ne_false he
    have hfree : p.store.findFeature x.name = none := by
      rw [← Option.not_isSome_iff_eq_none, h.findFeature_isSome_iff, List.mem_map]
      rintro ⟨f, hf, hname⟩
      rw [← hname, h.named f hf] at hblank
      cases hblank
    exact ⟨_, (Progress.addFeature_of_free hfree _).trans (if_pos hblank)⟩
  | scenario x =>
    have hfound := (h.findScenario_isSome_iff x.feature x.name).mpr (not_not.mp he)
    exact ⟨_, (Progress.addScenario_eq p x).trans (if_pos hfound)⟩
  | mock x =>
    by_cases hdeclared : (p.store.findScenario x.feature x.scenario).isSome = true
    · have htaken : (x.isActive && (p.store.findMock x.key).isSome) = true := by
        rw [Bool.and_eq_true, h.findMock_isSome_iff]
        by_contra hfree
        exact he ⟨(h.findScenario_isSome_iff _ _).mp hdeclared, not_and.mp hfree⟩
      exact ⟨_, (Progress.addMock_of_declared hdeclared).trans (if_pos htaken)⟩
    · exact ⟨_, Progress.addMock_of_undeclared (Option.not_isSome_iff_eq_none.mp hdeclared)⟩
  | activation x =>
    have hnone : p.store.findScenario x.feature x.scenario = none := by
      rw [← Option.not_isSome_iff_eq_none, h.findScenario_isSome_iff]
      exact he
    exact ⟨_, Progress.addActivation_of_undeclared hnone⟩
  | loadTest x =>
    have hfound := (h.findLoadTest_isSome_iff x.name).mpr (not_not.mp he)
    exact ⟨_, (Progress.addLoadTest_eq p x).trans (if_pos hfound)⟩

end Shows

/-! ## Many records -/

/-- **Records go in if all of them fit**, and then all that they list can be seen. -/
theorem Shows.addAll {start : Nat} {d : Fixture} {p : Progress} (h : Shows start d p)
    (es : List Entry) :
    ((p.addAll es).2 = none ↔ AllFit d es) ∧
      (AllFit d es → Shows start (es.foldl push d) (p.addAll es).1) := by
  induction es generalizing d p with
  | nil => exact ⟨iff_of_true rfl trivial, fun _ => h⟩
  | cons e es ih =>
    by_cases he : Fits d e
    · obtain ⟨p', hadd, hp'⟩ := h.add_of_fits he
      have hrun : p.addAll (e :: es) = p'.addAll es := by
        rw [Progress.addAll, hadd]
      rw [hrun]
      obtain ⟨hiff, hshows⟩ := ih hp'
      exact ⟨hiff.trans (and_iff_right he).symm, fun hall => hshows hall.2⟩
    · obtain ⟨error, hadd⟩ := h.add_of_not_fits he
      have hrun : p.addAll (e :: es) = (p, some error) := by
        rw [Progress.addAll, hadd]
      rw [hrun]
      exact ⟨iff_of_false (by simp) fun hall => he hall.1, fun hall => absurd hall.1 he⟩

theorem shows_empty (supply : Supply) :
    Shows supply.next empty ⟨.empty, supply, .zero⟩ where
  named := by intro f hf; cases hf
  declared := by intro a ha; cases ha
  features := rfl
  scenarios := rfl
  mocks := rfl
  loadTests := rfl
  active := fun _ _ => rfl
  summary := rfl
  drawn := ⟨[], rfl, List.nodup_nil, by intro n hn; cases hn⟩
  next := ⟨le_refl _, le_refl _⟩

/-! ## Whole fixtures -/

/-- What is in the store after a fixture, and how it was counted. -/
structure Seeded (x : Fixture) (p : Progress) : Prop where
  summary : p.summary =
    ⟨(x.features.map FeatureEntry.name ++ x.scenarios.map ScenarioEntry.feature).toFinset.card,
      x.scenarios.length, x.mocks.length, x.activations.length, x.loadTests.length⟩
  /-- One feature for each name, in the order in which they are mentioned first. -/
  features : p.store.features.map Feature.anonymous
    = (firsts x.mentions).map (FeatureEntry.record default)
  /-- A feature that only scenarios mention has no description. -/
  descriptions : ∀ f ∈ p.store.features, f.description
    = ((x.features.find? fun e => e.name == f.name).map FeatureEntry.description).getD ""
  scenarios : p.store.scenarios.map Scenario.anonymous
    = x.scenarios.map (ScenarioEntry.record default)
  mocks : p.store.mocks.map Mock.anonymous = x.mocks.map (MockEntry.record default)
  loadTests : p.store.loadTests.map LoadTest.anonymous
    = x.loadTests.map (LoadTestEntry.record default)
  /-- The last activation of a slot counts.  The identifier it is stored with is that of its
  scenario, and as long as identifiers do not come round again it is no other scenario's. -/
  active : ∀ a ∈ x.activations, ∃ last stored scenario,
    lastFor x.activations a.slot = some last ∧
    p.store.findScenario last.feature last.scenario = some scenario ∧
    p.store.activationFor a.feature a.account = some stored ∧ stored.slot = a.slot ∧
    stored.scenarioId = scenario.id ∧
    (x.entries.length ≤ Nat.pow 2 62 → p.store.getScenario stored.scenarioId = some scenario)
  inactive : ∀ featureName account,
    (featureName, account) ∉ x.activations.map ActivationEntry.slot →
    p.store.findActivation featureName account = none

theorem Shows.descriptions {start : Nat} {x : Fixture} {p : Progress}
    (h : Shows start { x with features := x.mentions } p) {f : Feature}
    (hf : f ∈ p.store.features) :
    f.description
      = ((x.features.find? fun e => e.name == f.name).map FeatureEntry.description).getD "" := by
  obtain ⟨e, he, hrecord⟩ : ∃ e ∈ firsts x.mentions, e.record default = f.anonymous := by
    rw [← List.mem_map, ← h.features]
    exact List.mem_map_of_mem hf
  have hname : e.name = f.name := congrArg Feature.name hrecord
  have hdescription : e.description = f.description := congrArg Feature.description hrecord
  have hfirst : x.mentions.find? (fun e => e.name == f.name) = some e := by
    rw [← find?_firsts, ← hname]
    exact Store.find?_eq_some_of_nodup (fun _ => beq_iff_eq) (nodup_names_firsts _) he
  rw [mentions, List.find?_append] at hfirst
  rw [← hdescription]
  cases hlisted : x.features.find? (fun e => e.name == f.name) with
  | some e' =>
    rw [hlisted, Option.some_or] at hfirst
    rw [Option.some.inj hfirst]
    rfl
  | none =>
    rw [hlisted, Option.none_or] at hfirst
    obtain ⟨s, -, rfl⟩ := List.mem_map.mp (List.mem_of_find?_eq_some hfirst)
    rfl

theorem Shows.nodup_ids {start : Nat} {d : Fixture} {p : Progress} (h : Shows start d p)
    (hsize : d.size ≤ Nat.pow 2 62) : (p.store.scenarios.map Scenario.id).Nodup := by
  obtain ⟨ns, hids, hnodup, hbounds⟩ := h.drawn
  have hwithin : ∀ n ∈ ns, start ≤ n ∧ n < start + Nat.pow 2 62 := by
    intro n hn
    have hnext := h.next.2
    have hn := hbounds n hn
    omega
  rw [hids]
  exact hnodup.map_on fun m hm n hn => Uuid.ofRandom_inj (hwithin m hm) (hwithin n hn)

theorem Shows.active_of_mem {start : Nat} {d : Fixture} {p : Progress} (h : Shows start d p)
    {a : ActivationEntry} (ha : a ∈ d.activations) :
    ∃ last stored scenario, lastFor d.activations a.slot = some last ∧
      p.store.findScenario last.feature last.scenario = some scenario ∧
      p.store.activationFor a.feature a.account = some stored ∧ stored.slot = a.slot ∧
      stored.scenarioId = scenario.id ∧
      (d.size ≤ Nat.pow 2 62 → p.store.getScenario stored.scenarioId = some scenario) := by
  obtain ⟨last, hlast⟩ : ∃ last, lastFor d.activations a.slot = some last := by
    rw [← Option.isSome_iff_exists, lastFor, List.find?_isSome]
    exact ⟨a, List.mem_reverse.mpr ha, beq_self_eq_true _⟩
  obtain ⟨scenario, hscenario⟩ := Option.isSome_iff_exists.mp
    ((h.findScenario_isSome_iff last.feature last.scenario).mpr
      (h.declared last (mem_of_lastFor hlast)))
  have hactive := h.active a.feature a.account
  rw [show (a.feature, a.account) = a.slot from rfl, hlast, Option.bind_some, hscenario] at hactive
  obtain ⟨stored, hstored, hid⟩ := Option.map_eq_some_iff.mp hactive
  refine ⟨last, stored, scenario, hlast, hscenario, Store.activationFor_of_found hstored,
    Store.slot_of_findActivation hstored, hid, ?_⟩
  intro hsize
  rw [hid]
  exact Store.find?_eq_some_of_nodup (fun _ => beq_iff_eq) (h.nodup_ids hsize)
    (List.mem_of_find?_eq_some hscenario)

theorem seeded_of_shows {start : Nat} {x : Fixture} {p : Progress}
    (h : Shows start { x with features := x.mentions } p) : x.Seeded p where
  summary := by
    rw [h.summary, length_firsts, mentions, List.map_append, List.map_map]
    rfl
  features := h.features
  descriptions := fun _ hf => h.descriptions hf
  scenarios := h.scenarios
  mocks := h.mocks
  loadTests := h.loadTests
  active := by
    have hsize : Fixture.size { x with features := x.mentions } = x.entries.length := by
      rw [← foldl_push_entries, size_foldl_push]
      exact Nat.zero_add _
    intro a ha
    obtain ⟨last, stored, scenario, hlast, hscenario, hstored, hslot, hid, hget⟩ :=
      h.active_of_mem ha
    rw [hsize] at hget
    exact ⟨last, stored, scenario, hlast, hscenario, hstored, hslot, hid, hget⟩
  inactive := by
    intro featureName account hslot
    have hnone : lastFor x.activations (featureName, account) = none := by
      rw [lastFor, List.find?_eq_none]
      intro a ha hsame
      rw [beq_iff_eq] at hsame
      exact hslot (hsame ▸ List.mem_map_of_mem (List.mem_reverse.mp ha))
    have hactive := h.active featureName account
    rw [hnone] at hactive
    exact Option.map_eq_none_iff.mp hactive

/-- **A fixture goes into an empty store exactly if it is sound**: no feature has a blank name, full
names of scenarios, keys of active mocks and names of load tests are distinct, and mocks and
activations belong to scenarios that are listed.  The store then holds what is listed, in order, and
the summary counts it.  Of the activations that are listed for a feature and an account, or for a
feature and everybody, the last one counts. -/
theorem seed_exact (x : Fixture) (supply : Supply) :
    ((x.seed .empty supply).2 = none ↔ x.Sound) ∧
      ((x.seed .empty supply).2 = none → x.Seeded (x.seed .empty supply).1) := by
  obtain ⟨hiff, hshows⟩ := (shows_empty supply).addAll x.entries
  rw [foldl_push_entries] at hshows
  exact ⟨hiff.trans (allFit_entries x), fun hnone => seeded_of_shows (hshows (hiff.mp hnone))⟩

/-- A feature that is mentioned again, and scenarios that change places. -/
def payments : Fixture where
  features := [⟨"svc", "payments"⟩, ⟨"svc", "once more"⟩]
  scenarios := [⟨"svc", "happy", ""⟩, ⟨"svc", "degraded", ""⟩, ⟨"other", "up", ""⟩]
  mocks := [⟨"svc", "happy", "create", "/a", "post", .null, none, .obj [], true⟩,
    ⟨"svc", "happy", "", "/a", "POST", .null, none, .null, false⟩]
  activations := [⟨"svc", "happy", none⟩, ⟨"svc", "degraded", some "acct-1"⟩,
    ⟨"svc", "degraded", none⟩, ⟨"svc", "happy", some "acct-1"⟩]
  loadTests := []

/-- It goes in, and for everybody the later of two activations counts. -/
theorem payments_seeded :
    (payments.seed .empty default).2 = none ∧ payments.Sound ∧
      (payments.seed .empty default).1.summary = ⟨2, 3, 2, 4, 0⟩ ∧
      ∃ stored scenario,
        (payments.seed .empty default).1.store.findScenario "svc" "degraded" = some scenario ∧
        (payments.seed .empty default).1.store.activationFor "svc" none = some stored ∧
        stored.scenarioId = scenario.id := by
  have hnone : (payments.seed .empty default).2 = none := by decide
  obtain ⟨hsound, hseeded⟩ := seed_exact payments default
  have hactive := (hseeded hnone).active ⟨"svc", "happy", none⟩ List.mem_cons_self
  obtain ⟨last, stored, scenario, hlast, hscenario, hstored, -, hid, -⟩ := hactive
  obtain rfl : ⟨"svc", "degraded", none⟩ = last := Option.some.inj hlast
  exact ⟨hnone, hsound.mp hnone, (hseeded hnone).summary, stored, scenario, hscenario, hstored, hid⟩

end Fixture

end MockServer
