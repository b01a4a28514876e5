/-
  MockServer.Proofs.Store.Alike — what fresh identifiers cannot change.

  The identifier of an activation and the time it was made are drawn
  when it is made, so two runs of one program differ in them.  No
  operation looks at them: stores that agree in everything else answer
  every operation alike, and agree again afterwards.

  Main definitions:
    * `Activation.anonymous` — an activation without what was drawn;
    * `Store.Alike` — stores that differ in drawn values at most.

  Main results:
    * `activationFor_alike` — they have the same scenario active;
    * `perform?_alike` — they allow the same operations.
-/
import MockServer.Proofs.Store.Run

namespace MockServer

/-- The activation without its identifier and its times. -/
def Activation.anonymous (a : Activation) : Activation :=
  { a with id := default, createdAt := default, updatedAt := default }

/-- An activation without drawn values speaks for the same feature, scenario and account. -/
theorem Activation.anonymous_inj_iff {a b : Activation} : a.anonymous = b.anonymous ↔
    a.featureName = b.featureName ∧ a.scenarioId = b.scenarioId ∧ a.account = b.account := by
  unfold anonymous
  rw [Activation.mk.injEq]
  simp only [true_and, and_true]

/-- What is drawn for an activation does not show in it. -/
theorem Activation.anonymous_new (stamp stamp' : Stamp) (featureName : String) (scenarioId : Uuid)
    (account : Option String) : (Activation.new stamp featureName scenarioId account).anonymous
      = (Activation.new stamp' featureName scenarioId account).anonymous := rfl

namespace Store

/-- Do the stores differ in drawn values of activations at most? -/
structure Alike (s t : Store) : Prop where
  features : s.features = t.features
  scenarios : s.scenarios = t.scenarios
  mocks : s.mocks = t.mocks
  loadTests : s.loadTests = t.loadTests
  activations : s.activations.map Activation.anonymous = t.activations.map Activation.anonymous

variable {s t : Store}

theorem alike_refl (s : Store) : Alike s s := ⟨rfl, rfl, rfl, rfl, rfl⟩

/-! ## Reads -/

/-- A search that does not look at drawn values finds activations alike. -/
theorem find?_alike {as bs : List Activation}
    (h : as.map Activation.anonymous = bs.map Activation.anonymous) {p : Activation → Bool}
    (hp : ∀ a, p a.anonymous = p a) :
    (as.find? p).map Activation.anonymous = (bs.find? p).map Activation.anonymous := by
  -- searching the anonymous activations finds the anonymous one
  have hcomp : p ∘ Activation.anonymous = p := funext hp
  have hfind := congrArg (List.find? p) h
  rwa [List.find?_map, List.find?_map, hcomp] at hfind

theorem findActivation_alike (h : Alike s t) (featureName : String) (account : Option String) :
    (s.findActivation featureName account).map Activation.anonymous
      = (t.findActivation featureName account).map Activation.anonymous :=
  find?_alike h.activations fun _ => rfl

/-- **Alike stores have alike activations for every account.** -/
theorem activationFor_alike (h : Alike s t) (featureName : String) (account : Option String) :
    (s.activationFor featureName account).map Activation.anonymous
      = (t.activationFor featureName account).map Activation.anonymous := by
  unfold activationFor
  cases account with
  | none => exact findActivation_alike h featureName none
  | some a =>
    simp only [Option.map_or]
    rw [findActivation_alike h, findActivation_alike h]

theorem findMock_alike (h : Alike s t) (k : MockKey) : s.findMock k = t.findMock k := by
  unfold findMock
  rw [h.mocks]

theorem getScenario_alike (h : Alike s t) (id : Uuid) : s.getScenario id = t.getScenario id := by
  unfold getScenario
  rw [h.scenarios]

/-! ## Changes -/

/-- Removing by a property that does not look at drawn values. -/
theorem removeWhere_alike (h : Alike s t) {p : Activation → Bool} (hp : ∀ a, p a.anonymous = p a) :
    Alike (s.removeWhere p).1 (t.removeWhere p).1 ∧ (s.removeWhere p).2 = (t.removeWhere p).2 := by
  have hcomp : p ∘ Activation.anonymous = p := funext hp
  have hcomp' : (fun a => !p a) ∘ Activation.anonymous = fun a => !p a :=
    funext fun a => by rw [Function.comp_apply, hp]
  have hfilter := congrArg (List.filter fun a => !p a) h.activations
  have hcount := congrArg (List.countP p) h.activations
  rw [List.filter_map, List.filter_map, hcomp'] at hfilter
  rw [List.countP_map, List.countP_map, hcomp] at hcount
  exact ⟨⟨h.features, h.scenarios, h.mocks, h.loadTests, hfilter⟩, hcount⟩

theorem removeOverrides_alike (h : Alike s t) (featureName : String) :
    Alike (s.removeOverrides featureName).1 (t.removeOverrides featureName).1 ∧
      (s.removeOverrides featureName).2 = (t.removeOverrides featureName).2 :=
  removeWhere_alike h fun _ => rfl

theorem removeActivation_alike (h : Alike s t) (featureName : String) (account : Option String) :
    Alike (s.removeActivation featureName account).1 (t.removeActivation featureName account).1 ∧
      (s.removeActivation featureName account).2 = (t.removeActivation featureName account).2 :=
  removeWhere_alike h fun _ => rfl

/-- Two results of an operation: both refused for the same reason, or both stores alike. -/
inductive AlikeResults : Except StoreError Store → Except StoreError Store → Prop where
  | refused (e : StoreError) : AlikeResults (.error e) (.error e)
  | done {s t : Store} : Alike s t → AlikeResults (.ok s) (.ok t)

theorem alikeResults_ite {c : Prop} [Decidable c] {x y x' y' : Except StoreError Store}
    (hx : AlikeResults x x') (hy : AlikeResults y y') :
    AlikeResults (if c then x else y) (if c then x' else y') := by
  by_cases hc : c
  · rw [if_pos hc, if_pos hc]
    exact hx
  · rw [if_neg hc, if_neg hc]
    exact hy

theorem addActivation?_alike (h : Alike s t) {a b : Activation}
    (hab : a.anonymous = b.anonymous) :
    AlikeResults (s.addActivation? a) (t.addActivation? b) := by
  obtain ⟨hfeature, hscenario, haccount⟩ := Activation.anonymous_inj_iff.mp hab
  have hfound := findActivation_alike h b.featureName b.account
  -- whether there is a rival activation does not depend on drawn values
  have hsome : (s.findActivation b.featureName b.account).isSome
      = (t.findActivation b.featureName b.account).isSome := by
    rw [← Option.isSome_map (f := Activation.anonymous), hfound, Option.isSome_map]
  unfold addActivation?
  rw [hfeature, haccount, hsome]
  refine alikeResults_ite (.refused _) (.done ⟨h.features, h.scenarios, h.mocks, h.loadTests, ?_⟩)
  rw [List.map_append, List.map_append, h.activations, List.map_singleton, List.map_singleton, hab]

theorem addMock?_alike (h : Alike s t) (m : Mock) :
    AlikeResults ((s.addMock? m).map Prod.fst) ((t.addMock? m).map Prod.fst) := by
  unfold addMock?
  simp only [findMock_alike h, h.mocks]
  split
  next => exact .refused _
  next => exact .done ⟨h.features, h.scenarios, rfl, h.loadTests, h.activations⟩

/-- **Alike stores allow the same operations**, and are alike afterwards. -/
theorem perform?_alike (h : Alike s t) (op : Op) :
    AlikeResults (s.perform? op) (t.perform? op) := by
  cases op with
  | addFeature f =>
    simp only [perform?, addFeature?, findFeature, h.features]
    exact alikeResults_ite (.refused _) (alikeResults_ite (.refused _)
      (.done ⟨rfl, h.scenarios, h.mocks, h.loadTests, h.activations⟩))
  | addScenario x =>
    simp only [perform?, addScenario?, findScenario, h.scenarios]
    exact alikeResults_ite (.refused _)
      (.done ⟨h.features, rfl, h.mocks, h.loadTests, h.activations⟩)
  | addActivation a => exact addActivation?_alike h rfl
  | removeOverrides featureName => exact .done (removeOverrides_alike h featureName).1
  | removeActivation featureName account =>
    exact .done (removeActivation_alike h featureName account).1
  | addMock m => exact addMock?_alike h m
  | addLoadTest x =>
    simp only [perform?, addLoadTest?, findLoadTest, h.loadTests]
    exact alikeResults_ite (.refused _)
      (.done ⟨h.features, h.scenarios, h.mocks, rfl, h.activations⟩)

end Store

end MockServer
