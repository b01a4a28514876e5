/-
  MockServer.Proofs.Fixture.Sound — the fixtures whose records fit.

  Whether a record goes in depends on the part of the fixture that went
  in before it.  Read from the front, every record fits that part
  exactly if the fixture as a whole is sound: names are not blank, keys
  are distinct, and scenarios are listed before they are used.

  Main definitions:
    * `Sound` — a condition on a fixture as a whole;
    * `push` — a fixture with one record more;
    * `Fits`, `AllFit` — records that there is room for.

  Main results:
    * `foldl_push_entries` — all records make up the fixture;
    * `allFit_entries` — every record fits iff the fixture is sound.
-/
import Mathlib.Tactic.MkIffOfInductiveProp
import MockServer.Proofs.Fixture.Entry

namespace MockServer.Fixture

/-! ## Sound fixtures -/

/-- Can every record of the fixture go into an empty store? -/
@[mk_iff]
structure Sound (x : Fixture) : Prop where
  /-- A name that only a scenario gives its feature must not be blank either. -/
  named : ∀ f ∈ x.mentions, Text.isBlankText f.name = false
  scenarios : (x.scenarios.map ScenarioEntry.fullName).Nodup
  mocksDeclared : ∀ m ∈ x.mocks, m.fullName ∈ x.scenarios.map ScenarioEntry.fullName
  activationsDeclared : ∀ a ∈ x.activations, a.fullName ∈ x.scenarios.map ScenarioEntry.fullName
  mocks : ((x.mocks.filter MockEntry.isActive).map MockEntry.key).Nodup
  loadTests : (x.loadTests.map LoadTestEntry.name).Nodup

instance (x : Fixture) : Decidable x.Sound := decidable_of_iff' _ (sound_iff x)

/-! ## What went in -/

/-- A fixture with one record more; a feature is one more mention. -/
def push (d : Fixture) : Entry → Fixture
  | .feature x => { d with features := d.features ++ [x] }
  | .scenario x => { d with scenarios := d.scenarios ++ [x] }
  | .mock x => { d with mocks := d.mocks ++ [x] }
  | .activation x => { d with activations := d.activations ++ [x] }
  | .loadTest x => { d with loadTests := d.loadTests ++ [x] }

def size (d : Fixture) : Nat :=
  d.features.length + d.scenarios.length + d.mocks.length + d.activations.length +
    d.loadTests.length

theorem size_push (d : Fixture) (e : Entry) : (d.push e).size = d.size + 1 := by
  cases e <;> simp only [push, size, List.length_append, List.length_singleton] <;> omega

theorem size_foldl_push (d : Fixture) (es : List Entry) :
    (es.foldl push d).size = d.size + es.length := by
  induction es generalizing d with
  | nil => rfl
  | cons e es ih =>
    rw [List.foldl_cons, ih, size_push, List.length_cons]
    omega

/-- Does what went in before leave room for the record?  A mock and an activation need their
scenario besides. -/
def Fits (d : Fixture) : Entry → Prop
  | .feature x => Text.isBlankText x.name = false
  | .scenario x => x.fullName ∉ d.scenarios.map ScenarioEntry.fullName
  | .mock x =>
    x.fullName ∈ d.scenarios.map ScenarioEntry.fullName ∧
      (x.isActive = true → x.key ∉ (d.mocks.filter MockEntry.isActive).map MockEntry.key)
  | .activation x => x.fullName ∈ d.scenarios.map ScenarioEntry.fullName
  | .loadTest x => x.name ∉ d.loadTests.map LoadTestEntry.name

/-- Does every record fit what goes in before it? -/
def AllFit : Fixture → List Entry → Prop
  | _, [] => True
  | d, e :: es => Fits d e ∧ AllFit (d.push e) es

theorem allFit_append {d : Fixture} {es more : List Entry} :
    AllFit d (es ++ more) ↔ AllFit d es ∧ AllFit (es.foldl push d) more := by
  induction es generalizing d with
  | nil => exact (and_iff_right trivial).symm
  | cons e es ih => exact (and_congr_right fun _ => ih).trans and_assoc.symm

/-! ## Records of one kind -/

/-- Nothing is listed. -/
def empty : Fixture := ⟨[], [], [], [], []⟩

/-- What is listed after the records of a kind went in one by one. -/
theorem foldl_push_flatMap {α : Type} {kind : α → List Entry} (grown : Fixture → List α → Fixture)
    (hnil : ∀ d, grown d [] = d)
    (hcons : ∀ d x xs, grown ((kind x).foldl push d) xs = grown d (x :: xs)) (d : Fixture)
    (xs : List α) : (xs.flatMap kind).foldl push d = grown d xs := by
  induction xs generalizing d with
  | nil => exact (hnil d).symm
  | cons x xs ih => rw [List.flatMap_cons, List.foldl_append, ih, hcons]

theorem foldl_push_features (d : Fixture) (xs : List FeatureEntry) :
    (xs.map Entry.feature).foldl push d = { d with features := d.features ++ xs } := by
  rw [List.map_eq_flatMap]
  exact foldl_push_flatMap (fun d xs => { d with features := d.features ++ xs }) (by simp)
    (by simp [push]) d xs

theorem foldl_push_scenarios (d : Fixture) (xs : List ScenarioEntry) :
    (xs.flatMap fun s => [.feature ⟨s.feature, ""⟩, .scenario s]).foldl push d = { d with
      features := d.features ++ xs.map fun s => ⟨s.feature, ""⟩
      scenarios := d.scenarios ++ xs } :=
  foldl_push_flatMap (fun d xs => { d with
    features := d.features ++ xs.map fun s => ⟨s.feature, ""⟩
    scenarios := d.scenarios ++ xs }) (by simp) (by simp [push]) d xs

theorem foldl_push_mocks (d : Fixture) (xs : List MockEntry) :
    (xs.map Entry.mock).foldl push d = { d with mocks := d.mocks ++ xs } := by
  rw [List.map_eq_flatMap]
  exact foldl_push_flatMap (fun d xs => { d with mocks := d.mocks ++ xs }) (by simp)
    (by simp [push]) d xs

theorem foldl_push_activations (d : Fixture) (xs : List ActivationEntry) :
    (xs.map Entry.activation).foldl push d = { d with activations := d.activations ++ xs } := by
  rw [List.map_eq_flatMap]
  exact foldl_push_flatMap (fun d xs => { d with activations := d.activations ++ xs }) (by simp)
    (by simp [push]) d xs

theorem foldl_push_loadTests (d : Fixture) (xs : List LoadTestEntry) :
    (xs.map Entry.loadTest).foldl push d = { d with loadTests := d.loadTests ++ xs } := by
  rw [List.map_eq_flatMap]
  exact foldl_push_flatMap (fun d xs => { d with loadTests := d.loadTests ++ xs }) (by simp)
    (by simp [push]) d xs

/-- **All records of a fixture**, each feature as often as it is mentioned. -/
theorem foldl_push_entries (x : Fixture) :
    x.entries.foldl push empty = { x with features := x.mentions } := by
  unfold entries
  simp only [List.foldl_append, foldl_push_features, foldl_push_scenarios, foldl_push_mocks,
    foldl_push_activations, foldl_push_loadTests]
  rfl

/-- **The features of a fixture fit if their names are not blank.** -/
theorem allFit_features {d : Fixture} (xs : List FeatureEntry) :
    AllFit d (xs.map Entry.feature) ↔ ∀ x ∈ xs, Text.isBlankText x.name = false := by
  induction xs generalizing d with
  | nil => exact iff_of_true trivial (List.forall_mem_nil _)
  | cons x xs ih =>
    rw [List.forall_mem_cons]
    exact and_congr_right fun _ => ih

theorem allFit_activations {d : Fixture} (xs : List ActivationEntry) :
    AllFit d (xs.map Entry.activation) ↔
      ∀ a ∈ xs, a.fullName ∈ d.scenarios.map ScenarioEntry.fullName := by
  induction xs generalizing d with
  | nil => exact iff_of_true trivial (List.forall_mem_nil _)
  | cons x xs ih =>
    rw [List.forall_mem_cons]
    exact and_congr_right fun _ => ih

section Table

variable {α κ : Type} {key : α → κ} {x : α} {xs ys : List α}

/-- Keys are distinct if the first that comes is new, and so are the others after it. -/
theorem nodup_map_append_cons_iff :
    ((xs ++ x :: ys).map key).Nodup ↔
      key x ∉ xs.map key ∧ ((xs ++ [x] ++ ys).map key).Nodup := by
  rw [List.append_cons]
  refine ⟨fun h => ⟨fun hx => ?_, h⟩, fun h => h.2⟩
  rw [List.map_append, List.map_append] at h
  exact List.disjoint_of_nodup_append h.of_append_left hx (List.mem_singleton_self _)

/-- Only records with a property have a key. -/
theorem nodup_map_filter_append_cons_iff {p : α → Bool} :
    (((xs ++ x :: ys).filter p).map key).Nodup ↔
      (p x = true → key x ∉ (xs.filter p).map key) ∧
        (((xs ++ [x] ++ ys).filter p).map key).Nodup := by
  rw [List.filter_append, List.filter_append, List.filter_append]
  by_cases hx : p x = true
  · rw [List.filter_cons_of_pos hx, List.filter_cons_of_pos hx, nodup_map_append_cons_iff]
    exact and_congr_left' ⟨fun h _ => h, fun h => h hx⟩
  · rw [List.filter_cons_of_neg hx, List.filter_cons_of_neg hx, List.filter_nil, List.append_nil]
    exact (and_iff_right fun h => absurd h hx).symm

end Table

theorem allFit_scenarios {d : Fixture} (h : (d.scenarios.map ScenarioEntry.fullName).Nodup)
    (xs : List ScenarioEntry) :
    AllFit d (xs.flatMap fun s => [.feature ⟨s.feature, ""⟩, .scenario s]) ↔
      (∀ s ∈ xs, Text.isBlankText s.feature = false) ∧
        ((d.scenarios ++ xs).map ScenarioEntry.fullName).Nodup := by
  induction xs generalizing d with
  | nil =>
    rw [List.append_nil]
    exact iff_of_true trivial ⟨List.forall_mem_nil _, h⟩
  | cons x xs ih =>
    have hrest (hx : x.fullName ∉ d.scenarios.map ScenarioEntry.fullName) :=
      ih (d := (d.push (.feature ⟨x.feature, ""⟩)).push (.scenario x))
        (Store.nodup_map_append_singleton h hx)
    rw [List.forall_mem_cons, nodup_map_append_cons_iff, and_assoc,
      and_left_comm (b := x.fullName ∉ _)]
    exact and_congr_right fun _ => and_congr_right fun hx => hrest hx

theorem allFit_mocks {d : Fixture}
    (h : ((d.mocks.filter MockEntry.isActive).map MockEntry.key).Nodup) (xs : List MockEntry) :
    AllFit d (xs.map Entry.mock) ↔
      (∀ m ∈ xs, m.fullName ∈ d.scenarios.map ScenarioEntry.fullName) ∧
        (((d.mocks ++ xs).filter MockEntry.isActive).map MockEntry.key).Nodup := by
  induction xs generalizing d with
  | nil =>
    rw [List.append_nil]
    exact iff_of_true trivial ⟨List.forall_mem_nil _, h⟩
  | cons x xs ih =>
    have hrest (hx : x.isActive = true →
        x.key ∉ (d.mocks.filter MockEntry.isActive).map MockEntry.key) :=
      ih (d := d.push (.mock x)) (Store.nodup_map_filter_append_singleton h hx)
    rw [List.forall_mem_cons, nodup_map_filter_append_cons_iff, and_assoc,
      and_left_comm (b := _ → _)]
    exact and_assoc.trans (and_congr_right fun _ => and_congr_right fun hx => hrest hx)

theorem allFit_loadTests {d : Fixture} (h : (d.loadTests.map LoadTestEntry.name).Nodup)
    (xs : List LoadTestEntry) :
    AllFit d (xs.map Entry.loadTest) ↔ ((d.loadTests ++ xs).map LoadTestEntry.name).Nodup := by
  induction xs generalizing d with
  | nil =>
    rw [List.append_nil]
    exact iff_of_true trivial h
  | cons x xs ih =>
    rw [nodup_map_append_cons_iff]
    exact and_congr_right fun hx => ih (d := d.push (.loadTest x))
      (Store.nodup_map_append_singleton h hx)

/-- **The records of a fixture fit one by one if the fixture is sound.** -/
theorem allFit_entries (x : Fixture) : AllFit empty x.entries ↔ x.Sound := by
  unfold entries
  simp only [allFit_append, List.foldl_append, foldl_push_features, foldl_push_scenarios,
    foldl_push_mocks, foldl_push_activations, allFit_features, allFit_activations]
  rw [allFit_scenarios ?_, allFit_mocks ?_, allFit_loadTests ?_, sound_iff]
  · simp only [empty, List.nil_append, mentions, List.forall_mem_append, List.forall_mem_map]
    constructor
    · rintro ⟨⟨⟨⟨hnamed, hfeatures, hscenarios⟩, hmocks, hkeys⟩, hactivations⟩, hloadTests⟩
      exact ⟨⟨hnamed, hfeatures⟩, hscenarios, hmocks, hactivations, hkeys, hloadTests⟩
    · rintro ⟨⟨hnamed, hfeatures⟩, hscenarios, hmocks, hactivations, hkeys, hloadTests⟩
      exact ⟨⟨⟨⟨hnamed, hfeatures, hscenarios⟩, hmocks, hkeys⟩, hactivations⟩, hloadTests⟩
  all_goals exact List.nodup_nil

end MockServer.Fixture
