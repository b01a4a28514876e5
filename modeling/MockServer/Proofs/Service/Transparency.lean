/-
  MockServer.Proofs.Service.Transparency — the cache is not seen.

  Two servers go through the same steps, one of them with its cache
  switched off; identifiers and times they draw on their own.  Their
  records stay alike, so every request has the same plan on both.  If
  the first server holds a body for the plan, the body is what its
  store answers, and so what the second one answers.

  The text of a key must tell the plans of the run apart for this:
  otherwise a body held for one plan is given for another.

  Main definitions:
    * `Service.Twins` — the two servers at one point of the run;
    * `Service.Separate` — the texts of keys tell plans apart.

  Main results:
    * `plan_twins` — a request has one plan;
    * `resolve_twins`, `step_twins` — a step has one outcome;
    * `cache_transparent` — a run has one sequence of outcomes.
-/
import MockServer.Proofs.Service.Run

namespace MockServer.Service

open Resolve (Plan Answers)

/-! ## Twins -/

/-- Two servers with alike records and all calls in order, the second one without a cache. -/
structure Twins (s t : Service) : Prop where
  store : s.store.Alike t.store
  inOrder : s.outages = []
  inOrder' : t.outages = []
  isDisabled : t.cache.isEnabled = false

theorem outage?_eq_none {s : Service} (h : s.outages = []) (c : Call) : s.outage? c = none := by
  unfold outage?
  rw [h]
  rfl

theorem ifInOrder_eq {α : Type} {s : Service} (h : s.outages = []) (c : Call)
    (result : Except StoreError α) : s.ifInOrder c result = result := by
  unfold ifInOrder
  rw [outage?_eq_none h]

variable {s t : Service}

theorem getScenario_twins (h : Twins s t) (id : Uuid) : s.getScenario id = t.getScenario id := by
  unfold getScenario
  rw [ifInOrder_eq h.inOrder, ifInOrder_eq h.inOrder', Store.getScenario_alike h.store]

/-! ## Plans -/

/-- Twins select the same scenario, or refuse for the same reason. -/
theorem select_twins (h : Twins s t) (feature : String) (account : Option String) :
    (Resolve.select s feature account).map Resolve.Selection.scenario
      = (Resolve.select t feature account).map Resolve.Selection.scenario := by
  -- the two activations may differ in drawn values, not in the scenario they name
  have hactive := Store.activationFor_alike h.store feature account
  unfold Resolve.select activationFor
  rw [ifInOrder_eq h.inOrder, ifInOrder_eq h.inOrder']
  cases hs : s.store.activationFor feature account with
  | none =>
    rw [hs, Option.map_none] at hactive
    rw [Option.map_eq_none_iff.mp hactive.symm]
  | some a =>
    rw [hs, Option.map_some] at hactive
    obtain ⟨b, hb, hab⟩ := Option.map_eq_some_iff.mp hactive.symm
    obtain ⟨-, hscenario, -⟩ := Activation.anonymous_inj_iff.mp hab
    rw [hb]
    simp only [hscenario, getScenario_twins h]
    cases t.getScenario a.scenarioId with
    | error e => rfl
    | ok found =>
      cases found with
      | none => rfl
      | some x => rfl

/-- **A request has one plan on twins.** -/
theorem plan_twins (h : Twins s t) (r : Resolve.Request) : Resolve.plan s r = Resolve.plan t r := by
  unfold Resolve.plan
  cases Resolve.accountOf r with
  | error e => rfl
  | ok account =>
    cases Resolve.featureOf r with
    | error e => rfl
    | ok feature =>
      have hselect := select_twins h feature account
      simp only [bind, Except.bind]
      cases hs : Resolve.select s feature account with
      | error e =>
        cases ht : Resolve.select t feature account with
        | error e' =>
          rw [hs, ht] at hselect
          exact congrArg _ (Except.error.inj hselect)
        | ok y =>
          rw [hs, ht] at hselect
          exact absurd hselect (by simp [Except.map])
      | ok x =>
        cases ht : Resolve.select t feature account with
        | error e' =>
          rw [hs, ht] at hselect
          exact absurd hselect (by simp [Except.map])
        | ok y =>
          rw [hs, ht] at hselect
          have hscenario : x.scenario = y.scenario := Except.ok.inj hselect
          simp only [hscenario]

/-! ## Requests -/

/-- Do the texts of keys tell the plans apart? -/
def Separate (plans : List Plan) : Prop :=
  ∀ p ∈ plans, ∀ q ∈ plans, p.cacheKey.toText = q.cacheKey.toText → p.cacheKey = q.cacheKey

theorem Separate.left {plans later : List Plan} (h : Separate (plans ++ later)) : Separate plans :=
  fun p hp q hq => h p (List.mem_append_left _ hp) q (List.mem_append_left _ hq)

/-- A body that is held for a plan is what the store answers to it. -/
theorem answers_of_held {plans : List Plan} (hsound : Sound plans s) {p : Plan}
    (hsep : Separate (plans ++ [p])) {body : String}
    (h : Resolve.held s p.cacheKey.toText = some body) : Answers s.store p body := by
  obtain ⟨q, hq, htext, hanswers⟩ := hsound _ (Resolve.mem_of_held h)
  have hqp : q = p := Resolve.Plan.cacheKey_inj
    (hsep q (List.mem_append_left _ hq) p (List.mem_append_right _ (List.mem_singleton_self p))
      htext)
  rwa [hqp] at hanswers

theorem held_of_isDisabled (h : t.cache.isEnabled = false) (key : String) :
    Resolve.held t key = none := by
  unfold Resolve.held
  rw [h]
  split
  next => rfl
  next => rfl

/-- Without a cache the store answers. -/
theorem bodyOf_answer_of_answers (h : Twins s t) {r : Resolve.Request} {p : Plan}
    (hp : Resolve.plan t r = .ok p) {body : String} (ha : Answers s.store p body) :
    bodyOf (Resolve.answer t r).1 = .ok body := by
  obtain ⟨m, response, hfound, hrespond, hbody⟩ := ha
  rw [Store.findMock_alike h.store] at hfound
  have hanswer := Resolve.resolve_of_found hp (held_of_isDisabled h.isDisabled _)
    (outage?_eq_none h.inOrder' _) hfound
  rw [← Resolve.resolve_fst t r default, hanswer, hrespond, ← hbody]
  rfl

/-- Twins that both ask the store get the same. -/
theorem bodyOf_lookUp_twins (h : Twins s t) (p : Plan) (key key' : String) :
    bodyOf (Resolve.lookUp (Resolve.cached s key).2 p).1
      = bodyOf (Resolve.lookUp (Resolve.cached t key').2 p).1 := by
  have hs := Resolve.findMock_of_inOrder (outage?_eq_none h.inOrder .findMock) p.mock
  have ht := Resolve.findMock_of_inOrder (outage?_eq_none h.inOrder' .findMock) p.mock
  rw [← Resolve.findMock_cached s key, Store.findMock_alike h.store] at hs
  rw [← Resolve.findMock_cached t key'] at ht
  cases hfound : t.store.findMock p.mock with
  | none =>
    rw [hfound] at hs ht
    rw [Resolve.lookUp_none hs, Resolve.lookUp_none ht, bodyOf_mockNotFound, bodyOf_mockNotFound]
  | some m =>
    rw [hfound] at hs ht
    rw [Resolve.lookUp_some hs, Resolve.lookUp_some ht]

/-- **A request gets the same body on twins**, or is refused for the same reason. -/
theorem resolve_twins {plans : List Plan} (h : Twins s t) (hsound : Sound plans s)
    (r : Resolve.Request) (took : Duration)
    (hsep : Separate (plans ++ s.askedBy (.resolve r took))) :
    bodyOf (Resolve.resolve s r took).1 = bodyOf (Resolve.resolve t r took).1 := by
  rw [Resolve.resolve_fst, Resolve.resolve_fst]
  have hplan := plan_twins h r
  cases hp : Resolve.plan s r with
  | error e =>
    rw [hp] at hplan
    rw [Resolve.answer_of_refused hp, Resolve.answer_of_refused hplan.symm]
  | ok p =>
    rw [hp] at hplan
    rw [askedBy_resolve hp] at hsep
    -- a held body is what the store of `s` answers; otherwise both ask their stores
    cases hheld : Resolve.held s p.cacheKey.toText with
    | some body =>
      rw [Resolve.answer_of_held hp hheld,
        bodyOf_answer_of_answers h hplan.symm (answers_of_held hsound hsep hheld)]
      rfl
    | none =>
      rw [Resolve.answer_of_not_held hp hheld,
        Resolve.answer_of_not_held hplan.symm (held_of_isDisabled h.isDisabled _)]
      exact bodyOf_lookUp_twins h p _ _

/-! ## Activations -/

/-- Changes that differ in drawn values at most. -/
inductive AlikeChanges : Change → Change → Prop where
  | same (c : Change) : AlikeChanges c c
  | add {a b : Activation} : a.anonymous = b.anonymous → AlikeChanges (.add a) (.add b)

/-- Two results of a change: both refused for the same reason, or the same number removed and both
stores alike. -/
inductive AlikeCounts :
    Except StoreError (Nat × Store) → Except StoreError (Nat × Store) → Prop where
  | refused (e : StoreError) : AlikeCounts (.error e) (.error e)
  | done (n : Nat) {s t : Store} : s.Alike t → AlikeCounts (.ok (n, s)) (.ok (n, t))

theorem add_alike {s t : Store} (h : s.Alike t) {a b : Activation}
    (hab : a.anonymous = b.anonymous) :
    AlikeCounts (Change.applyTo s (.add a)) (Change.applyTo t (.add b)) := by
  have hadd := Store.addActivation?_alike h hab
  unfold Change.applyTo
  simp only
  generalize s.addActivation? a = x at hadd ⊢
  generalize t.addActivation? b = y at hadd ⊢
  cases hadd with
  | refused e => exact .refused e
  | done halike => exact .done 0 halike

theorem applyTo_alike {s t : Store} (h : s.Alike t) {c d : Change} (hcd : AlikeChanges c d) :
    AlikeCounts (c.applyTo s) (d.applyTo t) := by
  cases hcd with
  | add hab => exact add_alike h hab
  | same =>
    cases c with
    | removeOverrides feature =>
      obtain ⟨halike, hcount⟩ := Store.removeOverrides_alike h feature
      unfold Change.applyTo
      simp only [hcount]
      exact .done _ halike
    | remove feature account =>
      obtain ⟨halike, hcount⟩ := Store.removeActivation_alike h feature account
      unfold Change.applyTo
      simp only [hcount]
      exact .done _ halike
    | add a => exact add_alike h rfl

/-- Twins take a change alike. -/
theorem change_twins (h : Twins s t) {c d : Change} (hcd : AlikeChanges c d) :
    (s.change c).1 = (t.change d).1 ∧ Twins (s.change c).2 (t.change d).2 := by
  have hresults := applyTo_alike h.store hcd
  unfold change
  rw [ifInOrder_eq h.inOrder, ifInOrder_eq h.inOrder']
  generalize c.applyTo s.store = x at hresults ⊢
  generalize d.applyTo t.store = y at hresults ⊢
  cases hresults with
  | refused e => exact ⟨rfl, h⟩
  | done n halike => exact ⟨rfl, halike, h.inOrder, h.inOrder', h.isDisabled⟩

/-- Stages that differ in drawn values at most. -/
def AlikeStages (x y : Activate.Stage) : Prop :=
  AlikeChanges x.change y.change ∧ x.onFailure = y.onFailure

theorem stages_twins {xs ys : List Activate.Stage} (hstages : List.Forall₂ AlikeStages xs ys) :
    ∀ (n : Nat) {s t : Service}, Twins s t →
      (Activate.run n s xs).1 = (Activate.run n t ys).1 ∧
        Twins (Activate.run n s xs).2 (Activate.run n t ys).2 := by
  induction hstages with
  | nil => exact fun n s t h => ⟨rfl, h⟩
  | @cons x y xs ys hxy _ ih =>
    intro n s t h
    obtain ⟨hresult, htwins⟩ := change_twins h hxy.1
    unfold Activate.run
    generalize s.change x.change = p at hresult htwins ⊢
    generalize t.change y.change = q at hresult htwins ⊢
    obtain ⟨result, s'⟩ := p
    obtain ⟨result', t'⟩ := q
    simp only at hresult htwins
    subst hresult
    cases result with
    | ok n => exact ih n htwins
    | error e =>
      simp only [hxy.2]
      exact ⟨trivial, htwins⟩

/-- Dropping cached bodies does not tell twins apart. -/
theorem dropCached_twins (h : Twins s t) (feature : String) :
    Twins (Activate.dropCached s feature) (Activate.dropCached t feature) := by
  -- only the first server has bodies to drop, and the records stay
  have hstore : ∀ u : Service, (Activate.dropCached u feature).store = u.store := by
    intro u
    unfold Activate.dropCached clearCache
    split
    next => rfl
    next =>
      split
      next => rfl
      next => rfl
  have hs := tended_dropCached s feature
  have ht := tended_dropCached t feature
  refine ⟨?_, hs.outages.trans h.inOrder, ht.outages.trans h.inOrder',
    ht.isEnabled.trans h.isDisabled⟩
  rw [hstore, hstore]
  exact h.store

theorem scenario_twins (h : Twins s t) (id : Uuid) :
    Activate.scenario s id = Activate.scenario t id := by
  unfold Activate.scenario
  rw [getScenario_twins h]

theorem draw_twins (h : Twins s t) : Twins s.draw.2 t.draw.2 :=
  ⟨h.store, h.inOrder, h.inOrder', h.isDisabled⟩

/-- The stages of two activations that differ in drawn values. -/
theorem stages_alike {a b : Activation} (hab : a.anonymous = b.anonymous) :
    List.Forall₂ AlikeStages (Activate.stages a) (Activate.stages b) := by
  obtain ⟨hfeature, -, haccount⟩ := Activation.anonymous_inj_iff.mp hab
  have hsame : ∀ stages : List Activate.Stage, List.Forall₂ AlikeStages stages stages :=
    fun stages => List.forall₂_same.mpr fun _ _ => ⟨.same _, rfl⟩
  unfold Activate.stages
  rw [hfeature, haccount]
  exact List.rel_append (hsame _) (.cons ⟨.add hab, rfl⟩ .nil)

/-- **An activation comes to the same on twins.** -/
theorem activate_twins (h : Twins s t) (id : Uuid) (account : Option String) :
    (Activate.activate s id account).1.map Activation.anonymous
      = (Activate.activate t id account).1.map Activation.anonymous ∧
    Twins (Activate.activate s id account).2 (Activate.activate t id account).2 := by
  unfold Activate.activate
  rw [scenario_twins h]
  cases Activate.scenario t id with
  | error e => exact ⟨rfl, h⟩
  | ok x =>
    -- the two servers draw different stamps, so the activations are alike only
    have hdrawn := Activation.anonymous_new s.draw.1 t.draw.1 x.featureName x.id account
    obtain ⟨hresult, htwins⟩ := stages_twins (stages_alike hdrawn) 0 (draw_twins h)
    simp only
    generalize Activate.run 0 s.draw.2 _ = p at hresult htwins ⊢
    generalize Activate.run 0 t.draw.2 _ = q at hresult htwins ⊢
    obtain ⟨result, s'⟩ := p
    obtain ⟨result', t'⟩ := q
    simp only at hresult htwins
    subst hresult
    cases result with
    | ok n => exact ⟨congrArg Except.ok hdrawn, dropCached_twins htwins x.featureName⟩
    | error e => exact ⟨rfl, htwins⟩

/-- **Taking an activation back comes to the same on twins.** -/
theorem deactivate_twins (h : Twins s t) (id : Uuid) (account : Option String) :
    (Activate.deactivate s id account).1 = (Activate.deactivate t id account).1 ∧
    Twins (Activate.deactivate s id account).2 (Activate.deactivate t id account).2 := by
  unfold Activate.deactivate
  rw [scenario_twins h]
  cases Activate.scenario t id with
  | error e => exact ⟨rfl, h⟩
  | ok x =>
    have hstages : List.Forall₂ AlikeStages
        [⟨.remove x.featureName account, "failed to deactivate scenario"⟩]
        [⟨.remove x.featureName account, "failed to deactivate scenario"⟩] :=
      .cons ⟨.same _, rfl⟩ .nil
    obtain ⟨hresult, htwins⟩ := stages_twins hstages 0 h
    simp only
    generalize Activate.run 0 s _ = p at hresult htwins ⊢
    generalize Activate.run 0 t _ = q at hresult htwins ⊢
    obtain ⟨result, s'⟩ := p
    obtain ⟨result', t'⟩ := q
    simp only at hresult htwins
    subst hresult
    cases result with
    | ok n => exact ⟨rfl, dropCached_twins htwins x.featureName⟩
    | error e => exact ⟨rfl, htwins⟩

/-! ## Runs -/

theorem record_twins (h : Twins s t) (op : Store.Op) :
    (s.step (.record op)).1 = (t.step (.record op)).1 ∧
      Twins (s.step (.record op)).2 (t.step (.record op)).2 := by
  have hresults := Store.perform?_alike h.store op
  simp only [step]
  generalize s.store.perform? op = x at hresults ⊢
  generalize t.store.perform? op = y at hresults ⊢
  cases hresults with
  | refused e => exact ⟨rfl, h⟩
  | done halike => exact ⟨rfl, halike, h.inOrder, h.inOrder', h.isDisabled⟩

/-- **A step comes to the same on twins, and leaves twins.** -/
theorem step_twins {plans : List Plan} (h : Twins s t) (hsound : Sound plans s) (op : Op)
    (hsep : Separate (plans ++ s.askedBy op)) :
    (s.step op).1 = (t.step op).1 ∧ Twins (s.step op).2 (t.step op).2 := by
  cases op with
  | record op => exact record_twins h op
  | activate id account =>
    obtain ⟨hresult, htwins⟩ := activate_twins h id account
    exact ⟨congrArg Outcome.activated hresult, htwins⟩
  | deactivate id account =>
    obtain ⟨hresult, htwins⟩ := deactivate_twins h id account
    exact ⟨congrArg Outcome.deactivated hresult, htwins⟩
  | resolve r took =>
    refine ⟨congrArg Outcome.resolved (resolve_twins h hsound r took hsep), ?_⟩
    obtain ⟨hsstore, hsoutages, -, -⟩ := Resolve.resolve_snd s r took
    obtain ⟨htstore, htoutages, htenabled, -⟩ := Resolve.resolve_snd t r took
    refine ⟨?_, hsoutages.trans h.inOrder, htoutages.trans h.inOrder',
      htenabled.trans h.isDisabled⟩
    show (Resolve.resolve s r took).2.store.Alike (Resolve.resolve t r took).2.store
    rw [hsstore, htstore]
    exact h.store

theorem run_twins {plans : List Plan} (h : Twins s t) (hsound : Sound plans s) (ops : List Op)
    (hsep : Separate (plans ++ s.asked ops)) : (s.run ops).1 = (t.run ops).1 := by
  induction ops generalizing plans s t with
  | nil => rfl
  | cons op ops ih =>
    have hsep' : Separate ((plans ++ s.askedBy op) ++ (s.step op).2.asked ops) := by
      rw [List.append_assoc]
      exact hsep
    -- the plans so far grow by those of the step; soundness grows with them
    obtain ⟨houtcome, htwins⟩ := step_twins h hsound op hsep'.left
    show (s.step op).1 :: _ = (t.step op).1 :: _
    rw [houtcome, ih htwins (sound_step hsound op) hsep']

theorem twins_new (supply supply' : Supply) (isEnabled : Bool) :
    Twins (Service.new isEnabled supply) (Service.new false supply') :=
  ⟨Store.alike_refl _, rfl, rfl, rfl⟩

/-- **The cache is not seen.**  Two servers start without records and go through the same steps in
the same order: operations on the records, activations, their removal, and requests.  The second
one has no cache, and what it draws is its own.  If the keys of the run tell the plans of the run
apart by their texts, every step comes to the same on both, requests included.  And at every point
of the run each body that the cache holds for a plan of the run is what the store answers to it at
that point: no activation, removal or new mock makes a cached body stale. -/
theorem cache_transparent (ops : List Op) (supply supply' : Supply)
    (hsep : Separate ((Service.new true supply).asked ops)) :
    ((Service.new true supply).run ops).1 = ((Service.new false supply').run ops).1 ∧
    ∀ before, before <+: ops → ∀ p ∈ (Service.new true supply).asked ops, ∀ body,
      ((Service.new true supply).run before).2.cache.entries.get? p.cacheKey.toText = some body →
      Answers ((Service.new true supply).run before).2.store p body := by
  refine ⟨run_twins (twins_new supply supply' true) (sound_new true supply) ops hsep, ?_⟩
  -- a body held for `p` was answered to a plan of the same text, which is `p` itself
  rintro before ⟨later, rfl⟩ p hp body hbody
  rw [asked_append] at hsep hp
  have hsound := sound_run (sound_new true supply) before
  rw [List.nil_append] at hsound
  obtain ⟨q, hq, htext, hanswers⟩ := hsound _ (Dict.mem_of_get? hbody)
  have hqp : q = p :=
    Resolve.Plan.cacheKey_inj (hsep q (List.mem_append_left _ hq) p hp htext)
  rwa [hqp] at hanswers

/-- A request without a body. -/
def ping : Resolve.Request := ⟨.publicly, "/ping", none, "GET", [], none, some "health"⟩

/-- The plan of this request. -/
def pingPlan : Plan := ⟨none, ⟨"health", "up", "/ping", "GET", ""⟩⟩

/-- The request is sent twice, so that the second response comes from the cache. -/
def pings : List Op := [
  .record (.addScenario { (default : Scenario) with featureName := "health", name := "up" }),
  .activate default none,
  .record (.addMock (Mock.new default "health" "up" "/ping" "get" .null (.obj []))),
  .resolve ping default,
  .resolve ping default]

theorem asked_pings : (Service.new true default).asked pings = [pingPlan, pingPlan] := by
  decide +kernel

theorem separate_pings : Separate ((Service.new true default).asked pings) := by
  rw [asked_pings]
  intro p hp q hq _
  rw [List.mem_pair, or_self] at hp hq
  rw [hp, hq]

theorem pings_transparent :
    ((Service.new true default).run pings).1 = ((Service.new false ⟨7, default⟩).run pings).1 ∧
      ((Service.new true default).run pings).2.cache.counters.hits = 1 :=
  ⟨(cache_transparent pings default ⟨7, default⟩ separate_pings).1, by decide +kernel⟩

end MockServer.Service
