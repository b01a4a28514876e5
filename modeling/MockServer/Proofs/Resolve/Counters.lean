/-
  MockServer.Proofs.Resolve.Counters — the counters of a run of
  requests.

  Requests come one after the other.  Between two of them anything may
  happen to the records and to the cache: other records, entries that
  expire, are evicted or come from elsewhere.  A request sees of a cache
  only what it gives back for the key, so a cache that is anything
  whenever a request comes stands for every kind of cache.  The counters
  alone go on from request to request.

  Each ending of a request adds its own to the counters, so they are
  told from the answers that were given.

  Main definitions:
    * `Turn`, `Served`, `serve` — a run, and what each request met and
      was answered;
    * `Tells` — counters that agree with the answers of a run;

  Main results:
    * `counted_resolve` — what one request adds;
    * `tells_resolve` — one request keeps the agreement;
    * `counters_conserved` — so does every run.
-/
import MockServer.Proofs.Metrics
import MockServer.Proofs.Resolve.Ending

namespace MockServer.Resolve

/-! ## Runs -/

/-- A request, and what happens to the records and the cache before it comes. -/
structure Turn where
  before : Store → Cache → Store × Cache
  request : Request
  took : Duration

/-- The service that the request of a turn meets. -/
def Turn.meets (t : Turn) (s : Service) : Service :=
  { s with store := (t.before s.store s.cache).1, cache := (t.before s.store s.cache).2 }

/-- A request with the service it met and what it was answered. -/
structure Served where
  met : Service
  request : Request
  result : Except ResolveError Response

namespace Served

/-- Does the answer come from the cache? -/
def isCached (x : Served) : Bool :=
  match x.result with
  | .ok response => response.isCached
  | .error _ => false

/-- Did the request get past the checks of its headers, the selection of a scenario and the check of
its body? -/
def isPlanned (x : Served) : Bool := (plan x.met x.request).toOption.isSome

/-- Was the request told that there is no mock? -/
def isMissing (x : Served) : Bool :=
  match x.result with
  | .ok _ => false
  | .error e => e.code == "ERR.001"

variable {s : Service} {r : Request}

theorem isPlanned_of_ok {p : Plan} (hp : plan s r = .ok p)
    (result : Except ResolveError Response) : isPlanned ⟨s, r, result⟩ = true := by
  unfold isPlanned
  rw [hp]
  rfl

theorem isPlanned_of_error {e : ResolveError} (hp : plan s r = .error e)
    (result : Except ResolveError Response) : isPlanned ⟨s, r, result⟩ = false := by
  unfold isPlanned
  rw [hp]
  rfl

theorem isMissing_error {e : ResolveError} (h : ∀ id, e ≠ .mockNotFound id) :
    isMissing ⟨s, r, .error e⟩ = false := by
  cases e with
  | mockNotFound id => exact absurd rfl (h id)
  | badRequest message => rfl
  | noActiveScenario feature => rfl
  | internal message => rfl
  | unavailable message => rfl

end Served

/-- The requests of a run with their answers, and the service after them. -/
def serve (s : Service) : List Turn → List Served × Service
  | [] => ([], s)
  | t :: ts =>
    let (result, after) := resolve (t.meets s) t.request t.took
    (⟨t.meets s, t.request, result⟩ :: (serve after ts).1, (serve after ts).2)

theorem length_serve (s : Service) (ts : List Turn) : (serve s ts).1.length = ts.length := by
  induction ts generalizing s with
  | nil => rfl
  | cons t ts ih => exact congrArg (· + 1) (ih _)

/-! ## One request -/

/-- What a request adds to the counters: is its answer cached, had it a plan, and was there no
mock? -/
structure Counted (cached planned missing : Bool) (before after : Metrics) : Prop where
  total : after.durations.total = before.durations.total + 1
  hits : after.cacheHits = before.cacheHits + if cached then 1 else 0
  reads : after.cacheHits + after.cacheMisses
    = before.cacheHits + before.cacheMisses + if planned then 1 else 0
  /-- A request that misses looks up a mock. -/
  lookups : after.lookupsFound + after.lookupsNotFound + before.cacheMisses
    = before.lookupsFound + before.lookupsNotFound + after.cacheMisses
  missing : after.lookupsNotFound = before.lookupsNotFound + if missing then 1 else 0

variable (m : Metrics) (took : Duration)

theorem counted_refused : Counted false false false m (m.observe took) := ⟨rfl, rfl, rfl, rfl, rfl⟩

theorem counted_held : Counted true true false m (m.cacheHit.observe took) :=
  ⟨rfl, rfl, Nat.add_right_comm _ _ _, rfl, rfl⟩

theorem counted_lookup (l : LookupLabel) :
    Counted false true (!l.found) m ((m.cacheMiss.lookup l).observe took) := by
  refine ⟨rfl, rfl, rfl, ?_, ?_⟩
  · show m.lookupsFound + (if l.found then 1 else 0) + (m.lookupsNotFound + if l.found then 0 else 1)
      + m.cacheMisses = m.lookupsFound + m.lookupsNotFound + (m.cacheMisses + 1)
    cases l.found <;> simp only [Bool.false_eq_true, if_false, if_true] <;> omega
  · show m.lookupsNotFound + (if l.found then 0 else 1) = _
    cases l.found <;> rfl

variable {s : Service}

/-- **What a request adds to the counters** is told from its answer. -/
theorem counted_resolve (horder : s.outage? .findMock = none) (r : Request) :
    let x : Served := ⟨s, r, (resolve s r took).1⟩
    Counted x.isCached x.isPlanned x.isMissing s.metrics (resolve s r took).2.metrics := by
  have hending := ending_answer s r
  rw [resolve_eq s r took]
  generalize answer s r = out at hending ⊢
  cases hending with
  | refused hp =>
    have hmissing := Served.isMissing_error (s := s) (r := r) fun id heq =>
      plan_ne_mockNotFound s r id (heq ▸ hp)
    simp only [Served.isPlanned_of_error hp, hmissing]
    exact counted_refused _ _
  | held counters hp hheld =>
    simp only [Served.isPlanned_of_ok hp]
    exact counted_held _ _
  | failed counters hp hheld hfound =>
    -- a look-up that is in order does not fail
    rw [findMock_of_inOrder horder] at hfound
    exact absurd hfound nofun
  | @missed p counters hp hheld hfound =>
    simp only [Served.isPlanned_of_ok hp]
    exact counted_lookup s.metrics took ⟨p.mock.featureName, p.mock.scenarioName, false⟩
  | @broken p mock e counters hp hheld hfound hrespond =>
    obtain rfl := respond_eq_error hrespond
    simp only [Served.isPlanned_of_ok hp]
    exact counted_lookup s.metrics took ⟨p.mock.featureName, p.mock.scenarioName, true⟩
  | @served p mock response counters hp hheld hfound hrespond =>
    have hcached : Served.isCached ⟨s, r, .ok response⟩ = false := isCached_respond hrespond
    simp only [Served.isPlanned_of_ok hp, hcached]
    exact counted_lookup s.metrics took ⟨p.mock.featureName, p.mock.scenarioName, true⟩

/-- Every counter of a request keeps the others in agreement. -/
theorem consistent_resolve (h : s.metrics.Consistent) (r : Request) :
    (resolve s r took).2.metrics.Consistent := by
  have hending := ending_answer s r
  rw [resolve_eq s r took]
  generalize answer s r = out at hending ⊢
  cases hending with
  | refused hp => exact h.observe took
  | held counters hp hheld => exact h.cacheHit.observe took
  | failed counters hp hheld hfound => exact h.cacheMiss.observe took
  | missed counters hp hheld hfound => exact (h.cacheMiss.lookup _).observe took
  | broken counters hp hheld hfound hrespond => exact (h.cacheMiss.lookup _).observe took
  | served counters hp hheld hfound hrespond => exact (h.cacheMiss.lookup _).observe took

/-! ## Runs of requests -/

/-- Do the counters agree with the answers of a run? -/
structure Tells (served : List Served) (m : Metrics) : Prop where
  total : m.durations.total = served.length
  hits : m.cacheHits = served.countP Served.isCached
  reads : m.cacheHits + m.cacheMisses = served.countP Served.isPlanned
  lookups : m.lookupsFound + m.lookupsNotFound = m.cacheMisses
  missing : m.lookupsNotFound = served.countP Served.isMissing

theorem Tells.concat {served : List Served} {m n : Metrics} (h : Tells served m) {x : Served}
    (hx : Counted x.isCached x.isPlanned x.isMissing m n) : Tells (served ++ [x]) n := by
  constructor
  · rw [hx.total, h.total, List.length_append, List.length_singleton]
  · rw [hx.hits, h.hits, List.countP_append, List.countP_singleton]
  · rw [hx.reads, h.reads, List.countP_append, List.countP_singleton]
  · have hlookups := hx.lookups
    have hbefore := h.lookups
    omega
  · rw [hx.missing, h.missing, List.countP_append, List.countP_singleton]

/-- **A run keeps the agreement**, whatever happens between its requests. -/
theorem tells_serve {served : List Served} (h : Tells served s.metrics)
    (hconsistent : s.metrics.Consistent) (horder : s.outage? .findMock = none) (ts : List Turn) :
    Tells (served ++ (serve s ts).1) (serve s ts).2.metrics ∧
      (serve s ts).2.metrics.Consistent := by
  induction ts generalizing s served with
  | nil =>
    rw [serve, List.append_nil]
    exact ⟨h, hconsistent⟩
  | cons t ts ih =>
    -- what happens before the request changes no counter, and puts nothing out of order
    have hmeets : (t.meets s).outage? .findMock = none := horder
    have hcounted := counted_resolve t.took hmeets t.request
    have hkept := consistent_resolve t.took (s := t.meets s) hconsistent t.request
    obtain ⟨-, houtages, -, -⟩ := resolve_snd (t.meets s) t.request t.took
    have hafter : (resolve (t.meets s) t.request t.took).2.outage? .findMock = none := by
      unfold Service.outage? at hmeets ⊢
      rw [houtages, hmeets]
    have hrest := ih (h.concat hcounted) hkept hafter
    rw [List.append_assoc, List.singleton_append] at hrest
    exact hrest

theorem tells_new : Tells [] Metrics.new := ⟨rfl, rfl, rfl, rfl, rfl⟩

/-- **The counters of a run are conserved.**  Requests come one after the other to a service whose
counters are new and whose look-ups are in order; before each of them anything may happen to the
records and to the cache.  The counters then tell the run: one observation for each request, each in
one bucket; a hit for each answer from the cache, and a read of the cache for each request that got
past the checks of its headers, the selection of its scenario and the check of its body; a look-up
for each read that found nothing, and one without a mock for each request that was told so.  The
labels of the look-ups increase, so none is there twice, their counts are positive, and those of a
status add up to its counter. -/
theorem counters_conserved (hnew : s.metrics = .new) (horder : s.outage? .findMock = none)
    (ts : List Turn) :
    let served := (serve s ts).1
    let m := (serve s ts).2.metrics
    m.durations.total = ts.length ∧ m.durations.counts.sum = m.durations.total ∧
    m.cacheHits = served.countP Served.isCached ∧
    m.cacheHits + m.cacheMisses = served.countP Served.isPlanned ∧
    m.lookupsFound + m.lookupsNotFound = m.cacheMisses ∧
    m.lookupsNotFound = served.countP Served.isMissing ∧
    (m.lookups.map fun e => e.1.key).Pairwise (· < ·) ∧
    (∀ e ∈ m.lookups, 0 < e.2) ∧
    countOf "found" m.lookups = m.lookupsFound ∧
    countOf "not_found" m.lookups = m.lookupsNotFound := by
  have hstart : Tells [] s.metrics := by
    rw [hnew]
    exact tells_new
  have hconsistent : s.metrics.Consistent := by
    rw [hnew]
    exact Metrics.consistent_new
  obtain ⟨htells, hkept⟩ := tells_serve hstart hconsistent horder ts
  rw [List.nil_append] at htells
  exact ⟨htells.total.trans (length_serve s ts), hkept.durations.sum_eq, htells.hits, htells.reads,
    htells.lookups, htells.missing, List.pairwise_map.mpr hkept.increasing, hkept.positive,
    hkept.found, hkept.notFound⟩

/-- A request is answered by the store and then from the cache; the mock is lost together with the
cache; and a request comes without its feature. -/
def mixedTurns : List Turn := [
  ⟨fun store cache => (store, cache), statusCheck, .zero⟩,
  ⟨fun store cache => (store, cache), statusCheck, .zero⟩,
  ⟨fun store _ => ({ store with mocks := [] }, .new false), statusCheck, .ofMillis 2⟩,
  ⟨fun store cache => (store, cache), { statusCheck with feature := none }, .zero⟩]

theorem mixedTurns_counted :
    statusServer.metrics = .new ∧ statusServer.outage? .findMock = none ∧
    let m := (serve statusServer mixedTurns).2.metrics
    m.durations.total = 4 ∧ m.cacheHits = 1 ∧ m.cacheHits + m.cacheMisses = 3 ∧
    m.lookupsFound + m.lookupsNotFound = m.cacheMisses ∧ m.lookupsNotFound = 1 := by
  have hcached : (serve statusServer mixedTurns).1.countP Served.isCached = 1 := by decide +kernel
  have hplanned : (serve statusServer mixedTurns).1.countP Served.isPlanned = 3 := by
    decide +kernel
  have hmissing : (serve statusServer mixedTurns).1.countP Served.isMissing = 1 := by
    decide +kernel
  obtain ⟨htotal, -, hhits, hreads, hlookups, hnone, -⟩ :=
    counters_conserved (s := statusServer) rfl rfl mixedTurns
  exact ⟨rfl, rfl, htotal, hhits.trans hcached, hreads.trans hplanned, hlookups,
    hnone.trans hmissing⟩

end MockServer.Resolve
