/-
  MockServer.Proofs.Resolve.Ending — how a request can end, and what it
  leaves.

  A request ends in one of six ways, and each of them is told with all
  that it changes: without a plan; with the body that the cache holds;
  with a store that is out of order; without a mock; with a mock whose
  output is no object; with the response of a mock.  Only the last one
  writes, after everything that could fail.  So what a request leaves
  is read off its ending.

  Main definitions:
    * `Ending` — an answer together with the service it leaves;
    * `keepsWrites` — does a written body stay in the cache?

  Main results:
    * `ending_answer` — every request has an ending;
    * `resolve_eq_ok`, `activationFor_of_noActive` — where an answer
      comes from;
    * `resolve_snd` — the records stay, and one body comes in at most;
    * `resolve_frame` — what a request changes, and what a repeated one
      is answered.
-/
import MockServer.Proofs.Resolve.Basic

namespace MockServer.Resolve

/-! ## Writing the cache -/

/-- Does a written body stay in the cache? -/
def keepsWrites (s : Service) : Bool := s.cache.isEnabled && (s.outage? .writeCache).isNone

/-- The entries of the cache after a body was written. -/
def written (s : Service) (key body : String) : Dict String :=
  if keepsWrites s then s.cache.entries.insert key body else s.cache.entries

theorem writeCache_snd (s : Service) (key body : String) : ∃ counters,
    (s.writeCache key body).2
      = { s with cache := { s.cache with entries := written s key body, counters } } := by
  unfold Service.writeCache written keepsWrites Cache.set
  cases s.outage? .writeCache with
  | some detail =>
    rw [Option.isNone_some, Bool.and_false]
    exact ⟨s.cache.counters, rfl⟩
  | none =>
    rw [Option.isNone_none, Bool.and_true]
    by_cases henabled : s.cache.isEnabled = true
    · exact ⟨s.cache.counters.set, by simp only [if_pos henabled]⟩
    · exact ⟨s.cache.counters, by simp only [if_neg henabled]⟩

theorem get?_written {s : Service} (hkeeps : keepsWrites s = true) (key body : String) :
    (written s key body).get? key = some body := by
  rw [written, if_pos hkeeps]
  show (Dict.insertEntry key body s.cache.entries.entries).lookup key = _
  rw [Dict.lookup_insertEntry, if_pos rfl]

/-- A write brings in one entry at most, the one that is written. -/
theorem mem_written {s : Service} {key body : String} {e : String × String}
    (h : e ∈ (written s key body).entries) : e = (key, body) ∨ e ∈ s.cache.entries.entries := by
  unfold written at h
  by_cases hkeeps : keepsWrites s = true
  · rw [if_pos hkeeps] at h
    exact Dict.mem_insert h
  · rw [if_neg hkeeps] at h
    exact Or.inr h

/-! ## Endings -/

/-- An answer to a request, and the service that it leaves. -/
inductive Ending (s : Service) (r : Request) : Except ResolveError Response × Service → Prop where
  /-- The request has no plan. -/
  | refused {e : ResolveError} (hp : plan s r = .error e) : Ending s r (.error e, s)
  /-- The cache holds a body. -/
  | held {p : Plan} {body : String} (counters : Cache.Counters) (hp : plan s r = .ok p)
      (hheld : held s p.cacheKey.toText = some body) :
      Ending s r (.ok { Response.json body with isCached := true },
        { s with cache := { s.cache with counters }, metrics := s.metrics.cacheHit })
  /-- The store is out of order. -/
  | failed {p : Plan} {e : StoreError} (counters : Cache.Counters) (hp : plan s r = .ok p)
      (hheld : held s p.cacheKey.toText = none) (hfound : s.findMock p.mock = .error e) :
      Ending s r (.error (.internal ("failed to query mock API: " ++ e.message)),
        { s with cache := { s.cache with counters }, metrics := s.metrics.cacheMiss })
  /-- No mock answers. -/
  | missed {p : Plan} (counters : Cache.Counters) (hp : plan s r = .ok p)
      (hheld : held s p.cacheKey.toText = none) (hfound : s.findMock p.mock = .ok none) :
      Ending s r (.error (.mockNotFound s.supply.id.toText),
        { s with
          cache := { s.cache with counters }
          metrics := s.metrics.cacheMiss.lookup ⟨p.mock.featureName, p.mock.scenarioName, false⟩
          supply := s.supply.advance })
  /-- A mock is found whose output is no object. -/
  | broken {p : Plan} {m : Mock} {e : ResolveError} (counters : Cache.Counters)
      (hp : plan s r = .ok p) (hheld : held s p.cacheKey.toText = none)
      (hfound : s.findMock p.mock = .ok (some m)) (hrespond : respond m = .error e) :
      Ending s r (.error e,
        { s with
          cache := { s.cache with counters }
          metrics := s.metrics.cacheMiss.lookup ⟨p.mock.featureName, p.mock.scenarioName, true⟩ })
  /-- A mock is found and gives its response, the body of which is written. -/
  | served {p : Plan} {m : Mock} {x : Response} (counters : Cache.Counters)
      (hp : plan s r = .ok p) (hheld : held s p.cacheKey.toText = none)
      (hfound : s.findMock p.mock = .ok (some m)) (hrespond : respond m = .ok x) :
      Ending s r (.ok x,
        { s with
          cache := { s.cache with entries := written s p.cacheKey.toText x.body, counters }
          metrics := s.metrics.cacheMiss.lookup ⟨p.mock.featureName, p.mock.scenarioName, true⟩ })

/-- **Every request has an ending.** -/
theorem ending_answer (s : Service) (r : Request) : Ending s r (answer s r) := by
  cases hp : plan s r with
  | error e =>
    rw [answer_of_refused hp]
    exact .refused hp
  | ok p =>
    cases hheld : held s p.cacheKey.toText with
    | some body =>
      obtain ⟨counters, hcached⟩ := cached_of_held hheld
      rw [answer_of_held hp hheld, hcached]
      exact .held counters hp hheld
    | none =>
      obtain ⟨counters, hcached⟩ := cached_of_not_held hheld
      have hsame := findMock_cached s p.cacheKey.toText p.mock
      rw [hcached] at hsame
      rw [answer_of_not_held hp hheld, hcached]
      unfold lookUp
      rw [hsame]
      cases hfound : s.findMock p.mock with
      | error e => exact .failed counters hp hheld hfound
      | ok found =>
        cases found with
        | none => exact .missed counters hp hheld hfound
        | some m =>
          simp only
          cases hrespond : respond m with
          | error e => exact .broken counters hp hheld hfound hrespond
          | ok x =>
            obtain ⟨counters', hwritten⟩ := writeCache_snd (countLookup
              { s with cache := { s.cache with counters }, metrics := s.metrics.cacheMiss }
              p.mock true) p.cacheKey.toText x.body
            simp only [hwritten]
            exact .served counters' hp hheld hfound hrespond

/-- The time that a request took is counted last. -/
theorem resolve_eq (s : Service) (r : Request) (took : Duration) :
    resolve s r took = ((answer s r).1,
      { (answer s r).2 with metrics := (answer s r).2.metrics.observe took }) := rfl

/-! ## Where an answer comes from -/

/-- **A response comes from the cache or from a mock that the store finds.** -/
theorem resolve_eq_ok {s : Service} {r : Request} {took : Duration} {x : Response}
    (h : (resolve s r took).1 = .ok x) :
    (∃ p body, plan s r = .ok p ∧ held s p.cacheKey.toText = some body ∧
      x = { Response.json body with isCached := true }) ∨
    ∃ p m, plan s r = .ok p ∧ s.store.findMock p.mock = some m ∧ respond m = .ok x := by
  have hending := ending_answer s r
  rw [resolve_fst] at h
  generalize answer s r = out at hending h
  cases hending with
  | refused hp => exact absurd h nofun
  | failed counters hp hheld hfound => exact absurd h nofun
  | missed counters hp hheld hfound => exact absurd h nofun
  | broken counters hp hheld hfound hrespond => exact absurd h nofun
  | @held p body counters hp hheld =>
    exact Or.inl ⟨p, body, hp, hheld, (Except.ok.inj h).symm⟩
  | @served p m y counters hp hheld hfound hrespond =>
    exact Or.inr ⟨p, m, hp, findMock_eq_ok hfound, hrespond.trans h⟩

/-- **Resolving changes no record**, and the cache by one entry at most, which is what the store
answers to the plan of the request. -/
theorem resolve_snd (s : Service) (r : Request) (took : Duration) :
    (resolve s r took).2.store = s.store ∧ (resolve s r took).2.outages = s.outages ∧
    (resolve s r took).2.cache.isEnabled = s.cache.isEnabled ∧
    ∀ e ∈ (resolve s r took).2.cache.entries.entries, e ∈ s.cache.entries.entries ∨
      ∃ p, plan s r = .ok p ∧ p.cacheKey.toText = e.1 ∧ Answers s.store p e.2 := by
  have hending := ending_answer s r
  rw [resolve_eq s r took]
  generalize answer s r = out at hending ⊢
  cases hending with
  | refused hp => exact ⟨rfl, rfl, rfl, fun _ he => Or.inl he⟩
  | held counters hp hheld => exact ⟨rfl, rfl, rfl, fun _ he => Or.inl he⟩
  | failed counters hp hheld hfound => exact ⟨rfl, rfl, rfl, fun _ he => Or.inl he⟩
  | missed counters hp hheld hfound => exact ⟨rfl, rfl, rfl, fun _ he => Or.inl he⟩
  | broken counters hp hheld hfound hrespond => exact ⟨rfl, rfl, rfl, fun _ he => Or.inl he⟩
  | @served p m x counters hp hheld hfound hrespond =>
    refine ⟨rfl, rfl, rfl, fun e he => ?_⟩
    rcases mem_written he with rfl | hold
    · exact Or.inr ⟨p, hp, rfl, m, x, findMock_eq_ok hfound, hrespond, rfl⟩
    · exact Or.inl hold

/-- A plan depends on the records and on what is out of order. -/
theorem plan_congr {s t : Service} (hstore : t.store = s.store) (houtages : t.outages = s.outages)
    (r : Request) : plan t r = plan s r := by
  unfold plan select Service.activationFor Service.getScenario Service.ifInOrder Service.outage?
  rw [hstore, houtages]

/-- A request that comes back finds the body that its key has got. -/
theorem resolve_again {s t : Service} {r : Request} {p : Plan} {body : String}
    (hp : plan s r = .ok p) (hread : s.outage? .readCache = none) (hstore : t.store = s.store)
    (houtages : t.outages = s.outages) (henabled : t.cache.isEnabled = true)
    (hentry : t.cache.entries.get? p.cacheKey.toText = some body) (took : Duration) :
    (resolve t r took).1 = .ok { Response.json body with isCached := true } := by
  have hread' : t.outage? .readCache = none := by
    unfold Service.outage? at hread ⊢
    rw [houtages, hread]
  have hheld : held t p.cacheKey.toText = some body := (held_eq henabled hread' _).trans hentry
  rw [resolve_fst, answer_of_held ((plan_congr hstore houtages r).trans hp) hheld]

/-- **A request writes only on success.**  Whatever the records and the cache hold and whatever is
out of order, no record changes.  A refused request and one that is answered from the cache leave
the entries of the cache as they were; any other answer leaves them with its own body under the key
of the request, and as they were under all other keys.  The same request made again is then answered
with this body from the cache. -/
theorem resolve_frame (s : Service) (r : Request) (took : Duration) :
    (resolve s r took).2.store = s.store ∧
    (∀ e, (resolve s r took).1 = .error e →
      (resolve s r took).2.cache.entries = s.cache.entries) ∧
    ∀ x, (resolve s r took).1 = .ok x →
      (x.isCached = true → (resolve s r took).2.cache.entries = s.cache.entries) ∧
      (x.isCached = false → ∃ p, plan s r = .ok p ∧
        (resolve s r took).2.cache.entries = written s p.cacheKey.toText x.body) ∧
      (keepsWrites s = true → s.outage? .readCache = none → ∀ later,
        (resolve (resolve s r took).2 r later).1
          = .ok { Response.json x.body with isCached := true }) := by
  have hending := ending_answer s r
  rw [resolve_eq s r took]
  generalize answer s r = out at hending ⊢
  cases hending with
  | refused hp => exact ⟨rfl, fun _ _ => rfl, nofun⟩
  | failed counters hp hheld hfound => exact ⟨rfl, fun _ _ => rfl, nofun⟩
  | missed counters hp hheld hfound => exact ⟨rfl, fun _ _ => rfl, nofun⟩
  | broken counters hp hheld hfound hrespond => exact ⟨rfl, fun _ _ => rfl, nofun⟩
  | @held p body counters hp hheld =>
    refine ⟨rfl, nofun, fun x hx => ?_⟩
    obtain rfl := Except.ok.inj hx
    refine ⟨fun _ => rfl, nofun, fun hkeeps hread later => ?_⟩
    have henabled := (Bool.and_eq_true_iff.mp hkeeps).1
    rw [held_eq henabled hread] at hheld
    apply resolve_again hp hread
    · rfl
    · rfl
    · exact henabled
    · exact hheld
  | @served p m response counters hp hheld hfound hrespond =>
    refine ⟨rfl, nofun, fun x hx => ?_⟩
    obtain rfl := Except.ok.inj hx
    have hfresh : response.isCached ≠ true := by
      rw [isCached_respond hrespond]
      exact Bool.false_ne_true
    refine ⟨fun hcached => absurd hcached hfresh, fun _ => ⟨p, hp, rfl⟩,
      fun hkeeps hread later => ?_⟩
    have henabled := (Bool.and_eq_true_iff.mp hkeeps).1
    apply resolve_again hp hread
    · rfl
    · rfl
    · exact henabled
    · exact get?_written hkeeps _ _

/-- A server whose only mock answers a check of its status. -/
def statusServer : Service :=
  { Service.new true default with
    store := { Store.empty with
      scenarios := [{ (default : Scenario) with featureName := "health", name := "up" }]
      activations := [Activation.new default "health" default none]
      mocks := [Mock.new default "health" "up" "/status" "GET" .null (.obj [])] } }

def statusCheck : Request := ⟨.publicly, "/status", none, "GET", [], none, some "health"⟩

theorem statusCheck_again :
    (resolve statusServer statusCheck .zero).1 = .ok (Response.json "{}") ∧
    keepsWrites statusServer = true ∧ statusServer.outage? .readCache = none ∧
    (resolve (resolve statusServer statusCheck .zero).2 statusCheck .zero).1
      = .ok { Response.json "{}" with isCached := true } := by
  have hfirst : (resolve statusServer statusCheck .zero).1 = .ok (Response.json "{}") := by
    decide +kernel
  have hkeeps : keepsWrites statusServer = true := by decide
  obtain ⟨-, -, hok⟩ := resolve_frame statusServer statusCheck .zero
  exact ⟨hfirst, hkeeps, rfl, (hok _ hfirst).2.2 hkeeps rfl .zero⟩

end MockServer.Resolve
