/-
  MockServer.Proofs.Resolve.Basic — what a response depends on.

  One lemma for each stage of a response: the plan is made of four
  parts, the cache gives what it holds under the text of the key, and a
  look-up gives the response of the mock that the store finds.  Reading
  the cache changes counters only.

  Main results:
    * `plan_eq_ok`, `plan_eq_error` — the parts of a plan, and what a
      request without one is told;
    * `cached_of_held`, `cached_of_not_held` — reading the cache;
    * `lookUp_some`, `lookUp_none` — asking the store;
    * `answer_of_held`, `answer_of_not_held` — the two together.
-/
import MockServer.Proofs.Cache.Basic
import MockServer.Proofs.Sequence
import MockServer.Resolve.Basic

namespace MockServer.Resolve

/-! ## Plans -/

/-- **The parts of a plan**: an account, a feature, the selected scenario and a fingerprint. -/
theorem plan_eq_ok {s : Service} {r : Request} {p : Plan} :
    plan s r = .ok p ↔ ∃ account feature selection hash,
      accountOf r = .ok account ∧ featureOf r = .ok feature ∧
      select s feature account = .ok selection ∧ fingerprintOf r.body = .ok hash ∧
      p = ⟨account, feature, selection.scenario.name, Url.Lookup.compose r.path r.query, r.method,
        hash⟩ := by
  unfold plan
  constructor
  · intro h
    obtain ⟨account, haccount, h⟩ := bind_eq_ok.mp h
    obtain ⟨feature, hfeature, h⟩ := bind_eq_ok.mp h
    obtain ⟨selection, hselect, h⟩ := bind_eq_ok.mp h
    obtain ⟨hash, hhash, h⟩ := bind_eq_ok.mp h
    exact ⟨account, feature, selection, hash, haccount, hfeature, hselect, hhash,
      (Except.ok.inj h).symm⟩
  · rintro ⟨account, feature, selection, hash, haccount, hfeature, hselect, hhash, rfl⟩
    exact bind_eq_ok.mpr ⟨account, haccount, bind_eq_ok.mpr ⟨feature, hfeature,
      bind_eq_ok.mpr ⟨selection, hselect, bind_eq_ok.mpr ⟨hash, hhash, rfl⟩⟩⟩⟩

/-- The name of a cached response determines the plan. -/
theorem Plan.cacheKey_inj {p q : Plan} (h : p.cacheKey = q.cacheKey) : p = q := by
  unfold Plan.cacheKey at h
  rw [Cache.Key.mk.injEq] at h
  obtain ⟨hfeature, hscenario, haccount, hpath, hmethod, hhash⟩ := h
  obtain ⟨account, ⟨feature, scenario, path, method, hash⟩⟩ := p
  simp only at hfeature hscenario haccount hpath hmethod hhash
  subst hfeature hscenario haccount hpath hmethod hhash
  rfl

/-! ## Requests without a plan -/

theorem accountOf_eq_error {r : Request} {e : ResolveError} (h : accountOf r = .error e) :
    ∃ message, e = .badRequest message := by
  unfold accountOf at h
  split at h
  next => exact absurd h nofun
  next =>
    split at h
    next => exact absurd h nofun
    next => exact ⟨_, (Except.error.inj h).symm⟩

theorem featureOf_eq_error {r : Request} {e : ResolveError} (h : featureOf r = .error e) :
    ∃ message, e = .badRequest message := by
  unfold featureOf at h
  split at h
  next => exact absurd h nofun
  next => exact ⟨_, (Except.error.inj h).symm⟩

theorem fingerprintOf_eq_error {body : List UInt8} {e : ResolveError}
    (h : fingerprintOf body = .error e) : ∃ message, e = .badRequest message := by
  unfold fingerprintOf at h
  split at h
  next => exact absurd h nofun
  next =>
    split at h
    next => exact absurd h nofun
    next => exact ⟨_, (Except.error.inj h).symm⟩

/-- No scenario is selected where none is active, and where the records are broken. -/
theorem select_eq_error {s : Service} {feature : String} {account : Option String}
    {e : ResolveError} (h : select s feature account = .error e) :
    (e = .noActiveScenario feature ∧ s.activationFor feature account = .ok none) ∨
      ∃ message, e = .internal message := by
  unfold select at h
  split at h
  next => exact Or.inr ⟨_, (Except.error.inj h).symm⟩
  next hnone => exact Or.inl ⟨(Except.error.inj h).symm, hnone⟩
  next =>
    split at h
    next => exact Or.inr ⟨_, (Except.error.inj h).symm⟩
    next => exact Or.inr ⟨_, (Except.error.inj h).symm⟩
    next => exact absurd h nofun

/-- **A request without a plan** is at fault itself, or no scenario is selected for it. -/
theorem plan_eq_error {s : Service} {r : Request} {e : ResolveError} (h : plan s r = .error e) :
    (∃ message, e = .badRequest message) ∨
      ∃ feature account, select s feature account = .error e := by
  unfold plan at h
  rcases bind_eq_error.mp h with haccount | ⟨account, -, h⟩
  · exact Or.inl (accountOf_eq_error haccount)
  rcases bind_eq_error.mp h with hfeature | ⟨feature, -, h⟩
  · exact Or.inl (featureOf_eq_error hfeature)
  rcases bind_eq_error.mp h with hselect | ⟨selection, -, h⟩
  · exact Or.inr ⟨feature, account, hselect⟩
  rcases bind_eq_error.mp h with hhash | ⟨hash, -, h⟩
  · exact Or.inl (fingerprintOf_eq_error hhash)
  · exact absurd h nofun

/-- A request without a plan is not told that there is no mock. -/
theorem plan_ne_mockNotFound (s : Service) (r : Request) (id : String) :
    plan s r ≠ .error (.mockNotFound id) := by
  intro h
  rcases plan_eq_error h with ⟨message, hbad⟩ | ⟨feature, account, hselect⟩
  · exact absurd hbad nofun
  · rcases select_eq_error hselect with ⟨hnone, -⟩ | ⟨message, hinternal⟩
    · exact absurd hnone nofun
    · exact absurd hinternal nofun

/-! ## Reading the cache -/

/-- The body that the cache gives for a key. -/
def held (s : Service) (key : String) : Option String :=
  if (s.outage? .readCache).isSome then none
  else if s.cache.isEnabled then s.cache.entries.get? key else none

/-- What the cache holds is found, if the cache is on and its reads are in order. -/
theorem held_eq {s : Service} (henabled : s.cache.isEnabled = true)
    (hread : s.outage? .readCache = none) (key : String) :
    held s key = s.cache.entries.get? key := by
  unfold held
  rw [hread, henabled]
  rfl

/-- What is held is an entry of the cache. -/
theorem mem_of_held {s : Service} {key body : String} (h : held s key = some body) :
    (key, body) ∈ s.cache.entries.entries := by
  unfold held at h
  split at h
  next => exact absurd h nofun
  next =>
    split at h
    next => exact Dict.mem_of_get? h
    next => exact absurd h nofun

theorem cached_of_held {s : Service} {key body : String} (h : held s key = some body) :
    ∃ counters, cached s key = (some body,
      { s with cache := { s.cache with counters }, metrics := s.metrics.cacheHit }) := by
  unfold held at h
  unfold cached Service.readCache Cache.get
  cases houtage : s.outage? .readCache with
  | some detail => simp [houtage] at h
  | none =>
    simp only [houtage, Option.isSome_none, Bool.false_eq_true, if_false] at h
    rw [h]
    exact ⟨_, rfl⟩

theorem cached_of_not_held {s : Service} {key : String} (h : held s key = none) :
    ∃ counters, cached s key = (none,
      { s with cache := { s.cache with counters }, metrics := s.metrics.cacheMiss }) := by
  unfold held at h
  unfold cached Service.readCache Cache.get
  cases houtage : s.outage? .readCache with
  | some detail => exact ⟨s.cache.counters, rfl⟩
  | none =>
    simp only [houtage, Option.isSome_none, Bool.false_eq_true, if_false] at h
    rw [h]
    exact ⟨_, rfl⟩

/-! ## Responses of mocks -/

theorem respond_eq_error {m : Mock} {e : ResolveError} (h : respond m = .error e) :
    e = .internal "failed to parse output" := by
  unfold respond at h
  split at h
  next =>
    simp only at h
    split at h <;> cases h
  next => exact (Except.error.inj h).symm

/-- A mock with an object as its output has a response with this body. -/
theorem respond_of_object {m : Mock} {members : List (String × Json)}
    (h : m.output = .obj members) : ∃ response, respond m = .ok response ∧
      response.body = m.output.compact ∧ response.isCached = false := by
  unfold respond
  rw [h]
  simp only
  cases m.headers.bind textMembers? with
  | none => exact ⟨_, rfl, rfl, rfl⟩
  | some headers => exact ⟨_, rfl, rfl, rfl⟩

/-- The response of a mock is a fresh one. -/
theorem isCached_respond {m : Mock} {x : Response} (hx : respond m = .ok x) :
    x.isCached = false := by
  unfold respond at hx
  split at hx
  next =>
    split at hx
    next => rw [← Except.ok.inj hx]; rfl
    next => rw [← Except.ok.inj hx]; rfl
  next => exact absurd hx nofun

/-! ## Asking the store -/

theorem findMock_of_inOrder {s : Service} (h : s.outage? .findMock = none) (k : MockKey) :
    s.findMock k = .ok (s.store.findMock k) := by
  unfold Service.findMock Service.ifInOrder
  rw [h]

/-- What is found is found in the store. -/
theorem findMock_eq_ok {s : Service} {k : MockKey} {found : Option Mock}
    (h : s.findMock k = .ok found) : s.store.findMock k = found := by
  unfold Service.findMock Service.ifInOrder at h
  split at h
  next => exact absurd h (by simp)
  next => exact Except.ok.inj h

/-- Reading the cache does not change what the store finds. -/
theorem findMock_cached (s : Service) (key : String) (k : MockKey) :
    (cached s key).2.findMock k = s.findMock k := by
  cases hheld : held s key with
  | some body =>
    obtain ⟨counters, hcached⟩ := cached_of_held hheld
    rw [hcached]
    rfl
  | none =>
    obtain ⟨counters, hcached⟩ := cached_of_not_held hheld
    rw [hcached]
    rfl

/-- A look-up that finds nothing brings a trace identifier. -/
theorem lookUp_none {s : Service} {p : Plan} (h : s.findMock p.mock = .ok none) :
    (lookUp s p).1 = .error (.mockNotFound s.supply.id.toText) := by
  unfold lookUp
  rw [h]
  rfl

/-- **A look-up that finds a mock gives its response.** -/
theorem lookUp_some {s : Service} {p : Plan} {m : Mock} (h : s.findMock p.mock = .ok (some m)) :
    (lookUp s p).1 = respond m := by
  unfold lookUp
  rw [h]
  simp only
  cases respond m with
  | error e => rfl
  | ok response => rfl

/-- The store answers a plan with a body. -/
def Answers (store : Store) (p : Plan) (body : String) : Prop :=
  ∃ m response, store.findMock p.mock = some m ∧ respond m = .ok response ∧ response.body = body

/-! ## Answers -/

theorem answer_of_refused {s : Service} {r : Request} {e : ResolveError}
    (h : plan s r = .error e) : answer s r = (.error e, s) := by
  unfold answer
  rw [h]

/-- A held body is the response. -/
theorem answer_of_held {s : Service} {r : Request} {p : Plan} {body : String}
    (hp : plan s r = .ok p) (h : held s p.cacheKey.toText = some body) :
    answer s r = (.ok { Response.json body with isCached := true },
      (cached s p.cacheKey.toText).2) := by
  obtain ⟨counters, hcached⟩ := cached_of_held h
  unfold answer
  rw [hp]
  simp only [hcached]

/-- Nothing held, the store is asked. -/
theorem answer_of_not_held {s : Service} {r : Request} {p : Plan}
    (hp : plan s r = .ok p) (h : held s p.cacheKey.toText = none) :
    answer s r = lookUp (cached s p.cacheKey.toText).2 p := by
  obtain ⟨counters, hcached⟩ := cached_of_not_held h
  unfold answer
  rw [hp]
  simp only [hcached]

theorem resolve_fst (s : Service) (r : Request) (took : Duration) :
    (resolve s r took).1 = (answer s r).1 := rfl

/-- **Nothing held, a mock that the store finds gives the response.** -/
theorem resolve_of_found {s : Service} {r : Request} {p : Plan} {m : Mock}
    (hp : plan s r = .ok p) (hheld : held s p.cacheKey.toText = none)
    (horder : s.outage? .findMock = none) (hfound : s.store.findMock p.mock = some m)
    (took : Duration) : (resolve s r took).1 = respond m := by
  -- the miss is counted before the store is asked
  have hlook : (cached s p.cacheKey.toText).2.findMock p.mock = .ok (some m) := by
    rw [findMock_cached, findMock_of_inOrder horder, hfound]
  rw [resolve_fst, answer_of_not_held hp hheld, lookUp_some hlook]

end MockServer.Resolve
