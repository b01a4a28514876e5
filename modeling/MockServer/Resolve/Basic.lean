/-
  MockServer.Resolve.Basic — the response to a forwarded request.

  A request is first brought to a plan: who asks, which scenario
  answers, and the fingerprint of the body.  A plan names both the
  cached response and the mock to look up.  The cache is asked first;
  only the body of a mock goes into it, so a cached response has no
  headers of its own.

  Main definitions:
    * `plan` — what a request asks for, which changes nothing;
    * `answer` — the response to it;
    * `resolve` — the response, counted.
-/
import MockServer.Header.Sanitize
import MockServer.Resolve.Request
import MockServer.Resolve.Select

namespace MockServer.Resolve

/-! ## Plans -/

/-- What a request asks for. -/
structure Plan where
  account : Option String
  mock : MockKey
  deriving DecidableEq, Repr

def Plan.cacheKey (p : Plan) : Cache.Key :=
  ⟨p.mock.featureName, p.mock.scenarioName, p.account, p.mock.path, p.mock.method, p.mock.hash⟩

def given (value : Option String) : Option String := value.filter fun v => !v.isEmpty

def accountOf (r : Request) : Except ResolveError (Option String) :=
  match r.mode with
  | .publicly => .ok none
  | .authenticated =>
    match given r.account with
    | some account => .ok (some account)
    | none => .error (.badRequest "X-Account-Id required")

def featureOf (r : Request) : Except ResolveError String :=
  match given r.feature with
  | some feature => .ok feature
  | none => .error (.badRequest "X-Feature-Name required")

/-- The fingerprint of a body, which must be empty or a JSON object. -/
def fingerprintOf (body : List UInt8) : Except ResolveError String :=
  if body.isEmpty then .ok ""
  else
    match Json.parseBytes? body with
    | some (.obj _) => .ok (Fingerprint.ofBody body)
    | _ => .error (.badRequest "invalid JSON body")

def plan (s : Service) (r : Request) : Except ResolveError Plan := do
  let account ← accountOf r
  let feature ← featureOf r
  let selection ← select s feature account
  -- the body is looked at last: a missing scenario is reported first
  let hash ← fingerprintOf r.body
  return {
    account
    mock := {
      featureName := feature
      scenarioName := selection.scenario.name
      path := Url.Lookup.compose r.path r.query
      method := r.method
      hash } }

/-! ## Responses -/

def textMember? : String × Json → Option (String × String)
  | (name, .str value) => some (name, value)
  | _ => none

def textMembers? : Json → Option (Dict String)
  | .obj members => (members.mapM textMember?).map Dict.ofList
  | _ => none

/-- The response of a mock, whose output must be an object; headers that are not texts are left
out. -/
def respond (m : Mock) : Except ResolveError Response :=
  match m.output with
  | .obj _ =>
    let response := Response.json m.output.compact
    match m.headers.bind textMembers? with
    | none => .ok response
    | some headers =>
      .ok { response with headers := response.headers ++ (Header.clean headers).headers.entries }
  | _ => .error (.internal "failed to parse output")

/-- The cached body of a response, counted as found or not; a cache that fails has nothing. -/
def cached (s : Service) (key : String) : Option String × Service :=
  match s.readCache key with
  | (.ok (some body), s) => (some body, { s with metrics := s.metrics.cacheHit })
  | (_, s) => (none, { s with metrics := s.metrics.cacheMiss })

def countLookup (s : Service) (k : MockKey) (found : Bool) : Service :=
  { s with metrics := s.metrics.lookup ⟨k.featureName, k.scenarioName, found⟩ }

/-- The response of the store to a plan, which goes into the cache. -/
def lookUp (s : Service) (p : Plan) : Except ResolveError Response × Service :=
  match s.findMock p.mock with
  | .error e => (.error (.internal ("failed to query mock API: " ++ e.message)), s)
  | .ok none =>
    -- the error brings a trace identifier of its own
    let (stamp, s) := (countLookup s p.mock false).draw
    (.error (.mockNotFound stamp.id.toText), s)
  | .ok (some m) =>
    let s := countLookup s p.mock true
    match respond m with
    | .error e => (.error e, s)
    | .ok response => (.ok response, (s.writeCache p.cacheKey.toText response.body).2)

def answer (s : Service) (r : Request) : Except ResolveError Response × Service :=
  match plan s r with
  | .error e => (.error e, s)
  | .ok p =>
    match cached s p.cacheKey.toText with
    | (some body, s) => (.ok { Response.json body with isCached := true }, s)
    | (none, s) => lookUp s p

/-- The response to a request; how long it took is counted whatever comes of it. -/
def resolve (s : Service) (r : Request) (took : Duration) :
    Except ResolveError Response × Service :=
  let (result, s) := answer s r
  (result, { s with metrics := s.metrics.observe took })

end MockServer.Resolve
