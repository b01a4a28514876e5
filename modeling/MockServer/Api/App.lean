/-
  MockServer.Api.App — the HTTP interface as a whole.

  A request goes through the rules for browsers and is given its mark
  before it is handled.  A path without a route is not found; a method
  that its endpoint does not take is refused, and the response says
  which ones it takes.  Last, a response is told the length of its body
  and, to some methods, goes out without it.

  Main definitions:
    * `Site` — the settings and the network of a server;
    * `State` — what changes from request to request;
    * `outgoing` — what of a response goes out;
    * `handle` — the response to a request.
-/
import MockServer.Api.Cors
import MockServer.Api.Forward
import MockServer.Api.Manage
import MockServer.Api.Status

namespace MockServer.Api

/-- The settings and the network of a server. -/
structure Site (σ : Type) where
  config : Config
  world : Http.World σ

/-- What changes from request to request. -/
structure State (σ : Type) where
  service : Service
  outside : σ
  deriving DecidableEq, Repr

variable {σ : Type}

def State.within (s : State σ) (handle : Service → Response × Service) : Response × State σ :=
  let (response, service) := handle s.service
  (response, { s with service })

/-! ## Endpoints -/

/-- Handles a request for an endpoint, given the decoded part of its path. -/
def serve (site : Site σ) (e : Endpoint) (part : String) (r : Request) (s : State σ) :
    Except ParameterError (Response × State σ) :=
  match e with
  | .health => .ok (Status.health, s)
  | .readiness => .ok (Status.readiness s.service, s)
  | .metrics => .ok (Status.metrics s.service, s)
  | .forward mode => .ok (s.within (Forward.answer mode part r))
  | .activeScenario => do
    let fields ← Manage.queryFields ["feature_name", "account_id"] r
    let feature := Manage.given fields "feature_name"
    return s.within (Manage.activeScenario feature (Manage.given fields "account_id"))
  | .activate => do
    let fields ← Manage.queryFields ["account_id"] r
    return s.within (Manage.activate part (Manage.given fields "account_id"))
  | .deactivate => do
    let fields ← Manage.queryFields ["account_id"] r
    return s.within (Manage.deactivate part (Manage.given fields "account_id"))
  | .loadTests => .ok (Manage.loadTests s.service, s)
  | .runLoadTest =>
    let (response, service, outside) :=
      Manage.runLoadTest site.world site.config.loadtest part s.service s.outside
    .ok (response, ⟨service, outside⟩)

/-- Handles a request on a route; parameters that make no sense are a fault of the request. -/
def onRoute (site : Site σ) (found : Found) (r : Request) (s : State σ) : Response × State σ :=
  match found.text.bind fun part => serve site found.route.endpoint part r s with
  | .ok answered => answered
  | .error e => (.plain 400 e.message, s)

/-! ## Layers -/

/-- Handles a request with its mark, if the settings say so. -/
def marked (x : Config.Server) (handle : Request → State σ → Response × State σ) (r : Request)
    (s : State σ) : Response × State σ :=
  if x.enableRequestId then
    -- the fresh mark is drawn even if the request brings one
    let (stamp, service) := s.service.draw
    RequestId.around stamp.id (fun r => handle r { s with service }) r
  else handle r s

/-- Handles a request by the rules for browsers, if the settings say so. -/
def layered (x : Config.Server) (handle : Request → State σ → Response × State σ) :
    Request → State σ → Response × State σ :=
  if x.enableCors then Cors.around x.cors (marked x handle) else marked x handle

/-! ## Requests -/

/-- Says which methods an endpoint takes, unless the response says so already. -/
def allowing (methods : List String) (r : Response) : Response :=
  if r.hasHeader "allow" then r else r.setHeader "allow" (",".intercalate methods)

/-- Says how long the body is, unless the response says so already. -/
def measured (r : Response) : Response :=
  if r.hasHeader "content-length" then r
  else r.setHeader "content-length" (Nat.repr (Text.Utf8.ofString r.body).length)

/-- What goes out of a response.  A success of `CONNECT` opens a tunnel and has no body, so its length
is not told; the response to `HEAD` has the length of the body that it leaves out. -/
def outgoing (method : String) (r : Response) : Response :=
  if method = "CONNECT" ∧ r.isSuccess then { r with body := "" }
  else if method = "HEAD" then { measured r with body := "" }
  else measured r

/-- The response to a request, with its body. -/
def respond (site : Site σ) (r : Request) (s : State σ) : Response × State σ :=
  let x := site.config.server
  match find? (routes x.apiPrefix) r.target.path with
  | none => layered x (fun _ s => (.empty 404, s)) r s
  | some found =>
    if found.route.endpoint.accepts r.method then layered x (onRoute site found) r s
    else
      -- a refusal goes through the same layers as a response
      let (response, s) := layered x (fun _ s => (.empty 405, s)) r s
      (allowing (found.route.endpoint.methods?.getD []) response, s)

def handle (site : Site σ) (r : Request) (s : State σ) : Response × State σ :=
  let (response, s) := respond site r s
  (outgoing r.method response, s)

end MockServer.Api
