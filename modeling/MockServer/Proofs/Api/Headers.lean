/-
  MockServer.Proofs.Api.Headers — the headers of a mock on their way to
  the client.

  A mock's headers are cleaned, set in the order of their names behind
  the default content type, and pass through the layers.  So of the
  headers of one name the last one reaches the client, unless the
  layers decide what is said under this name.  The cache holds bodies
  only: a response that comes from it has the default content type and
  nothing of the mock's headers.

  Main definitions:
    * `Carries` — a response with the headers of a mock;
    * `Bare` — a response with none;
    * `FromStore`, `FromCache` — where a response comes from.

  Main results:
    * `values_render` — of the headers of one name the last one is set;
    * `mock_headers_reach_client` — the headers of a response from the
      store, and of one from the cache.
-/
import MockServer.Proofs.Api.Layers
import MockServer.Proofs.Header.Sanitize
import MockServer.Proofs.Resolve.Ending
import MockServer.Proofs.Service.Run

namespace MockServer.Api

open Header (Fields isLegal lastNamed lastNamed_append lastNamed_cons lastNamed_eq_none_iff
  lastNamed_filter)
open Resolve (isCached_respond)

variable {σ : Type}

/-! ## Setting headers -/

/-- Are the values of headers legal? -/
def Legal (headers : List (String × String)) : Prop :=
  ∀ h ∈ headers, Header.isValue (Text.Utf8.ofString h.2) = true

/-- Headers that are not legal are passed over. -/
theorem setHeaders_eq_setAll (headers : List (String × String)) (fs : Fields) :
    Forward.setHeaders headers fs = fs.setAll (headers.filter isLegal) := by
  induction headers generalizing fs with
  | nil => rfl
  | cons h headers ih =>
    obtain ⟨name, value⟩ := h
    rw [Forward.setHeaders, List.filter_cons]
    by_cases hlegal : isLegal (name, value) = true
    · rw [if_pos hlegal]
      exact (if_pos hlegal).trans (ih _)
    · rw [if_neg hlegal]
      exact (if_neg hlegal).trans (ih _)

/-- **Of the headers of a legal name the last one is set**; without one, the name has the values it
had. -/
theorem values_setHeaders {name : String} (hname : Header.isName name = true)
    {headers : List (String × String)} (hlegal : Legal headers) (fs : Fields) :
    (Forward.setHeaders headers fs).values name
      = ((lastNamed name headers).map fun h => [Text.Utf8.ofString h.2]).getD (fs.values name) := by
  rw [setHeaders_eq_setAll, Fields.values_setAll, lastNamed_filter]
  intro h hh hsame
  rw [isLegal, Header.isName_congr hsame, hname, hlegal h hh]
  rfl

theorem values_render {name : String} (hname : Header.isName name = true) {x : Resolve.Response}
    (hlegal : Legal x.headers) :
    (Forward.render x).headers.values name
      = ((lastNamed name x.headers).map fun h => [Text.Utf8.ofString h.2]).getD [] :=
  values_setHeaders hname hlegal []

/-! ## Responses of mocks -/

/-- The default content type. -/
def jsonType : String × String := ("Content-Type", "application/json")

theorem legal_jsonType : Header.isValue (Text.Utf8.ofString jsonType.2) = true := by
  decide

/-- Clean values are legal. -/
theorem legal_clean (headers : Dict String) :
    Legal (jsonType :: (Header.clean headers).headers.entries) := by
  rw [Legal, List.forall_mem_cons]
  refine ⟨legal_jsonType, ?_⟩
  intro h hh
  obtain ⟨e, -, rfl⟩ := List.mem_map.mp hh
  exact Header.isValue_cleanValue e.2

/-- A mock's response has its clean headers behind the default content type. -/
theorem headers_respond {m : Mock} {x : Resolve.Response} {headers : Dict String}
    (hx : Resolve.respond m = .ok x) (hheaders : m.headers.bind Resolve.textMembers? = some headers) :
    x.headers = jsonType :: (Header.clean headers).headers.entries := by
  unfold Resolve.respond at hx
  split at hx
  next =>
    rw [hheaders] at hx
    rw [← Except.ok.inj hx]
    rfl
  next => exact absurd hx nofun

/-! ## What reaches the client -/

/-- Fields with the headers of a mock: of the headers of a legal name the last one, in the order of
the names, unless the layers decide what is said under it; behind a `vary` stands that of the
layers.  And the default content type if there is no other. -/
structure Carries (headers : Dict String) (fs : Fields) : Prop where
  each : ∀ before name value after, headers.entries = before ++ (name, value) :: after →
    Header.isName name = true → ¬ IsLayered name →
    (∀ later ∈ after, Text.sameFold later.1 name = false) →
    fs.values name = Text.Utf8.ofString value :: Fields.values Cors.varying name
  contentType : (∀ h ∈ headers.entries, Text.sameFold h.1 "content-type" = false) →
    fs.values "content-type" = [Text.Utf8.ofString "application/json"]

/-- Fields with the default content type, and nothing under any other legal name but what the
layers say, and how long the body is. -/
def Bare (fs : Fields) : Prop := ∀ name, Header.isName name = true → ¬ IsLayered name →
  Text.sameFold "content-length" name = false →
  fs.values name
    = (if Text.sameFold "content-type" name then [Text.Utf8.ofString "application/json"] else [])
      ++ Fields.values Cors.varying name

/-- Fields with what the layers say about a request. -/
structure Marked (mark : RequestId) (fs : Fields) : Prop where
  mark : fs.values RequestId.headerName = [mark.bytes]
  readers : fs.values "access-control-allow-origin" = [Text.Utf8.ofString "*"]
  readable : fs.values "access-control-expose-headers" = [Text.Utf8.ofString RequestId.headerName]

theorem carries_outgoing {x : Resolve.Response} {headers : Dict String}
    (hx : x.headers = jsonType :: (Header.clean headers).headers.entries) (s : State σ)
    (r : Request) : Carries (Header.clean headers).headers
      (outgoing r.method (told s r (Forward.render x))).headers := by
  have hlegal : Legal x.headers := hx ▸ legal_clean headers
  refine ⟨?_, ?_⟩
  · intro before name value after hsplit hname hlayer hlater
    have hself : Text.sameFold name name = true := Text.sameFold_iff.mpr rfl
    have hlast : lastNamed name x.headers = some (name, value) := by
      rw [hx, hsplit, ← List.cons_append, lastNamed_append, lastNamed_cons,
        lastNamed_eq_none_iff.mpr hlater, if_pos hself]
      rfl
    have htold : (told s r (Forward.render x)).headers.values name
        = Text.Utf8.ofString value :: Fields.values Cors.varying name := by
      rw [values_told hlayer, values_render hname hlegal, hlast]
      rfl
    rw [values_outgoing (Or.inr (htold ▸ List.cons_ne_nil _ _)), htold]
  · intro hother
    have hlast : lastNamed "content-type" x.headers = some jsonType := by
      rw [hx, lastNamed_cons, lastNamed_eq_none_iff.mpr hother]
      decide
    rw [values_outgoing (Or.inl (by decide)), values_told (by decide),
      values_render (by decide) hlegal, hlast]
    rfl

theorem bare_outgoing (body : String) (s : State σ) (r : Request) :
    Bare (outgoing r.method
      (told s r (Forward.render { Resolve.Response.json body with isCached := true }))).headers := by
  have hlegal : Legal [jsonType] := by
    rw [Legal, List.forall_mem_singleton]
    exact legal_jsonType
  intro name hname hlayer hlength
  have hlast : lastNamed name [jsonType]
      = if Text.sameFold jsonType.1 name then some jsonType else none :=
    List.find?_singleton
  have hcase : Text.sameFold jsonType.1 name = Text.sameFold "content-type" name :=
    Text.sameFold_congr_left (by decide) name
  rw [values_outgoing (Or.inl hlength), values_told hlayer]
  show Fields.values (Forward.setHeaders [jsonType] []) name ++ _ = _
  rw [values_setHeaders hname hlegal, hlast, hcase]
  split_ifs
  · rfl
  · rfl

theorem marked_outgoing (s : State σ) (r : Request) (response : Response) :
    Marked (markOf s r) (outgoing r.method (told s r response)).headers := by
  obtain ⟨hmark, hreaders, hreadable⟩ := values_told_layers s r response
  constructor
  · rw [values_outgoing (Or.inl (by decide)), hmark]
  · rw [values_outgoing (Or.inl (by decide)), hreaders]
  · rw [values_outgoing (Or.inl (by decide)), hreadable]

/-- An answer with the status of success is the response that was resolved. -/
theorem answered_of_status {s : State σ} {q : Resolve.Request} (h : (answered s q).1.status = 200) :
    ∃ x, (Resolve.resolve s.service.draw.2 q .zero).1 = .ok x ∧
      (answered s q).1 = Forward.render x := by
  unfold answered at h ⊢
  generalize Resolve.resolve s.service.draw.2 q .zero = resolved at h ⊢
  obtain ⟨result, service⟩ := resolved
  cases result with
  | ok x => exact ⟨x, rfl, rfl⟩
  | error e =>
    have herror : (ApiError.resolve e).httpStatus ≠ 200 := by
      cases e <;> exact Nat.ne_of_beq_eq_false rfl
    exact absurd h herror

/-- Is the response that of a mock the store finds for the request, and do the fields have the
mock's clean headers? -/
def FromStore (s : Service) (q : Resolve.Request) (x : Resolve.Response) (fs : Fields) : Prop :=
  x.isCached = false ∧ ∃ p m, Resolve.plan s q = .ok p ∧ s.store.findMock p.mock = some m ∧
    Resolve.respond m = .ok x ∧
    ∀ headers, m.headers.bind Resolve.textMembers? = some headers →
      Carries (Header.clean headers).headers fs

/-- Is the response the body that the cache holds for the request, and do the fields have no headers
of a mock?  Where every cached body is what the store answers, this body is that of a mock which the
store finds for a plan with the same key. -/
def FromCache (s : Service) (q : Resolve.Request) (x : Resolve.Response) (fs : Fields) : Prop :=
  ∃ p body, Resolve.plan s q = .ok p ∧ Resolve.held s p.cacheKey.toText = some body ∧
    x = { Resolve.Response.json body with isCached := true } ∧
    (∀ plans, s.Sound plans → ∃ asked ∈ plans, asked.cacheKey.toText = p.cacheKey.toText ∧
      Resolve.Answers s.store asked body) ∧
    Bare fs

/-- **The headers of a mock reach the client with every response from the store.**  With the
settings of a server by default, a forwarded request with the status of success has the body that
was resolved (which the methods `HEAD` and `CONNECT` leave out) and what the layers say.  A response
from a mock of the store has the mock's clean headers; one from the cache, which holds bodies only,
has none of them. -/
theorem mock_headers_reach_client {site : Site σ} (hserver : site.config.server = {}) {s : State σ}
    {r : Request} {q : Resolve.Request} (hmethod : r.method ≠ "OPTIONS")
    (hq : forwarded? site r = some q) (hstatus : (handle site r s).1.status = 200) :
    ∃ x, (Resolve.resolve s.service.draw.2 q .zero).1 = .ok x ∧
      (handle site r s).1.body
        = (if r.method = "HEAD" ∨ r.method = "CONNECT" then "" else x.body) ∧
      Marked (markOf s r) (handle site r s).1.headers ∧
      (FromStore s.service.draw.2 q x (handle site r s).1.headers ∨
        FromCache s.service.draw.2 q x (handle site r s).1.headers) := by
  have hhandle := handle_forwarded (s := s) hserver hmethod hq
  have hanswer : (answered s q).1.status = 200 := by
    rw [← hstatus, hhandle, status_outgoing, status_told]
  obtain ⟨x, hx, hanswered⟩ := answered_of_status hanswer
  have hsuccess : (told s r (answered s q).1).isSuccess = true := by
    unfold Response.isSuccess
    rw [status_told, hanswer]
    rfl
  rw [hhandle, body_outgoing hsuccess, body_told, hanswered]
  refine ⟨x, hx, rfl, marked_outgoing s r _, ?_⟩
  obtain ⟨p, body, hp, hheld, rfl⟩ | ⟨p, m, hp, hfound, hrespond⟩ := Resolve.resolve_eq_ok hx
  · exact Or.inr ⟨p, body, hp, hheld, rfl, fun plans hsound => hsound _ (Resolve.mem_of_held hheld),
      bare_outgoing body s r⟩
  · refine Or.inl ⟨isCached_respond hrespond, p, m, hp, hfound, hrespond, ?_⟩
    intro headers hdoc
    exact carries_outgoing (headers_respond hrespond hdoc) s r

/-! ## A signed mock -/

/-- The headers of a mock that signs its responses, and would mark them. -/
def signature : List (String × String) := [("X-Custom-Source", "mock"), ("X-Request-ID", "own")]

def signedMock : Mock :=
  { Mock.new default "health" "up" "/ping" "GET" .null (.obj []) with
    headers := some (.obj (signature.map fun h => (h.1, .str h.2))) }

/-- A server with the settings by default. -/
def plainSite : Site Http.Void := ⟨{}, .void⟩

/-- The state of a server with the signed mock, and nothing in the cache. -/
def signedState : State Http.Void :=
  ⟨((Service.new true default).run [
      .record (.addScenario { (default : Scenario) with featureName := "health", name := "up" }),
      .activate default none,
      .record (.addMock signedMock)]).2, default⟩

def ping : Request :=
  { method := "GET"
    target := ⟨"/public/forward/ping", none⟩
    headers := [.ofText "x-feature-name" "health"]
    body := [] }

/-- What is resolved for a ping. -/
def pinged : Resolve.Request := Forward.request .publicly "ping" ping

theorem signed_ping_from_store :
    (handle plainSite ping signedState).1.status = 200 ∧
    ∃ x, (Resolve.resolve signedState.service.draw.2 pinged .zero).1 = .ok x ∧
      (handle plainSite ping signedState).1.body
        = (if ping.method = "HEAD" ∨ ping.method = "CONNECT" then "" else x.body) ∧
      Marked (markOf signedState ping) (handle plainSite ping signedState).1.headers ∧
      (FromStore signedState.service.draw.2 pinged x (handle plainSite ping signedState).1.headers ∨
        FromCache signedState.service.draw.2 pinged x
          (handle plainSite ping signedState).1.headers) := by
  have hstatus : (handle plainSite ping signedState).1.status = 200 := by decide +kernel
  exact ⟨hstatus, mock_headers_reach_client rfl (by decide) (by decide +kernel) hstatus⟩

/-- The second of two equal requests has the body of the first and not its headers; and the mark on
the first is not that of the mock. -/
theorem repeated_ping_unsigned :
    let first := handle plainSite ping signedState
    let second := handle plainSite ping first.2
    (signedMock.headers.bind Resolve.textMembers?).map (fun h => (Header.clean h).headers.entries)
      = some signature ∧
    first.1.status = 200 ∧ second.1.status = 200 ∧ second.1.body = first.1.body ∧
    first.1.headers.values "x-custom-source" = [Text.Utf8.ofString "mock"] ∧
    second.1.headers.values "x-custom-source" = [] ∧
    first.1.headers.values "x-request-id" ≠ [Text.Utf8.ofString "own"] := by
  decide +kernel

end MockServer.Api
