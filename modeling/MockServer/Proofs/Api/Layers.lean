/-
  MockServer.Proofs.Api.Layers — a forwarded request on its way through
  the layers.

  With the settings a server has by default, a forwarded request gets
  its mark, is resolved, and its response is told the mark and who may
  read it, and last the length of its body.  The layers look at the
  names of a response only where they have something to say; what is
  said under any other name passes through.

  Main definitions:
    * `forwarded?` — the forwarded request behind a request;
    * `layerNames` — the names that the layers decide.

  Main results:
    * `handle_forwarded` — the response to a forwarded request;
    * `values_told` — what the layers leave alone;
    * `values_told_layers` — what they say;
    * `values_outgoing` — what goes out as it was said.
-/
import MockServer.Api.App
import MockServer.Proofs.Api.RequestId

namespace MockServer.Api

open Header (Fields)

variable {σ : Type}

/-! ## Forwarded requests -/

/-- The forwarded request behind a request, if its path is on a route for forwarding. -/
def forwarded? (site : Site σ) (r : Request) : Option Resolve.Request :=
  match find? (routes site.config.server.apiPrefix) r.target.path with
  | none => none
  | some found =>
    match found.route.endpoint, found.text with
    | .forward mode, .ok part => some (Forward.request mode part r)
    | _, _ => none

theorem forwarded?_eq_some {site : Site σ} {r : Request} {q : Resolve.Request}
    (h : forwarded? site r = some q) : ∃ found mode part,
      find? (routes site.config.server.apiPrefix) r.target.path = some found ∧
      found.route.endpoint = .forward mode ∧ found.text = .ok part ∧
      q = Forward.request mode part r := by
  unfold forwarded? at h
  split at h
  next => exact absurd h nofun
  next found hfound =>
    split at h
    next mode part hmode hpart =>
      exact ⟨found, mode, part, hfound, hmode, hpart, (Option.some.inj h).symm⟩
    next => exact absurd h nofun

/-- The mark of a request does not change what is forwarded. -/
theorem request_attach (mode : Resolve.Mode) (part : String) (id : RequestId) (r : Request) :
    Forward.request mode part (id.attach r) = Forward.request mode part r := by
  have haccount : (id.attach r).header? "x-account-id" = r.header? "x-account-id" :=
    congrArg (·.bind Header.visibleText?)
      (id.first?_mark_of_other r.headers (by decide))
  have hfeature : (id.attach r).header? "x-feature-name" = r.header? "x-feature-name" :=
    congrArg (·.bind Header.visibleText?)
      (id.first?_mark_of_other r.headers (by decide))
  unfold Forward.request
  rw [haccount, hfeature]
  rfl

/-! ## The response -/

/-- The mark that a request gets. -/
def markOf (s : State σ) (r : Request) : RequestId :=
  RequestId.choose s.service.draw.1.id r.headers

theorem accepted_markOf (s : State σ) (r : Request) :
    RequestId.Accepted (Text.Utf8.ofString (markOf s r).text) (markOf s r) := by
  unfold markOf
  exact RequestId.accepted_choose s.service.supply.next r.headers

/-- The response with what the layers say by default. -/
def told (s : State σ) (r : Request) (response : Response) : Response :=
  Cors.extend {} r ((markOf s r).echo response)

theorem status_told (s : State σ) (r : Request) (response : Response) :
    (told s r response).status = response.status := by
  simp only [told, Cors.extend, RequestId.echo]

theorem body_told (s : State σ) (r : Request) (response : Response) :
    (told s r response).body = response.body := by
  simp only [told, Cors.extend, RequestId.echo]

/-- The response of a server to a forwarded request, before the layers say something. -/
def answered (s : State σ) (q : Resolve.Request) : Response × Service :=
  match Resolve.resolve s.service.draw.2 q .zero with
  | (.ok x, service) => (Forward.render x, service)
  | (.error e, service) => fail (.resolve e) service

/-- **A forwarded request is resolved between the layers.** -/
theorem handle_forwarded {site : Site σ} (hserver : site.config.server = {}) {s : State σ}
    {r : Request} {q : Resolve.Request} (hmethod : r.method ≠ "OPTIONS")
    (hq : forwarded? site r = some q) :
    (handle site r s).1 = outgoing r.method (told s r (answered s q).1) := by
  obtain ⟨found, mode, part, hfound, hmode, hpart, rfl⟩ := forwarded?_eq_some hq
  have haccepts : found.route.endpoint.accepts r.method = true := by rw [hmode]; rfl
  have hroute : ∀ (id : RequestId) (t : State σ),
      (onRoute site found (id.attach r) t).1
        = (Forward.answer mode part (id.attach r) t.service).1 := by
    intro id t
    unfold onRoute
    rw [hpart]
    simp only [hmode]
    rfl
  -- the handler reads the request behind its mark
  have hanswer : ∀ id : RequestId,
      (Forward.answer mode part (id.attach r) s.service.draw.2).1
        = (answered s (Forward.request mode part r)).1 := by
    intro id
    have hsame := request_attach mode part id r
    unfold Forward.answer answered
    generalize Forward.request mode part (id.attach r) = q at hsame ⊢
    subst hsame
    generalize Resolve.resolve s.service.draw.2 (Forward.request mode part r) .zero = result
    obtain ⟨x | e, service⟩ := result
    · rfl
    · rfl
  have hrespond : (respond site r s).1 = told s r (answered s (Forward.request mode part r)).1 := by
    unfold respond
    simp only [hfound, haccepts, if_true]
    rw [hserver]
    unfold layered
    rw [if_pos rfl]
    unfold Cors.around
    rw [if_neg hmethod]
    unfold told
    rw [← hanswer (markOf s r), ← hroute (markOf s r) { s with service := s.service.draw.2 }]
    rfl
  rw [← hrespond]
  rfl

/-! ## What the layers say -/

/-- The names that the layers decide, whatever a response says under them. -/
def layerNames : List String :=
  [RequestId.headerName, "access-control-allow-origin", "access-control-expose-headers"]

/-- Do the layers decide what is said under this name? -/
def IsLayered (name : String) : Prop := ∃ l ∈ layerNames, Text.sameFold l name = true

instance (name : String) : Decidable (IsLayered name) :=
  inferInstanceAs (Decidable (∃ l ∈ layerNames, _))

theorem headers_told (s : State σ) (r : Request) (response : Response) :
    (told s r response).headers =
      Fields.replace
        (Fields.replace
          (Fields.replace response.headers RequestId.headerName (markOf s r).bytes ++ Cors.varying)
          "access-control-allow-origin" (Text.Utf8.ofString "*"))
        "access-control-expose-headers" (Text.Utf8.ofString RequestId.headerName) := by
  have hmark := RequestId.mark_of_accepted (accepted_markOf s r) response.headers
  unfold told RequestId.echo
  rw [hmark]
  rfl

/-- **What is said under another name passes through**; under `vary` the layers add to it. -/
theorem values_told {name : String} (h : ¬ IsLayered name) (s : State σ) (r : Request)
    (response : Response) :
    (told s r response).headers.values name
      = response.headers.values name ++ Fields.values Cors.varying name := by
  have hlayer : ∀ l ∈ layerNames, ¬ Text.sameFold l name = true :=
    fun l hl hsame => h ⟨l, hl, hsame⟩
  rw [headers_told, Fields.values_replace, if_neg (hlayer _ (by decide)), Fields.values_replace,
    if_neg (hlayer _ (by decide)), Fields.values_append, Fields.values_replace,
    if_neg (hlayer _ (by decide))]

/-- **Under the names of the layers a response says what they say**: its mark, that every page may
read it, and that the mark may be read. -/
theorem values_told_layers (s : State σ) (r : Request) (response : Response) :
    (told s r response).headers.values RequestId.headerName = [(markOf s r).bytes] ∧
    (told s r response).headers.values "access-control-allow-origin"
      = [Text.Utf8.ofString "*"] ∧
    (told s r response).headers.values "access-control-expose-headers"
      = [Text.Utf8.ofString RequestId.headerName] := by
  rw [headers_told]
  refine ⟨?_, ?_, ?_⟩
  · rw [Fields.values_replace, if_neg (by decide), Fields.values_replace, if_neg (by decide),
      Fields.values_append, Fields.values_replace, if_pos (by decide)]
    rfl
  · rw [Fields.values_replace, if_neg (by decide), Fields.values_replace, if_pos (by decide)]
  · rw [Fields.values_replace, if_pos (by decide)]

/-! ## What goes out -/

theorem status_outgoing (method : String) (r : Response) :
    (outgoing method r).status = r.status := by
  unfold outgoing measured Response.setHeader
  split_ifs <;> rfl

/-- A body goes out unless the method leaves no room for it. -/
theorem body_outgoing {method : String} {r : Response} (h : r.isSuccess = true) :
    (outgoing method r).body = if method = "HEAD" ∨ method = "CONNECT" then "" else r.body := by
  unfold outgoing measured Response.setHeader
  by_cases hconnect : method = "CONNECT"
  · rw [if_pos ⟨hconnect, h⟩, if_pos (Or.inr hconnect)]
  · rw [if_neg (fun hboth => hconnect hboth.1)]
    by_cases hhead : method = "HEAD"
    · rw [if_pos hhead, if_pos (Or.inl hhead)]
    · rw [if_neg hhead, if_neg (not_or.mpr ⟨hhead, hconnect⟩)]
      split_ifs <;> rfl

theorem values_measured {r : Response} {name : String}
    (h : Text.sameFold "content-length" name = false ∨ r.headers.values name ≠ []) :
    (measured r).headers.values name = r.headers.values name := by
  unfold measured
  split_ifs with hlength
  · rfl
  · show Fields.values (Fields.replace r.headers "content-length" _) name = _
    rw [Fields.values_replace]
    rcases h with hother | hsaid
    · rw [hother, if_neg Bool.false_ne_true]
    · -- a length that is said already is not said again
      refine if_neg fun hsame => hlength ?_
      unfold Response.hasHeader
      rw [Fields.first?_eq_head?, Fields.values_congr hsame, List.isSome_head?]
      simpa using hsaid

/-- **What is said goes out**; only a length may be added. -/
theorem values_outgoing {r : Response} {name : String}
    (h : Text.sameFold "content-length" name = false ∨ r.headers.values name ≠ [])
    (method : String) : (outgoing method r).headers.values name = r.headers.values name := by
  unfold outgoing
  split_ifs
  · rfl
  · exact values_measured h
  · exact values_measured h

end MockServer.Api
