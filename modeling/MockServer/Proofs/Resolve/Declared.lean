/-
  MockServer.Proofs.Resolve.Declared — every equivalent request finds
  the mock that was declared for it.

  A mock and a request are brought to one lookup key on two ways that
  share no code: the path of a mock carries its query and is made
  canonical when the mock is made and once more when it is stored, the
  path of a request is put together with its query; the input of a mock
  is fingerprinted as a document, the body of a request as bytes; the
  method of a mock is in upper case, that of a request as it came.
  Here the two keys are shown to be equal up to the case of the method.
  The store does the rest: a mock that is let in is found ever after,
  and nothing else is.

  Main definitions:
    * `Declaration` — what a mock is declared with;
    * `Declaration.AskedBy` — the requests equivalent to a declaration.

  Main results:
    * `fingerprintOf_of_spells` — the two fingerprints agree;
    * `Declaration.folded_key` — the two keys agree;
    * `resolve_declared` — the request gets the output of the mock.
-/
import MockServer.Proofs.Fingerprint
import MockServer.Proofs.Resolve.Basic
import MockServer.Proofs.Store.Run
import MockServer.Proofs.Url.Lookup

namespace MockServer.Resolve

/-! ## Declarations -/

/-- What a mock is declared with. -/
structure Declaration where
  feature : String
  scenario : String
  path : String
  /-- The query that the declared path carries. -/
  query : Option String
  method : String
  input : Json
  output : Json
  name : String
  description : String
  headers : Option Json
  path_plain : '?' ∉ path.toList
  method_ascii : ∀ c ∈ method.toList, c.toNat < 128
  input_exact : input = .null ∨ (∃ members, input = .obj members) ∧ Fingerprint.Exact input
  output_object : ∃ members, output = .obj members

namespace Declaration

/-- The declared mock. -/
def mock (d : Declaration) (stamp : Stamp) : Mock :=
  { Mock.new stamp d.feature d.scenario (Url.Lookup.withQuery d.path d.query) d.method d.input
      d.output with
    name := d.name
    description := d.description
    headers := d.headers }

/-- Does the body spell the input?  Nothing spells null. -/
def Spells (input : Json) (body : List UInt8) : Prop :=
  match input with
  | .null => body = []
  | v => ∃ cs, Json.IsText v cs ∧ body = Text.Utf8.encode cs

/-- Is the request equivalent to the declaration?  The paths are equal, the queries agree name by
name, the methods are equal up to the case of ASCII letters, and the body spells the input. -/
structure AskedBy (d : Declaration) (r : Request) : Prop where
  path : r.path = d.path
  query : ∀ name, Url.Lookup.valuesOf name (Url.Form.parse (r.query.getD ""))
    = Url.Lookup.valuesOf name (Url.Form.parse (d.query.getD ""))
  method : Text.sameFold r.method d.method = true
  body : Spells d.input r.body

end Declaration

/-! ## The two fingerprints -/

/-- **A body that spells the input has the fingerprint of the input.** -/
theorem fingerprintOf_of_spells {d : Declaration} {body : List UInt8}
    (h : Declaration.Spells d.input body) :
    fingerprintOf body = .ok (Fingerprint.ofValue d.input) := by
  rcases d.input_exact with hnull | ⟨⟨members, hobject⟩, hexact⟩
  · rw [hnull] at h ⊢
    -- null has the empty fingerprint, which only an empty body has
    have hempty : body = [] := h
    rw [hempty]
    rfl
  · rw [hobject] at h hexact ⊢
    obtain ⟨cs, htext, hbody⟩ := h
    obtain ⟨w, hw, hread⟩ := Json.parseChars?_of_isText hexact.depth htext
    obtain ⟨ns, rfl⟩ := Fingerprint.shuffled_obj hw rfl
    have hparse : Json.parseBytes? body = some (.obj ns) := by
      rw [hbody, Fingerprint.parseBytes?_encode, hread]
    have hne : body.isEmpty = false := Fingerprint.isEmpty_of_parse hparse
    unfold fingerprintOf
    rw [hne, hparse, hbody, Fingerprint.ofBody_isText hexact htext]
    rfl

/-! ## The two keys -/

/-- The key of the declared mock, as it is stored. -/
theorem Declaration.stored_key (d : Declaration) (stamp : Stamp) :
    (Store.stored (d.mock stamp)).key = ⟨d.feature, d.scenario, Url.Lookup.compose d.path d.query,
      Text.upper d.method, Fingerprint.ofValue d.input⟩ := by
  have hpath : (Store.stored (d.mock stamp)).path = Url.Lookup.compose d.path d.query := by
    show Url.Lookup.canonical (Url.Lookup.canonical (Url.Lookup.withQuery d.path d.query)) = _
    -- once when the mock is made, and once more when it is stored
    rw [Url.Lookup.canonical_canonical, Url.Lookup.canonical_withQuery d.path_plain]
  unfold Mock.key
  rw [hpath]
  rfl

/-- **An equivalent request asks for the key of the mock**, up to the case of the method. -/
theorem Declaration.folded_key {d : Declaration} {r : Request} (h : d.AskedBy r) (stamp : Stamp) :
    (Store.stored (d.mock stamp)).key.folded = MockKey.folded ⟨d.feature, d.scenario,
      Url.Lookup.compose r.path r.query, r.method, Fingerprint.ofValue d.input⟩ := by
  have hpath : Url.Lookup.compose r.path r.query = Url.Lookup.compose d.path d.query := by
    rw [h.path]
    exact Url.Lookup.compose_eq_of_valuesOf d.path h.query
  have hmethod : Text.lower (Text.upper d.method) = Text.lower r.method := by
    rw [Text.lower_upper d.method_ascii, Text.sameFold_iff.mp h.method]
  unfold MockKey.folded
  rw [d.stored_key, hpath]
  simp only [hmethod]

/-! ## The response -/

theorem held_of_empty {s : Service} (h : s.cache.isEnabled = false ∨ s.cache.entries = .empty)
    (key : String) : held s key = none := by
  unfold held
  split
  next => rfl
  next =>
    rcases h with hoff | hempty
    · rw [hoff]
      rfl
    · rw [hempty]
      split
      next => rfl
      next => rfl

/-- **Every equivalent request is answered by the mock that was declared for it.**  Whatever
operations came before the mock was let in and whatever operations came after it: a request whose
account and feature select the scenario of the mock, with the path of the mock, a query that agrees
with that of the mock name by name, the method in any ASCII case, and a body that spells the input
of the mock, gets the output of the mock, and no other active mock answers it.  The cache is empty
or switched off. -/
theorem resolve_declared (d : Declaration) (stamp : Stamp) (before after : List Store.Op)
    (store : Store) (m : Mock)
    (hadd : (Store.empty.run before).addMock? (d.mock stamp) = .ok (store, m))
    (s : Service) (hstore : s.store = store.run after)
    (hcache : s.cache.isEnabled = false ∨ s.cache.entries = .empty)
    (horder : s.outage? .findMock = none)
    (r : Request) (account : Option String) (selection : Selection)
    (haccount : accountOf r = .ok account) (hfeature : featureOf r = .ok d.feature)
    (hselect : select s d.feature account = .ok selection)
    (hname : selection.scenario.name = d.scenario) (hr : d.AskedBy r) (took : Duration) :
    ∃ p, plan s r = .ok p ∧ s.store.findMock p.mock = some m ∧
      (∀ n ∈ s.store.mocks, n.isActive = true → n.answers p.mock = true → n = m) ∧
      ∃ response, (resolve s r took).1 = .ok response ∧ response.body = m.output.compact ∧
        response.isCached = false := by
  obtain ⟨hfree, hm, hs⟩ := Store.addMock?_eq_ok hadd
  have hactive : m.isActive = true := by rw [hm]; rfl
  have hplan := plan_eq_ok.mpr ⟨account, d.feature, selection, _, haccount, hfeature, hselect,
    fingerprintOf_of_spells hr.body, rfl⟩
  refine ⟨_, hplan, ?_⟩
  rw [hname] at hplan ⊢
  -- the mock answers the plan when it is let in, and so ever after
  have hanswers : m.answers ⟨d.feature, d.scenario, Url.Lookup.compose r.path r.query, r.method,
      Fingerprint.ofValue d.input⟩ = true := by
    rw [Mock.answers_iff, hm]
    exact Declaration.folded_key hr stamp
  have hfound := Store.findMock_run (Store.findMock_of_addMock? hadd hactive hanswers) after
  rw [← hstore] at hfound
  have hunrivalled : s.store.Unrivalled := by
    have hrun := Store.unrivalled_run Store.unrivalled_empty
      (before ++ .addMock (d.mock stamp) :: after)
    rw [Store.run_append, Store.run_cons, Store.step_addMock hadd, ← hstore] at hrun
    exact hrun
  refine ⟨hfound, fun n hn hnactive hnanswers =>
    Store.eq_of_findMock hunrivalled hfound hn hnactive hnanswers, ?_⟩
  obtain ⟨members, houtput⟩ := d.output_object
  have hmoutput : m.output = .obj members := by rw [hm]; exact houtput
  obtain ⟨response, hrespond, hbody, hfresh⟩ := respond_of_object hmoutput
  refine ⟨response, ?_, hbody, hfresh⟩
  rw [resolve_of_found hplan (held_of_empty hcache _) horder hfound, hrespond]

/-- A greeting with a query, a body and headers. -/
def greeting : Declaration where
  feature := "greetings"
  scenario := "polite"
  path := "/hello"
  query := some (String.ofList (Url.Form.serialize [("to", "you"), ("by", "me")]))
  method := "post"
  input := .obj [("b", .num (.int 1)), ("a", .null)]
  output := .obj [("said", .bool true)]
  name := ""
  description := ""
  headers := none
  path_plain := by decide
  method_ascii := by simp
  input_exact := by
    refine Or.inr ⟨⟨_, rfl⟩, ⟨by decide, trivial, trivial, trivial⟩, by decide, ?_⟩
    intro n hn
    exact ⟨1, List.mem_singleton.mp hn, by decide⟩
  output_object := ⟨_, rfl⟩

/-- The scenario of the greeting. -/
def polite : Scenario := { (default : Scenario) with featureName := "greetings", name := "polite" }

/-- The activation of that scenario for everybody. -/
def politeForAll : Activation := { (default : Activation) with featureName := "greetings" }

/-- A request with its query and its members in another order. -/
def greetingRequest : Request where
  mode := .publicly
  path := "/hello"
  query := some (String.ofList (Url.Form.serialize [("by", "me"), ("to", "you")]))
  method := "POST"
  body := Text.Utf8.encode "\x7b\"a\":null, \"b\":1\x7d".toList
  account := none
  feature := some "greetings"

theorem greeting_askedBy : greeting.AskedBy greetingRequest where
  path := rfl
  query := by
    intro name
    show Url.Lookup.valuesOf name (Url.Form.parse (String.ofList _))
      = Url.Lookup.valuesOf name (Url.Form.parse (String.ofList _))
    rw [Url.Form.parse_serialize, Url.Form.parse_serialize]
    by_cases hto : "to" = name
    · subst hto
      rfl
    · have hnone : Url.Lookup.valuesOf name [("to", "you")] = [] := Url.Lookup.valuesOf_other hto
      rw [Url.Lookup.valuesOf_cons name ("to", "you"), hnone, List.nil_append,
        Url.Lookup.valuesOf_cons name ("by", "me") [("to", "you")], hnone, List.append_nil]
  method := by decide
  body := by
    have hblank : JsonToken.AllBlank [' '] := List.forall_mem_singleton.mpr rfl
    have htext : JsonToken.Text (Json.tokens (.obj [("a", .null), ("b", .num (.int 1))]))
        "\x7b\"a\":null, \"b\":1\x7d".toList :=
      Json.text_cons .openObject <| Json.text_cons (JsonToken.spelled_quote "a") <|
      Json.text_cons .colon <| Json.text_cons .null <| Json.text_cons .comma <|
      .cons hblank (JsonToken.spelled_quote "b") <| Json.text_cons .colon <|
      Json.text_cons (.int (by decide) (by decide)) <| Json.text_cons .closeObject <|
      .nil (b := []) (by simp [JsonToken.AllBlank])
    exact ⟨_, ⟨_, .perm (.swap _ _ _), htext⟩, rfl⟩

/-- A server where the greeting is declared and its scenario active. -/
def greetingServer : Service :=
  { Service.new true default with
    store := Store.run
      { (Store.run .empty [.addScenario polite]) with
        mocks := [Store.stored (greeting.mock default)] }
      [.addActivation politeForAll] }

theorem resolve_greeting :
    ∃ response, (resolve greetingServer greetingRequest default).1 = .ok response ∧
      response.body = "\x7b\"said\":true\x7d" := by
  obtain ⟨p, -, -, -, response, hresponse, hbody, -⟩ :=
    resolve_declared greeting default [.addScenario polite] [.addActivation politeForAll] _ _ rfl
      greetingServer rfl (Or.inr rfl) rfl greetingRequest none ⟨politeForAll, polite⟩ rfl rfl rfl
      rfl greeting_askedBy default
  exact ⟨response, hresponse, hbody.trans (by decide)⟩

end MockServer.Resolve
