/-
  MockServer.Proofs.Run.Precedence — which of a command's headers count.

  A command step gets its headers from three places: the default
  content type, the command, and the step itself.  They are set in this
  order, and in each table in the order of the spellings, so for a name
  in any case the last place that says something counts, and in it the
  last spelling.  Where none of them says something, a user in the
  address still stands for an authorization header.

  Main definitions:
    * `Decides`, `Lacks` — what a table of headers says under a name;
    * `Filled` — headers with their variables put in;
    * `Sends` — the values of a name in a request.

  Main results:
    * `decides_of_lastNamed` — the last header set is the one that
      decides;
    * `headers_by_precedence` — the headers of a command step;
    * `user_authorizes` — a header that no place says something about.
-/
import MockServer.Proofs.Http.Request
import MockServer.Proofs.Run.Command

namespace MockServer.Run.Curl

open Header (isLegal lastNamed)

/-! ## Headers of one name -/

/-- The entry that counts for a name: of those with the name in any case, the one whose spelling
is last in the order of names. -/
structure Decides (name : String) (es : List (String × String)) (e : String × String) : Prop where
  mem : e ∈ es
  named : Text.sameFold e.1 name = true
  last : ∀ f ∈ es, Text.sameFold f.1 name = true → f.1 ≤ e.1

/-- Does no entry have the name, in any case? -/
def Lacks (name : String) (es : List (String × String)) : Prop :=
  ∀ e ∈ es, Text.sameFold e.1 name = false

instance (name : String) (es : List (String × String)) : Decidable (Lacks name es) :=
  inferInstanceAs (Decidable (∀ e ∈ es, Text.sameFold e.1 name = false))

/-- Headers with variables put into their values. -/
def Filled (scope : Dict String) (es fs : List (String × String)) : Prop :=
  List.Forall₂ (fun e f => f.1 = e.1 ∧ Template.fill scope e.2 = .ok f.2) es fs

section Filling

variable {scope : Dict String} {es fs : List (String × String)} {name : String}

theorem fill_of_interpolate {part text filled : String}
    (h : interpolate scope part text = .ok filled) : Template.fill scope text = .ok filled := by
  unfold interpolate at h
  split at h
  · next filled' hfill => rw [hfill, ← Except.ok.inj h]
  · exact absurd h nofun

theorem filled_of_interpolateHeaders {part : String}
    (h : interpolateHeaders scope part es = .ok fs) : Filled scope es fs := by
  induction es generalizing fs with
  | nil =>
    rw [← Except.ok.inj h]
    exact .nil
  | cons e es ih =>
    rw [interpolateHeaders] at h
    obtain ⟨value, hvalue, h⟩ := bind_eq_ok.mp h
    obtain ⟨rest, hrest, h⟩ := bind_eq_ok.mp h
    rw [← Except.ok.inj h]
    exact .cons ⟨rfl, fill_of_interpolate hvalue⟩ (ih hrest)

theorem lacks_of_lastNamed (h : Filled scope es fs) (hnone : lastNamed name fs = none) :
    Lacks name es := by
  induction h with
  | nil => exact fun e he => absurd he List.not_mem_nil
  | cons hef _ ih =>
    rw [Header.lastNamed_eq_none_iff, List.forall_mem_cons] at hnone
    rw [Lacks, List.forall_mem_cons]
    exact ⟨hef.1 ▸ hnone.1, ih (Header.lastNamed_eq_none_iff.mpr hnone.2)⟩

/-- **The last header that is set for a name is the one that decides it**, with its variables put
in. -/
theorem decides_of_lastNamed (h : Filled scope es fs) (hnames : Dict.Increasing es)
    {f : String × String} (hlast : lastNamed name fs = some f) :
    ∃ e, Decides name es e ∧ Template.fill scope e.2 = .ok f.2 := by
  induction h with
  | nil => exact absurd hlast nofun
  | @cons e f' es fs hef hrest ih =>
    have hsmaller := (List.pairwise_cons.mp hnames).1
    rw [Header.lastNamed_cons] at hlast
    cases hlater : lastNamed name fs with
    | some g =>
      -- a later entry of the name decides, and its spelling is greater than the first one
      rw [hlater, Option.some_or] at hlast
      obtain ⟨d, hd, hfill⟩ := ih hnames.of_cons (hlater.trans hlast)
      refine ⟨d, ⟨List.mem_cons_of_mem e hd.mem, hd.named, ?_⟩, hfill⟩
      rw [List.forall_mem_cons]
      exact ⟨fun _ => le_of_lt (hsmaller d hd.mem), hd.last⟩
    | none =>
      have hlacks := lacks_of_lastNamed hrest hlater
      rw [hlater, Option.none_or] at hlast
      split at hlast
      · next hnamed =>
        rw [← Option.some.inj hlast]
        refine ⟨e, ⟨List.mem_cons_self, hef.1 ▸ hnamed, ?_⟩, hef.2⟩
        rw [List.forall_mem_cons]
        refine ⟨fun _ => le_refl _, fun d hd hnamed => ?_⟩
        rw [hlacks d hd] at hnamed
        exact absurd hnamed Bool.false_ne_true
      · exact absurd hlast nofun

end Filling

/-! ## Headers of a request -/

/-- The values a request has for a name: the value of the step's header that decides it, else that
of the command's header, else the default content type, else what the user of the address stands
for, else none. -/
inductive Sends (step : Step) (curl : CurlCommand) (scope : Dict String) (u : Url)
    (name : String) : List (List UInt8) → Prop where
  | ofStep {e : String × String} {text : String} :
      Decides name step.headers.entries e → Template.fill scope e.2 = .ok text →
      Sends step curl scope u name [Text.Utf8.ofString text]
  | ofCommand {e : String × String} {text : String} :
      Lacks name step.headers.entries →
      Decides name curl.headers.entries e → Template.fill scope e.2 = .ok text →
      Sends step curl scope u name [Text.Utf8.ofString text]
  | json :
      Lacks name step.headers.entries → Lacks name curl.headers.entries →
      Text.sameFold "content-type" name = true →
      Sends step curl scope u name [Text.Utf8.ofString "application/json"]
  | user {user : Http.User} :
      Lacks name step.headers.entries → Lacks name curl.headers.entries →
      Text.sameFold "content-type" name = false →
      Text.sameFold "authorization" name = true → Http.User.ofUrl? u = some user →
      Sends step curl scope u name [Text.Utf8.ofString user.authorization]
  | absent :
      Lacks name step.headers.entries → Lacks name curl.headers.entries →
      Text.sameFold "content-type" name = false →
      (Text.sameFold "authorization" name = true → Http.User.ofUrl? u = none) →
      Sends step curl scope u name []

variable {step : Step} {scope : Dict String}

/-- What a command step is prepared from. -/
theorem prepare_eq_ok {p : Prepared} (hcommand : isCommand step.path = true)
    (h : prepare step scope = .ok p) :
    ∃ line curl inner outer, Template.fill scope step.path = .ok line ∧
      CurlCommand.parse? line = .ok curl ∧ Filled scope curl.headers.entries inner ∧
      Filled scope step.headers.entries outer ∧ p.headers = baseline ++ inner ++ outer := by
  cases hline : interpolate scope "curl command" step.path with
  | error e =>
    unfold prepare prepareCommand at h
    rw [if_pos hcommand, hline] at h
    exact absurd h nofun
  | ok line =>
    cases hparse : CurlCommand.parse? line with
    | error e =>
      unfold prepare prepareCommand at h
      rw [if_pos hcommand, hline] at h
      dsimp only [bind, Except.bind] at h
      rw [hparse] at h
      exact absurd h nofun
    | ok curl =>
      -- each part is filled on its own, and the headers stand in order
      rw [prepare_of_parse hcommand hline hparse] at h
      obtain ⟨url, -, h⟩ := bind_eq_ok.mp h
      obtain ⟨body, -, h⟩ := bind_eq_ok.mp h
      obtain ⟨inner, hinner, h⟩ := bind_eq_ok.mp h
      obtain ⟨outer, houter, h⟩ := bind_eq_ok.mp h
      rw [← Except.ok.inj h]
      exact ⟨line, curl, inner, outer, fill_of_interpolate hline, hparse,
        filled_of_interpolateHeaders hinner, filled_of_interpolateHeaders houter, rfl⟩

/-- The names of the headers of a command that was taken apart are increasing. -/
theorem increasing_headers {line : String} {curl : CurlCommand}
    (h : CurlCommand.parse? line = .ok curl) : Dict.Increasing curl.headers.entries := by
  unfold CurlCommand.parse? at h
  split at h
  · exact absurd h nofun
  · dsimp only at h
    split at h
    · exact absurd h nofun
    · rw [← Except.ok.inj h]
      exact Dict.increasing_ofList _

/-- The last of the headers in the order in which they are set is the one the places agree on. -/
theorem sends_lastNamed {curl : CurlCommand} {inner outer : List (String × String)}
    (hinner : Filled scope curl.headers.entries inner)
    (hcurl : Dict.Increasing curl.headers.entries)
    (houter : Filled scope step.headers.entries outer)
    (hstep : Dict.Increasing step.headers.entries) (u : Url) (name : String) :
    Sends step curl scope u name
      (((lastNamed name (baseline ++ inner ++ outer)).map
        fun h => [Text.Utf8.ofString h.2]).getD ((Http.Request.userFields u).values name)) := by
  rw [Header.lastNamed_append, Header.lastNamed_append]
  -- what is set last is looked at first: the step, the command, the default
  cases hlast : lastNamed name outer with
  | some f =>
    obtain ⟨e, he, hfill⟩ := decides_of_lastNamed houter hstep hlast
    exact .ofStep he hfill
  | none =>
    have hquiet := lacks_of_lastNamed houter hlast
    rw [Option.none_or]
    cases hlast : lastNamed name inner with
    | some f =>
      obtain ⟨e, he, hfill⟩ := decides_of_lastNamed hinner hcurl hlast
      exact .ofCommand hquiet he hfill
    | none =>
      have hquiet' := lacks_of_lastNamed hinner hlast
      have hbaseline : lastNamed name baseline
          = if Text.sameFold "content-type" name then
              some ("Content-Type", "application/json") else none := by
        rw [← Text.sameFold_congr_left (show Text.sameFold "Content-Type" "content-type" = true
          by decide) name]
        exact List.find?_singleton
      rw [Option.none_or, hbaseline]
      by_cases htype : Text.sameFold "content-type" name = true
      · rw [if_pos htype]
        exact .json hquiet hquiet' htype
      · rw [Bool.not_eq_true] at htype
        rw [htype, if_neg Bool.false_ne_true, Http.Request.values_userFields]
        -- only the user of the address is left
        by_cases hname : Text.sameFold "authorization" name = true
        · rw [if_pos hname]
          cases huser : Http.User.ofUrl? u with
          | none => exact .absent hquiet hquiet' htype fun _ => huser
          | some user => exact .user hquiet hquiet' htype hname huser
        · rw [if_neg hname]
          exact .absent hquiet hquiet' htype fun h => absurd h hname

/-- **Which headers a command step sends.**  A step that is prepared is a command with the values
of its variables, and the headers of its request are set in the order default content type,
command, step.  If the address is a URL, a request has for every name what the last of these places
says under it, where the spelling that is last in order counts; it is made if all headers are
legal, and fails with the first that is not. -/
theorem headers_by_precedence {p : Prepared} (hcommand : isCommand step.path = true)
    (hnames : Dict.Increasing step.headers.entries) (hp : prepare step scope = .ok p) :
    ∃ line curl inner outer, Template.fill scope step.path = .ok line ∧
      CurlCommand.parse? line = .ok curl ∧
      Filled scope curl.headers.entries inner ∧ Filled scope step.headers.entries outer ∧
      p.headers = baseline ++ inner ++ outer ∧
      ∀ method u, Url.parse p.url = .ok u →
        (∀ r, Http.Request.build method p.url p.headers p.body = .ok r →
          ∀ name, Sends step curl scope u name (r.headers.values name)) ∧
        ((∀ h ∈ p.headers, isLegal h = true) →
          ∃ r, Http.Request.build method p.url p.headers p.body = .ok r) ∧
        ∀ before h after, p.headers = before ++ h :: after →
          (∀ x ∈ before, isLegal x = true) → isLegal h = false →
          Http.Request.build method p.url p.headers p.body = .error (Http.Request.fault h) := by
  obtain ⟨line, curl, inner, outer, hline, hparse, hinner, houter, hheaders⟩ :=
    prepare_eq_ok hcommand hp
  refine ⟨line, curl, inner, outer, hline, hparse, hinner, houter, hheaders, ?_⟩
  intro method u hu
  refine ⟨?_, ?_, ?_⟩
  · intro r hr name
    rw [Http.Request.values_build hu hr name, hheaders]
    exact sends_lastNamed hinner (increasing_headers hparse) houter hnames u name
  · exact fun hlegal => Http.Request.build_legal hu hlegal
  · intro before h after hsplit hbefore hh
    rw [hsplit]
    exact Http.Request.build_first_fault hu hbefore hh

/-! ## Headers from three places -/

/-- An order whose command and step spell one name in four ways. -/
def placeOrder : Step :=
  { commandStep ("curl 'http://shop/orders' -H 'Authorization: Bearer \x7b\x7btoken\x7d\x7d' " ++
      "-H 'Accept: text/html' -H 'accept: text/xml' -H 'content-type: text/csv'") with
    headers := .ofList [("ACCEPT", "\x7b\x7bkind\x7d\x7d"), ("ACCept", "text/plain")] }

def orderVariables : Dict String := .ofList [("token", "t-1"), ("kind", "text/vcard")]

/-- The order, prepared. -/
def placedOrder : Prepared where
  method := "GET"
  url := "http://shop/orders"
  headers := [("Content-Type", "application/json"), ("Accept", "text/html"),
    ("Authorization", "Bearer t-1"), ("accept", "text/xml"), ("content-type", "text/csv"),
    ("ACCEPT", "text/vcard"), ("ACCept", "text/plain")]
  body := ""

def ordersUrl : Url where
  scheme := "http".toList
  username := []
  password := []
  host := some (.name "shop")
  port := none
  path := .segments ["orders".toList]
  query := none
  fragment := none

theorem headers_placeOrder :
    ∃ curl r, prepare placeOrder orderVariables = .ok placedOrder ∧
      Http.Request.build .get placedOrder.url placedOrder.headers placedOrder.body = .ok r ∧
      (∀ name, Sends placeOrder curl orderVariables ordersUrl name (r.headers.values name)) ∧
      r.headers.values "accept" = [Text.Utf8.ofString "text/plain"] ∧
      r.headers.values "content-type" = [Text.Utf8.ofString "text/csv"] ∧
      r.headers.values "authorization" = [Text.Utf8.ofString "Bearer t-1"] := by
  have hp : prepare placeOrder orderVariables = .ok placedOrder := by decide +kernel
  have hu : Url.parse placedOrder.url = .ok ordersUrl := by decide +kernel
  obtain ⟨-, curl, -, -, -, -, -, -, -, hurl⟩ :=
    headers_by_precedence (by decide +kernel) (Dict.increasing_ofList _) hp
  obtain ⟨hsends, hlegal, -⟩ := hurl .get ordersUrl hu
  obtain ⟨r, hr⟩ := hlegal (by decide)
  have hvalues := Http.Request.values_build hu hr
  refine ⟨curl, r, hp, hr, hsends r hr, ?_, ?_, ?_⟩
  · rw [hvalues]
    decide
  · rw [hvalues]
    decide
  · rw [hvalues]
    decide

/-- A step whose address names a user, and that has no headers. -/
def ownOrders : Step := commandStep "curl 'http://user:pw@h/'"

/-- **A user in the address authorizes the request** although neither the command nor the step has
such a header, and it is not the default one. -/
theorem user_authorizes :
    ∃ curl p r, CurlCommand.parse? ownOrders.path = .ok curl ∧
      prepare ownOrders .empty = .ok p ∧
      Http.Request.build .get p.url p.headers p.body = .ok r ∧
      Lacks "authorization" ownOrders.headers.entries ∧
      Lacks "authorization" curl.headers.entries ∧
      Text.sameFold "content-type" "authorization" = false ∧
      r.headers.values "authorization" = [Text.Utf8.ofString "Basic dXNlcjpwdw=="] := by
  let curl : CurlCommand :=
    { url := "http://user:pw@h/", method := "GET", headers := .empty, body := "" }
  let p : Prepared := { method := "GET", url := curl.url, headers := baseline, body := "" }
  let u : Url :=
    { scheme := "http".toList, username := "user".toList, password := "pw".toList,
      host := some (.name "h"), port := none, path := .segments [[]],
      query := none, fragment := none }
  have hu : Url.parse p.url = .ok u := by decide +kernel
  obtain ⟨r, hr⟩ : ∃ r, Http.Request.build .get p.url p.headers p.body = .ok r :=
    Http.Request.build_legal hu (by decide)
  refine ⟨curl, p, r, by decide +kernel, by decide +kernel, hr, by decide, by decide, by decide, ?_⟩
  rw [Http.Request.values_build hu hr]
  decide +kernel

end MockServer.Run.Curl
