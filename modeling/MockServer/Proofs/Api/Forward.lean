/-
  MockServer.Proofs.Api.Forward — the path that a forwarded request is
  looked up under.

  A mock is stored under the canonical form of the path it is declared
  with, percent escapes and all.  A request for the same path is looked
  up under the decoded rest of its target.  So both sides meet if there
  is nothing to decode; an escape in the path always keeps them apart,
  because the decoded path is shorter.

  Main definitions:
    * `entrance` — where the targets of forwarded requests start;
    * `Freed` — a site whose management routes leave the entrances free.

  Main results:
    * `forwarded?_entrance` — what is forwarded behind an entrance;
    * `looked_up_as_declared_iff` — when both paths are the same;
    * `escaped_path_missed` — a declared path that no request reaches.
-/
import MockServer.Proofs.Api.Headers
import MockServer.Proofs.Url.Lookup
import MockServer.Proofs.Url.Percent

namespace MockServer.Api

open Url (HasEscape)
open Url.Lookup (canonical compose withQuery)

variable {σ : Type}

/-! ## Targets -/

/-- Every text is a path that carries its query, or has none. -/
theorem exists_withQuery (text : String) :
    ∃ path query, text = withQuery path query ∧ '?' ∉ path.toList := by
  by_cases hmem : '?' ∈ text.toList
  · obtain ⟨path, query, heq, hpath⟩ := List.eq_append_cons_of_mem hmem
    refine ⟨String.ofList path, some (String.ofList query), ?_, by rwa [String.toList_ofList]⟩
    rw [withQuery, String.toList_ofList, String.toList_ofList, ← heq, String.ofList_toList]
  · exact ⟨text, none, rfl, hmem⟩

/-- **A target without a fragment is its path and its query.** -/
theorem parse?_withQuery {path : String} {query : Option String} (hpath : '?' ∉ path.toList)
    (hfragment : '#' ∉ (withQuery path query).toList) :
    Target.parse? (withQuery path query)
      = if path.toList.head? = some '/' ∧ path.toList.all isPathChar = true ∧
          (query.getD "").toList.all isQueryChar = true then some ⟨path, query⟩ else none := by
  have hwhole : (withQuery path query).toList.takeWhile (· != '#')
      = (withQuery path query).toList := by
    rw [List.takeWhile_eq_self_iff]
    rintro c hc
    rw [bne_iff_ne]
    rintro rfl
    exact hfragment hc
  have hrun : ∀ c ∈ path.toList, (c != '?') = true := by
    intro c hc
    rw [bne_iff_ne]
    rintro rfl
    exact hpath hc
  unfold Target.parse?
  rw [hwhole]
  cases query with
  | none =>
    have hcut := @Text.takeWhile_append_stop Char (· != '?') path.toList [] hrun (by simp)
    rw [List.append_nil] at hcut
    have hcontains : path.toList.contains '?' = false := by
      rw [Bool.eq_false_iff, Ne, List.contains_iff_mem]
      exact hpath
    simp only [withQuery, hcut.1, hcut.2, hcontains, List.drop_nil, String.ofList_toList,
      Option.getD_none, Bool.false_eq_true, if_false, String.toList_empty]
  | some query =>
    have hcut := @Text.takeWhile_append_stop Char (· != '?') path.toList ('?' :: query.toList) hrun
      (by simp)
    have hcontains : (path.toList ++ '?' :: query.toList).contains '?' = true :=
      List.contains_iff_mem.mpr (by simp)
    simp only [withQuery, String.toList_ofList, hcut.1, hcut.2, hcontains, List.drop_succ_cons,
      List.drop_zero, String.ofList_toList, Option.getD_some, if_true]

/-- Where the targets of forwarded requests start. -/
def entrance : Resolve.Mode → String
  | .authenticated => "/forward"
  | .publicly => "/public/forward"

theorem append_withQuery (front path : String) (query : Option String) :
    front ++ withQuery path query = withQuery (front ++ path) query := by
  apply String.toList_injective
  cases query with
  | none => rfl
  | some q => simp [withQuery]

/-- A declared path behind an entrance is a target with the path behind the entrance. -/
theorem parse?_entrance {declared : String} {t : Target} (h : Target.parse? declared = some t)
    (hfragment : '#' ∉ declared.toList) (mode : Resolve.Mode) :
    Target.parse? (entrance mode ++ declared) = some ⟨entrance mode ++ t.path, t.query⟩ ∧
    declared = withQuery t.path t.query ∧ '?' ∉ t.path.toList := by
  obtain ⟨path, query, rfl, hpath⟩ := exists_withQuery declared
  rw [parse?_withQuery hpath hfragment] at h
  obtain ⟨hlegal, ht⟩ := Option.ite_none_right_eq_some.mp h
  obtain rfl := Option.some.inj ht
  refine ⟨?_, rfl, hpath⟩
  have hfront : '?' ∉ (entrance mode).toList ∧ '#' ∉ (entrance mode).toList ∧
      (entrance mode).toList.head? = some '/' ∧ (entrance mode).toList.all isPathChar = true := by
    cases mode <;> decide
  rw [append_withQuery, parse?_withQuery, if_pos]
  · refine ⟨?_, ?_, hlegal.2.2⟩
    · rw [String.toList_append, List.head?_append, hfront.2.2.1]
      rfl
    · rw [String.toList_append, List.all_append, hfront.2.2.2, hlegal.2.1]
      rfl
  · rw [String.toList_append, List.mem_append, not_or]
    exact ⟨hfront.1, hpath⟩
  · rw [← append_withQuery, String.toList_append, List.mem_append, not_or]
    exact ⟨hfront.2.1, hfragment⟩

/-! ## Routes -/

/-- The fixed segments in front of the rest that is forwarded. -/
def entranceSegments : Resolve.Mode → List String
  | .authenticated => ["forward"]
  | .publicly => ["public", "forward"]

def entranceRoute (mode : Resolve.Mode) : Route :=
  ⟨(entranceSegments mode).map .fixed ++ [.rest "path"], .forward mode⟩

/-- Do the management routes of a site leave the entrances free? -/
def Freed (site : Site σ) : Prop :=
  ∀ name ∈ ["forward", "public"],
    (apiSegments site.config.server.apiPrefix).head? ≠ some (.fixed name)

instance (site : Site σ) : Decidable (Freed site) := inferInstanceAs (Decidable (∀ _ ∈ _, _))

/-- A pattern that starts with another segment does not match. -/
theorem capture?_of_ne {pattern : List Segment} {other name : String}
    (h : pattern.head? = some (.fixed other)) (hne : other ≠ name) (path : List (List Char)) :
    capture? pattern (name.toList :: path) = none := by
  cases pattern with
  | nil => cases h
  | cons segment pattern =>
    obtain rfl := Option.some.inj h
    rw [capture?, if_neg]
    intro heq
    exact hne (String.toList_injective heq)

/-- What is left of a path is captured as it stands. -/
theorem capture?_rest {tail : List Char} (h : tail ≠ []) :
    capture? [.rest "path"] (Text.splitOn '/' tail) = some [⟨"path", String.ofList tail⟩] := by
  have hjoin := Text.intercalate_splitOn '/' tail
  cases hsplit : Text.splitOn '/' tail with
  | nil =>
    rw [hsplit] at hjoin
    exact absurd hjoin.symm h
  | cons piece pieces =>
    rw [hsplit] at hjoin
    rw [capture?]
    simp only [hjoin]
    rw [if_neg (by simpa using h)]

theorem fixed_of_mem_apiSegments {apiPath : String} {segment : Segment}
    (h : segment ∈ apiSegments apiPath) : ∃ name, segment = .fixed name := by
  have hfixed : ∀ segment ∈ fixedSegments apiPath, ∃ name, segment = .fixed name := by
    intro segment hsegment
    obtain ⟨piece, -, rfl⟩ := List.mem_map.mp hsegment
    exact ⟨_, rfl⟩
  unfold apiSegments at h
  simp only at h
  split at h
  next => exact hfixed segment (List.mem_of_mem_dropLast h)
  next => exact hfixed segment h

/-- No management route starts with a segment of an entrance. -/
theorem capture?_management {site : Site σ} (h : Freed site) {route : Route}
    (hroute : route ∈ (routes site.config.server.apiPrefix).drop 5) {name : String}
    (hname : name ∈ ["forward", "public"]) (path : List (List Char)) :
    capture? route.pattern (name.toList :: path) = none := by
  have hhead : ∀ {rest : List Segment} {other : String}, rest.head? = some (.fixed other) →
      other ∉ ["forward", "public"] →
      capture? (apiSegments site.config.server.apiPrefix ++ rest) (name.toList :: path) = none := by
    intro rest other hrest hother
    cases hapi : apiSegments site.config.server.apiPrefix with
    | nil => exact capture?_of_ne hrest (fun heq => hother (heq ▸ hname)) path
    | cons segment segments =>
      obtain ⟨first, rfl⟩ := fixed_of_mem_apiSegments (hapi ▸ List.mem_cons_self)
      refine capture?_of_ne rfl ?_ path
      rintro rfl
      exact h _ hname (by rw [hapi]; rfl)
  simp only [routes, List.drop_succ_cons, List.drop_zero, List.mem_cons, List.not_mem_nil,
    or_false] at hroute
  rcases hroute with rfl | rfl | rfl | rfl | rfl
  · exact hhead rfl (by decide)
  · rw [List.append_assoc]; exact hhead rfl (by decide)
  · rw [List.append_assoc]; exact hhead rfl (by decide)
  · exact hhead rfl (by decide)
  · rw [List.append_assoc]; exact hhead rfl (by decide)

theorem splitOn_entrance (mode : Resolve.Mode) (tail : List Char) :
    Text.splitOn '/' ((entrance mode ++ String.ofList ('/' :: tail)).toList.drop 1)
      = (entranceSegments mode).map String.toList ++ Text.splitOn '/' tail := by
  have hforward : Text.splitOn '/' ("forward".toList ++ '/' :: tail)
      = "forward".toList :: Text.splitOn '/' tail := Text.splitOn_append (by decide) tail
  rw [String.toList_append, String.toList_ofList]
  cases mode with
  | authenticated => exact hforward
  | publicly =>
    have hpublic : Text.splitOn '/' ("public".toList ++ '/' :: ("forward".toList ++ '/' :: tail))
        = "public".toList :: Text.splitOn '/' ("forward".toList ++ '/' :: tail) :=
      Text.splitOn_append (by decide) _
    rw [hforward] at hpublic
    exact hpublic

/-- The first segment of an entrance. -/
theorem entranceSegments_eq_cons (mode : Resolve.Mode) :
    ∃ name rest, name ∈ ["forward", "public"] ∧ entranceSegments mode = name :: rest := by
  cases mode with
  | authenticated => exact ⟨"forward", [], by decide, rfl⟩
  | publicly => exact ⟨"public", ["forward"], by decide, rfl⟩

theorem capture?_entrance (mode : Resolve.Mode) {tail : List Char} (h : tail ≠ []) :
    capture? (entranceRoute mode).pattern
        ((entranceSegments mode).map String.toList ++ Text.splitOn '/' tail)
      = some [⟨"path", String.ofList tail⟩] := by
  cases mode with
  | authenticated =>
    show capture? [.fixed "forward", .rest "path"] ("forward".toList :: Text.splitOn '/' tail) = _
    rw [capture?, if_pos rfl, capture?_rest h]
  | publicly =>
    show capture? [.fixed "public", .fixed "forward", .rest "path"]
      ("public".toList :: "forward".toList :: Text.splitOn '/' tail) = _
    rw [capture?, if_pos rfl, capture?, if_pos rfl, capture?_rest h]

/-- A route that is not behind the entrance does not match. -/
theorem capture?_other {site : Site σ} (h : Freed site) {mode : Resolve.Mode} {route : Route}
    (hroute : route ∈ routes site.config.server.apiPrefix) (hother : route ≠ entranceRoute mode)
    (path : List (List Char)) :
    capture? route.pattern ((entranceSegments mode).map String.toList ++ path) = none := by
  rw [← List.take_append_drop 5 (routes _), List.mem_append] at hroute
  rcases hroute with hroute | hroute
  · simp only [routes, List.take_succ_cons, List.take_zero, List.mem_cons, List.not_mem_nil,
      or_false] at hroute
    cases mode with
    | authenticated =>
      rcases hroute with rfl | rfl | rfl | rfl | rfl
      · exact capture?_of_ne rfl (by decide) _
      · exact capture?_of_ne rfl (by decide) _
      · exact capture?_of_ne rfl (by decide) _
      · exact absurd rfl hother
      · exact capture?_of_ne rfl (by decide) _
    | publicly =>
      rcases hroute with rfl | rfl | rfl | rfl | rfl
      · exact capture?_of_ne rfl (by decide) _
      · exact capture?_of_ne rfl (by decide) _
      · exact capture?_of_ne rfl (by decide) _
      · exact capture?_of_ne rfl (by decide) _
      · exact absurd rfl hother
  · obtain ⟨name, rest, hname, hsegments⟩ := entranceSegments_eq_cons mode
    rw [hsegments]
    exact capture?_management h hroute hname _

/-- The route behind an entrance stands in the table once. -/
theorem routes_eq_append (apiPath : String) (mode : Resolve.Mode) :
    ∃ before after, routes apiPath = before ++ entranceRoute mode :: after ∧
      entranceRoute mode ∉ before ++ after := by
  have hendpoint : ∀ table : List Route, Endpoint.forward mode ∉ table.map Route.endpoint →
      entranceRoute mode ∉ table := fun table h hmem => h (List.mem_map.mpr ⟨_, hmem, rfl⟩)
  cases mode with
  | authenticated =>
    refine ⟨(routes apiPath).take 3, (routes apiPath).drop 4, rfl, hendpoint _ ?_⟩
    show Endpoint.forward .authenticated ∉ [.health, .readiness, .metrics, .forward .publicly,
      .activeScenario, .activate, .deactivate, .loadTests, .runLoadTest]
    decide
  | publicly =>
    refine ⟨(routes apiPath).take 4, (routes apiPath).drop 5, rfl, hendpoint _ ?_⟩
    show Endpoint.forward .publicly ∉ [.health, .readiness, .metrics, .forward .authenticated,
      .activeScenario, .activate, .deactivate, .loadTests, .runLoadTest]
    decide

/-- **Behind an entrance there is one route.** -/
theorem find?_entrance {site : Site σ} (h : Freed site) (mode : Resolve.Mode) {tail : List Char}
    (htail : tail ≠ []) :
    find? (routes site.config.server.apiPrefix) (entrance mode ++ String.ofList ('/' :: tail))
      = some ⟨entranceRoute mode, [⟨"path", String.ofList tail⟩]⟩ := by
  obtain ⟨before, after, htable, honce⟩ := routes_eq_append site.config.server.apiPrefix mode
  have hnone : ∀ route ∈ before ++ after,
      (capture? route.pattern ((entranceSegments mode).map String.toList
        ++ Text.splitOn '/' tail)).map (Found.mk route) = none := by
    intro route hroute
    have hmem : route ∈ routes site.config.server.apiPrefix := by
      rw [htable]
      exact ((List.sublist_append_right [entranceRoute mode] after).append_left before).subset
        hroute
    rw [capture?_other h hmem (fun heq => honce (heq ▸ hroute))]
    rfl
  rw [List.forall_mem_append] at hnone
  unfold find?
  simp only
  rw [splitOn_entrance, htable, List.filterMap_append, List.filterMap_eq_nil_iff.mpr hnone.1,
    List.filterMap_cons, List.filterMap_eq_nil_iff.mpr hnone.2, capture?_entrance mode htail]
  rfl

/-- **What is forwarded behind an entrance**: the decoded rest of the path, if it is a text. -/
theorem forwarded?_entrance {site : Site σ} (h : Freed site) {mode : Resolve.Mode}
    {tail : List Char} (htail : tail ≠ []) {r : Request}
    (hpath : r.target.path = entrance mode ++ String.ofList ('/' :: tail)) :
    forwarded? site r = (Url.decodeText? tail).map
      fun part => Forward.request mode (String.ofList part) r := by
  unfold forwarded?
  rw [hpath, find?_entrance h mode htail]
  simp only [entranceRoute, Found.text, Capture.text, String.toList_ofList]
  cases Url.decodeText? tail <;> rfl

/-! ## Declared paths -/

/-- Paths with one query are the same if they are the same with it. -/
theorem compose_left_inj {path other : String} {query : Option String} :
    compose path query = compose other query ↔ path = other := by
  constructor
  · intro h
    unfold compose at h
    simp only at h
    split at h
    next => exact h
    next =>
      have hlists := congrArg String.toList h
      rw [String.toList_ofList, String.toList_ofList] at hlists
      exact String.toList_injective (List.append_cancel_right hlists)
  · rintro rfl
    rfl

/-- The path of a forwarded request is what was sent, if nothing was there to decode. -/
theorem path_eq_iff {tail part : List Char} (hslash : tail.head? ≠ some '/')
    (hpart : Url.decodeText? tail = some part) :
    part.dropWhile (· == '/') = tail ↔ ¬ HasEscape tail := by
  constructor
  · intro heq hescape
    -- decoding makes the text shorter, and dropping slashes does not make it longer
    have hlt := Url.length_percentDecode_lt hescape
    have hle := Text.Utf8.length_encode_of_decode? hpart
    obtain ⟨slashes, hslashes⟩ := List.dropWhile_suffix (l := part) (· == '/')
    rw [heq] at hslashes
    rw [← hslashes, Url.Form.encode_append, List.length_append] at hle
    omega
  · intro hplain
    rw [Url.decodeText?_of_plain hplain] at hpart
    obtain rfl := Option.some.inj hpart
    cases tail with
    | nil => rfl
    | cons c tail =>
      refine List.dropWhile_cons_of_neg ?_
      rw [beq_iff_eq]
      rintro rfl
      exact hslash rfl

/-- What is forwarded for a declared path has its query, and its path if there was nothing to
decode. -/
theorem looked_up_iff {site : Site σ} (hfree : Freed site) {mode : Resolve.Mode}
    {declared : String} {t : Target} (ht : Target.parse? declared = some t)
    (hfragment : '#' ∉ declared.toList)
    (hslash : ∃ c rest, t.path.toList = '/' :: c :: rest ∧ c ≠ '/') {r : Request}
    (hr : Target.parse? (entrance mode ++ declared) = some r.target) :
    (∀ q, forwarded? site r = some q →
      (compose q.path q.query = canonical declared ↔ ¬ HasEscape t.path.toList)) ∧
    (¬ HasEscape t.path.toList → ∃ q, forwarded? site r = some q) := by
  obtain ⟨c, rest, hpath, hc⟩ := hslash
  obtain ⟨hparsed, hdeclared, hmark⟩ := parse?_entrance ht hfragment mode
  have htarget : r.target = ⟨entrance mode ++ t.path, t.query⟩ :=
    Option.some.inj (hr.symm.trans hparsed)
  have hescape : HasEscape t.path.toList ↔ HasEscape (c :: rest) := by
    rw [hpath, Url.hasEscape_cons, or_iff_right]
    exact Url.not_startsEscape (by decide)
  have hentrance : r.target.path = entrance mode ++ String.ofList ('/' :: c :: rest) := by
    rw [htarget, ← hpath, String.ofList_toList]
  have hforwarded := forwarded?_entrance hfree (List.cons_ne_nil c rest) hentrance
  constructor
  · intro q hq
    rw [hforwarded] at hq
    obtain ⟨part, hpart, rfl⟩ := Option.map_eq_some_iff.mp hq
    have hhead : (c :: rest).head? ≠ some '/' := fun h => hc (Option.some.inj h)
    rw [hdeclared, Url.Lookup.canonical_withQuery hmark, hescape, ← path_eq_iff hhead hpart]
    show compose (String.ofList ('/' :: (String.ofList part).toList.dropWhile (· == '/')))
      r.target.query = compose t.path t.query ↔ _
    rw [htarget, compose_left_inj, String.toList_ofList, ← String.toList_inj, String.toList_ofList,
      hpath, List.cons.injEq]
    exact and_iff_right rfl
  · intro hplain
    rw [hescape] at hplain
    rw [hforwarded, Url.decodeText?_of_plain hplain]
    exact ⟨_, rfl⟩

/-- **A mock is matched by requests for its declared path, unless the path has an escape.**  For
every path that a mock can be declared with, a request for it behind an entrance is forwarded with
the path that the mock is stored under exactly if there is no percent escape in the path before the
query.  Then the mock answers it; otherwise it answers no request for its own path. -/
theorem looked_up_as_declared_iff (site : Site σ) (hfree : Freed site) (mode : Resolve.Mode)
    (declared : String) (t : Target) (ht : Target.parse? declared = some t)
    (hfragment : '#' ∉ declared.toList)
    (hslash : ∃ c rest, t.path.toList = '/' :: c :: rest ∧ c ≠ '/') (r : Request)
    (hr : Target.parse? (entrance mode ++ declared) = some r.target) :
    ((∃ q, forwarded? site r = some q ∧ compose q.path q.query = canonical declared) ↔
      ¬ HasEscape t.path.toList) ∧
    ∀ (s after : Store) (m stored : Mock), m.path = declared →
      s.addMock? m = .ok (after, stored) →
      ((∃ q, forwarded? site r = some q ∧
        stored.answers { stored.key with path := compose q.path q.query } = true) ↔
        ¬ HasEscape t.path.toList) := by
  obtain ⟨hpath, hsome⟩ := looked_up_iff hfree ht hfragment hslash hr
  have hiff : (∃ q, forwarded? site r = some q ∧ compose q.path q.query = canonical declared) ↔
      ¬ HasEscape t.path.toList := by
    constructor
    · rintro ⟨q, hq, heq⟩
      exact (hpath q hq).mp heq
    · intro hplain
      obtain ⟨q, hq⟩ := hsome hplain
      exact ⟨q, hq, (hpath q hq).mpr hplain⟩
  refine ⟨hiff, ?_⟩
  rintro s after m stored rfl hadd
  rw [← hiff]
  -- the mock is stored under the canonical form of its declared path
  obtain ⟨-, hstored, -⟩ := Store.addMock?_eq_ok hadd
  have hkey : stored.path = canonical m.path := by rw [hstored]; rfl
  have hanswers : ∀ path, stored.answers { stored.key with path } = true ↔ path = stored.path := by
    intro path
    rw [Mock.answers_iff]
    constructor
    · intro h
      exact (congrArg MockKey.path h).symm
    · rintro rfl
      rfl
  simp only [hanswers, hkey]

/-- A search that declares its parameters in another order. -/
def declaredSearch : String := "/search?b=2&a=1"

def search : Request := { ping with target := ⟨"/public/forward/search", some "b=2&a=1"⟩ }

theorem search_looked_up_as_declared :
    ∃ q, forwarded? plainSite search = some q ∧
      compose q.path q.query = canonical declaredSearch := by
  have hsearch := looked_up_as_declared_iff plainSite (by decide) .publicly declaredSearch
    ⟨"/search", some "b=2&a=1"⟩ (by decide +kernel) (by decide)
    ⟨'s', ['e', 'a', 'r', 'c', 'h'], by decide, by decide⟩ search (by decide +kernel)
  exact hsearch.1.mpr (by decide)

/-- **A mock whose path has an escape is missed by requests for this path**: it is stored with the
escape and looked up without it. -/
theorem escaped_path_missed :
    Target.parse? "/a%20b" = some ⟨"/a%20b", none⟩ ∧
    (forwarded? plainSite { ping with target := ⟨"/public/forward/a%20b", none⟩ }).map
      (fun q => compose q.path q.query) = some "/a b" ∧
    canonical "/a%20b" = "/a%20b" := by
  decide +kernel

end MockServer.Api
