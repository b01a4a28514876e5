/-
  MockServer.Proofs.Run.Extract — what a response changes among the
  variables.

  Each directive names a variable and a source in the response.  What
  it gives its variable depends on the response only, never on what
  other directives gave before, so directives of different variables
  can be carried out in any order.  A variable keeps its value when no
  directive has something for it.

  Main definitions:
    * `Resolves` — what a source leads to in a response;
    * `Gives` — what the directives have for a variable.

  Main results:
    * `find?_eq_some_iff` — a source is found exactly if it resolves;
    * `get?_setOne`, `get?_foldl_setOne` — one directive, then all;
    * `set_exact` — the variables behind a response.
-/
import MockServer.Proofs.Dict
import MockServer.Proofs.Header.Field
import MockServer.Proofs.Text.Split
import MockServer.Run.Extract

namespace MockServer.Run.Extract

/-! ## Sources -/

/-- Does a source lead to a text in a response? -/
inductive Resolves (headers : Header.Fields) (body : String) : String → String → Prop
  /-- A header counts by its first field, which must be one that can be shown and not empty. -/
  | header {name text : String} {before after : Header.Fields} {field : Header.Field} :
      headers = before ++ field :: after →
      (∀ f ∈ before, Text.sameFold f.name name = false) → Text.sameFold field.name name = true →
      (∀ b ∈ field.value, Header.isVisible b = true) → field.value ≠ [] →
      Text.Utf8.ofString text = field.value →
      Resolves headers body ("header." ++ name) text
  /-- Any other source is a path into a body that is JSON. -/
  | body {source : String} {d v : Json} :
      ¬ "header.".toList <+: source.toList → Json.value? body = some d →
      Json.Path.get? d source = some v →
      Resolves headers body source (kept v)

/-- The value of a header is that of the first field with its name. -/
theorem first?_eq_some_iff {headers : Header.Fields} {name : String} {value : List UInt8} :
    headers.first? name = some value ↔
      ∃ before field after, headers = before ++ field :: after ∧
        (∀ f ∈ before, Text.sameFold f.name name = false) ∧
        Text.sameFold field.name name = true ∧ field.value = value := by
  unfold Header.Fields.first?
  rw [Option.map_eq_some_iff]
  constructor
  · rintro ⟨field, hfind, hvalue⟩
    obtain ⟨hname, before, after, hheaders, hbefore⟩ := List.find?_eq_some_iff_append.mp hfind
    exact ⟨before, field, after, hheaders, fun f hf => by simpa using hbefore f hf, hname, hvalue⟩
  · rintro ⟨before, field, after, hheaders, hbefore, hname, hvalue⟩
    refine ⟨field, List.find?_eq_some_iff_append.mpr ⟨hname, before, after, hheaders, ?_⟩, hvalue⟩
    intro f hf
    rw [hbefore f hf]
    rfl

theorem fromHeader?_eq_some_iff {headers : Header.Fields} {name text : String} :
    fromHeader? headers name = some text ↔
      ∃ value, headers.first? name = some value ∧
        (∀ b ∈ value, Header.isVisible b = true) ∧ Text.Utf8.ofString text = value ∧
        value ≠ [] := by
  -- a text is empty exactly if it has no bytes
  have hempty : (!text.isEmpty) = true ↔ Text.Utf8.ofString text ≠ [] := by
    rw [Bool.not_eq_true', ← Bool.not_eq_true, String.isEmpty_iff, ← String.toList_eq_nil_iff]
    unfold Text.Utf8.ofString
    cases text.toList with
    | nil => exact ⟨fun h => absurd rfl h, fun h => absurd rfl h⟩
    | cons c cs =>
      refine ⟨fun _ h => ?_, fun _ => List.cons_ne_nil c cs⟩
      obtain ⟨b, bs, hchar, -⟩ := Text.Utf8.step_encodeChar c []
      rw [Text.Utf8.encode_cons, hchar] at h
      exact absurd h (List.cons_ne_nil _ _)
  unfold fromHeader?
  rw [Option.filter_eq_some_iff, Option.bind_eq_some_iff]
  constructor
  · rintro ⟨⟨value, hfirst, htext⟩, hne⟩
    obtain ⟨hvisible, hbytes⟩ := Header.visibleText?_eq_some_iff.mp htext
    exact ⟨value, hfirst, hvisible, hbytes, hbytes ▸ hempty.mp hne⟩
  · rintro ⟨value, hfirst, hvisible, hbytes, hne⟩
    exact ⟨⟨value, hfirst, Header.visibleText?_eq_some_iff.mpr ⟨hvisible, hbytes⟩⟩,
      hempty.mpr (hbytes.symm ▸ hne)⟩

/-- **A source is found exactly if it resolves.** -/
theorem find?_eq_some_iff {headers : Header.Fields} {body source text : String} :
    find? headers (Json.value? body) source = some text ↔ Resolves headers body source text := by
  unfold find?
  constructor
  · intro h
    cases hafter : Text.after? headerStart source.toList with
    | some name =>
      rw [hafter] at h
      obtain ⟨value, hfirst, hvisible, hbytes, hne⟩ := fromHeader?_eq_some_iff.mp h
      obtain ⟨before, field, after, hheaders, hbefore, hname, rfl⟩ := first?_eq_some_iff.mp hfirst
      have hsource : source = "header." ++ String.ofList name := by
        rw [← String.toList_inj, String.toList_append, Text.after?_eq_some_iff.mp hafter]
        show headerStart ++ name = headerStart ++ (String.ofList name).toList
        rw [String.toList_ofList]
      rw [hsource]
      exact .header hheaders hbefore hname hvisible hne hbytes
    | none =>
      rw [hafter] at h
      obtain ⟨v, hget, rfl⟩ := Option.map_eq_some_iff.mp h
      obtain ⟨d, hvalue, hpath⟩ := Option.bind_eq_some_iff.mp hget
      refine .body ?_ hvalue hpath
      rw [← Text.after?_isSome_iff]
      show ¬ (Text.after? headerStart source.toList).isSome = true
      rw [hafter]
      exact Bool.false_ne_true
  · intro h
    cases h with
    | @header name text before after field hheaders hbefore hname hvisible hne hbytes =>
      have hafter : Text.after? headerStart ("header." ++ name).toList = some name.toList := by
        rw [Text.after?_eq_some_iff, String.toList_append]
        rfl
      rw [hafter]
      show fromHeader? headers (String.ofList name.toList) = some text
      rw [String.ofList_toList, fromHeader?_eq_some_iff]
      exact ⟨field.value, first?_eq_some_iff.mpr ⟨before, field, after, hheaders, hbefore, hname,
        rfl⟩, hvisible, hbytes, hne⟩
    | body hstart hvalue hpath =>
      have hafter : Text.after? headerStart source.toList = none := by
        rw [← Option.not_isSome_iff_eq_none, Text.after?_isSome_iff]
        exact hstart
      rw [hafter, hvalue]
      show (Json.Path.get? _ source).map kept = _
      rw [hpath]
      rfl

/-! ## Directives -/

section Directives

variable {headers : Header.Fields} {body : Option Json}

/-- What a directive has for its variable, if both its parts are there. -/
def given? (headers : Header.Fields) (body : Option Json) (directive : String × String) :
    Option String :=
  if directive.1.isEmpty || directive.2.isEmpty then none else find? headers body directive.2

theorem setOne_eq (scope : Dict String) (directive : String × String) :
    setOne headers body scope directive
      = match given? headers body directive with
        | some value => scope.insert directive.1 value
        | none => scope := by
  unfold setOne given?
  split_ifs <;> rfl

/-- **One directive changes its own variable or nothing.** -/
theorem get?_setOne (scope : Dict String) (directive : String × String) (name : String) :
    (setOne headers body scope directive).get? name
      = if name = directive.1 then (given? headers body directive).or (scope.get? name)
        else scope.get? name := by
  rw [setOne_eq]
  cases given? headers body directive with
  | none => exact (ite_self _).symm
  | some value => exact Dict.lookup_insertEntry name directive.1 value scope.entries

/-- **Directives of different variables can be carried out in either order.** -/
theorem setOne_comm {a b : String × String} (h : a.1 ≠ b.1) (scope : Dict String) :
    setOne headers body (setOne headers body scope a) b
      = setOne headers body (setOne headers body scope b) a := by
  rw [setOne_eq _ a, setOne_eq _ b, setOne_eq _ a, setOne_eq _ b]
  cases given? headers body a with
  | none => rfl
  | some v =>
    cases given? headers body b with
    | none => rfl
    | some w => exact congrArg Dict.mk (Dict.insertEntry_comm h v w scope.entries)

/-- **A variable has what its directive gives it, or what it had.** The induction is on the
directives, the scope being that of the ones before. -/
theorem get?_foldl_setOne {es : List (String × String)} (h : (es.map Prod.fst).Nodup)
    (scope : Dict String) (name : String) :
    (es.foldl (setOne headers body) scope).get? name
      = ((es.lookup name).bind fun source => given? headers body (name, source)).or
          (scope.get? name) := by
  induction es generalizing scope with
  | nil => rfl
  | cons e es ih =>
    obtain ⟨k, source⟩ := e
    rw [List.map_cons, List.nodup_cons] at h
    rw [List.foldl_cons, ih h.2, get?_setOne, Dict.lookup_cons_eq]
    by_cases hname : name = k
    · -- no later directive has the variable
      have hlater : es.lookup name = none := by
        rw [← Option.not_isSome_iff_eq_none, Dict.isSome_lookup_iff, hname]
        exact h.1
      rw [if_pos hname, if_pos hname, hlater, hname]
      rfl
    · rw [if_neg hname, if_neg hname]

/-- The order of directives with distinct variables is lost. -/
theorem foldl_setOne_of_perm {es fs : List (String × String)} (h : (es.map Prod.fst).Nodup)
    (hperm : es.Perm fs) (scope : Dict String) :
    fs.foldl (setOne headers body) scope = es.foldl (setOne headers body) scope := by
  refine (hperm.foldl_eq' ?_ scope).symm
  intro x hx y hy z
  by_cases hxy : x.1 = y.1
  · rw [Dict.eq_of_name_eq h hx hy hxy]
  · exact setOne_comm hxy z

end Directives

/-! ## All variables -/

/-- Do the directives have a text for a variable? -/
def Gives (directives : Dict String) (headers : Header.Fields) (body name text : String) : Prop :=
  name ≠ "" ∧ ∃ source, source ≠ "" ∧ directives.get? name = some source ∧
    Resolves headers body source text

theorem given?_eq_some_iff {headers : Header.Fields} {body name source text : String} :
    given? headers (Json.value? body) (name, source) = some text ↔
      name ≠ "" ∧ source ≠ "" ∧ Resolves headers body source text := by
  unfold given?
  rw [← find?_eq_some_iff]
  by_cases hempty : (name.isEmpty || source.isEmpty) = true
  · rw [if_pos hempty]
    rw [Bool.or_eq_true, String.isEmpty_iff, String.isEmpty_iff] at hempty
    exact ⟨nofun, fun h => absurd hempty (not_or.mpr ⟨h.1, h.2.1⟩)⟩
  · rw [if_neg hempty]
    rw [Bool.or_eq_true, String.isEmpty_iff, String.isEmpty_iff, not_or] at hempty
    exact ⟨fun h => ⟨hempty.1, hempty.2, h⟩, fun h => h.2.2⟩

theorem gives_iff {directives : Dict String} {headers : Header.Fields} {body name text : String} :
    Gives directives headers body name text ↔
      ((directives.get? name).bind fun source =>
        given? headers (Json.value? body) (name, source)) = some text := by
  unfold Gives
  rw [Option.bind_eq_some_iff]
  constructor
  · rintro ⟨hname, source, hsource, hget, hresolves⟩
    exact ⟨source, hget, given?_eq_some_iff.mpr ⟨hname, hsource, hresolves⟩⟩
  · rintro ⟨source, hget, hgiven⟩
    obtain ⟨hname, hsource, hresolves⟩ := given?_eq_some_iff.mp hgiven
    exact ⟨hname, source, hsource, hget, hresolves⟩

/-- **A response sets exactly the variables it has a text for.** Every other variable keeps its
value, directives carried out in any order give the same variables, and a body that is not JSON has
nothing for a source that is not a header. -/
theorem set_exact {directives : Dict String} (h : Dict.Increasing directives.entries)
    (headers : Header.Fields) (body : String) (scope : Dict String) :
    (∀ name text, (set directives headers body scope).get? name = some text ↔
      Gives directives headers body name text ∨
        (∀ other, ¬ Gives directives headers body name other) ∧ scope.get? name = some text) ∧
    (∀ es : List (String × String), es.Perm directives.entries →
      es.foldl (setOne headers (Json.value? body)) scope = set directives headers body scope) ∧
    (Json.value? body = none → ∀ source text, Resolves headers body source text →
      "header.".toList <+: source.toList) := by
  refine ⟨?_, ?_, ?_⟩
  · intro name text
    show (directives.entries.foldl (setOne headers (Json.value? body)) scope).get? name = _ ↔ _
    rw [get?_foldl_setOne h.nodup_names, Option.or_eq_some_iff, Option.eq_none_iff_forall_ne_some]
    refine or_congr gives_iff.symm (and_congr ?_ Iff.rfl)
    exact forall_congr' fun other => not_congr gives_iff.symm
  · intro es hperm
    exact foldl_setOne_of_perm h.nodup_names hperm.symm scope
  · intro hnone source text hresolves
    cases hresolves with
    | header => exact ⟨_, (String.toList_append ..).symm⟩
    | body _ hvalue _ => exact absurd (hnone.symm.trans hvalue) nofun

/-- Directives of a sign-in: a header, two places in the body, and one place that is not there. -/
def signInDirectives : Dict String :=
  .ofList [("session", "header.x-session"), ("token", "data.token"), ("user", "data.user"),
    ("role", "data.role")]

/-- A sign-in with two fields of one name. -/
def signInHeaders : Header.Fields := [.ofText "X-Session" "s-1", .ofText "x-session" "s-2"]

def signInBody : String :=
  "\x7b\"data\": \x7b\"token\": \"abc\", \"user\": \x7b\"id\": 7\x7d\x7d\x7d"

/-- What is known before the sign-in. -/
def guest : Dict String := .ofList [("role", "guest")]

theorem signIn_set :
    Dict.Increasing signInDirectives.entries ∧
      Gives signInDirectives signInHeaders signInBody "session" "s-1" ∧
      signInDirectives.entries.reverse.foldl (setOne signInHeaders (Json.value? signInBody)) guest
        = .ofList [("role", "guest"), ("session", "s-1"), ("token", "abc"),
            ("user", "\x7b\"id\":7\x7d")] := by
  have hincreasing : Dict.Increasing signInDirectives.entries := Dict.increasing_ofList _
  obtain ⟨hset, horder, -⟩ := set_exact hincreasing signInHeaders signInBody guest
  refine ⟨hincreasing, ?_, ?_⟩
  · have hsession : (set signInDirectives signInHeaders signInBody guest).get? "session"
        = some "s-1" := by decide +kernel
    exact ((hset "session" "s-1").mp hsession).resolve_right fun h => absurd h.2 (by decide)
  · rw [horder _ (List.reverse_perm _)]
    decide +kernel

end MockServer.Run.Extract
