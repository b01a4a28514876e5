/-
  MockServer.Proofs.Http.Request — which headers a request has.

  The headers of a request are set in order on top of what the user of
  the URL stands for.  If all of them are legal there is a request, and
  of the headers of one name it has the last.  If one is not, the first
  such header is what the failure is about, whatever follows it.

  Main definition:
    * `Request.fault` — what is said about a header that is not legal.

  Main results:
    * `Request.setHeaders_legal` — legal headers are set in order;
    * `Request.setHeaders_first_fault` — the first header that is not
      legal;
    * `Request.values_userFields` — what the user of a URL stands for.
-/
import MockServer.Http.Request
import MockServer.Proofs.Header.Field

namespace MockServer.Http.Request

open Header (Fields isLegal)

/-! ## Setting headers -/

/-- What is said about a header that is not legal; its name is looked at first. -/
def fault (h : String × String) : RequestError :=
  if Header.isName h.1 then .headerValue h.1 else .headerName h.1

theorem setHeaders_cons (fs : Fields) (h : String × String) (hs : List (String × String)) :
    setHeaders fs (h :: hs)
      = if isLegal h then
          setHeaders (fs.replace (Text.lower h.1) (Text.Utf8.ofString h.2)) hs
        else .error (fault h) := by
  obtain ⟨name, value⟩ := h
  unfold isLegal fault
  rw [setHeaders]
  cases Header.isName name with
  | false => rfl
  | true =>
    cases Header.isValue (Text.Utf8.ofString value) with
    | false => rfl
    | true => rfl

/-- **Legal headers are set in order**, and setting goes on behind them. -/
theorem setHeaders_append {before : List (String × String)} (h : ∀ x ∈ before, isLegal x = true)
    (fs : Fields) (after : List (String × String)) :
    setHeaders fs (before ++ after) = setHeaders (fs.setAll before) after := by
  -- each legal header changes the fields that the rest is set on
  induction before generalizing fs with
  | nil => rfl
  | cons x before ih =>
    rw [List.forall_mem_cons] at h
    rw [List.cons_append, setHeaders_cons, if_pos h.1, ih h.2]
    rfl

theorem setHeaders_legal {hs : List (String × String)} (h : ∀ x ∈ hs, isLegal x = true)
    (fs : Fields) : setHeaders fs hs = .ok (fs.setAll hs) := by
  have hall := setHeaders_append h fs []
  rwa [List.append_nil] at hall

/-- **The first header that is not legal is the one the failure is about.** -/
theorem setHeaders_first_fault {before : List (String × String)} {x : String × String}
    (hbefore : ∀ y ∈ before, isLegal y = true) (hx : isLegal x = false) (fs : Fields)
    (after : List (String × String)) :
    setHeaders fs (before ++ x :: after) = .error (fault x) := by
  have hnot : ¬ isLegal x = true := by rw [hx]; exact Bool.false_ne_true
  rw [setHeaders_append hbefore, setHeaders_cons, if_neg hnot]

/-- What was set without a failure was set in order. -/
theorem setHeaders_eq_ok {hs : List (String × String)} {fs gs : Fields}
    (h : setHeaders fs hs = .ok gs) : gs = fs.setAll hs := by
  induction hs generalizing fs with
  | nil => exact (Except.ok.inj h).symm
  | cons x hs ih =>
    rw [setHeaders_cons] at h
    split at h
    · exact ih h
    · exact absurd h nofun

/-! ## The user of a URL -/

/-- The user of a URL stands for one header and no other. -/
theorem values_userFields (u : Url) (name : String) :
    (userFields u).values name
      = if Text.sameFold "authorization" name then
          (User.ofUrl? u).toList.map fun user => Text.Utf8.ofString user.authorization
        else [] := by
  unfold userFields
  cases User.ofUrl? u with
  | none =>
    rw [Fields.values_nil, Option.toList_none, List.map_nil, ite_self]
  | some user =>
    rw [Fields.values_cons, Fields.values_nil]
    rfl

/-- A name with a byte that is not text names nobody, and such a password is none. -/
example :
    let u (name password : String) : Url :=
      { (default : Url) with username := name.toList, password := password.toList }
    User.ofUrl? (u "%FF" "pw") = none ∧
    User.ofUrl? (u "us%65r" "%FF") = some ⟨"user".toList, none⟩ := by
  decide +kernel

/-! ## Requests -/

variable {method : Method} {url body : String} {u : Url} {hs : List (String × String)}

theorem build_of_parse (h : Url.parse url = .ok u) :
    build method url hs body
      = (setHeaders (userFields u) hs).map fun fs =>
          { method, url := withoutUser u, headers := fs, body } := by
  unfold build
  simp only [h]
  cases setHeaders (userFields u) hs with
  | error e => rfl
  | ok fs => rfl

/-- **A request has the last of its headers of a name**, and without one what the user of the URL
stands for. -/
theorem values_build (h : Url.parse url = .ok u) {r : Request}
    (hbuild : build method url hs body = .ok r) (name : String) :
    r.headers.values name
      = ((Header.lastNamed name hs).map fun x => [Text.Utf8.ofString x.2]).getD
          ((userFields u).values name) := by
  rw [build_of_parse h] at hbuild
  cases hset : setHeaders (userFields u) hs with
  | error e =>
    rw [hset] at hbuild
    exact absurd hbuild nofun
  | ok fs =>
    rw [hset] at hbuild
    rw [← Except.ok.inj hbuild, setHeaders_eq_ok hset]
    exact Fields.values_setAll _ hs name

/-- A URL and legal headers make a request. -/
theorem build_legal (h : Url.parse url = .ok u) (hlegal : ∀ x ∈ hs, isLegal x = true) :
    ∃ r, build method url hs body = .ok r := by
  rw [build_of_parse h, setHeaders_legal hlegal]
  exact ⟨_, rfl⟩

theorem build_first_fault (h : Url.parse url = .ok u) {before after : List (String × String)}
    {x : String × String} (hbefore : ∀ y ∈ before, isLegal y = true) (hx : isLegal x = false) :
    build method url (before ++ x :: after) body = .error (fault x) := by
  rw [build_of_parse h, setHeaders_first_fault hbefore hx]
  rfl

end MockServer.Http.Request
