/-
  MockServer.Proofs.Run.Render — commands that are written and read.

  A written command has its method without quotes behind the address,
  then its headers and its data in single quotes.  The texts of a
  request can be full of flags and still come back: a reader that finds
  a flag in the address or in a header misses the blank or the quote
  that has to follow.  Only data can hold both, so flags of headers are
  kept out of it.

  Main definitions:
    * `Writable`, `Renderable` — a header, a request that a command can
      hold.

  Main results:
    * `toList_render` — a written command is a line;
    * `parse?_render` — reading gives back what was written.
-/
import MockServer.Http.Method
import MockServer.Proofs.Dict
import MockServer.Proofs.Run.Legible

namespace MockServer.Run.Curl

/-! ## Written commands -/

/-- A header that a command can hold, even one without data. -/
structure Writable (header : String × String) : Prop where
  ne : header.1 ≠ ""
  colon : ':' ∉ header.1.toList
  name : Quotable header.1.toList
  value : Quotable header.2.toList
  brace : '\x7b' ∉ header.1.toList ∧ '\x7b' ∉ header.2.toList

/-- A request that a command can hold. -/
structure Renderable (url : String) (headers : List (String × String)) (body : String) : Prop where
  url : Word url.toList
  names : (headers.map Prod.fst).Nodup
  writable : ∀ h ∈ headers, Writable h
  quote : '\'' ∉ body.toList
  isolated : Isolated body.toList
  silent : ¬ "-H".toList <:+: body.toList ∧ ¬ "--header".toList <:+: body.toList

instance (header : String × String) : Decidable (Writable header) :=
  decidable_of_iff (header.1 ≠ "" ∧ ':' ∉ header.1.toList ∧ Quotable header.1.toList ∧
      Quotable header.2.toList ∧ '\x7b' ∉ header.1.toList ∧ '\x7b' ∉ header.2.toList)
    ⟨fun h => ⟨h.1, h.2.1, h.2.2.1, h.2.2.2.1, h.2.2.2.2⟩, fun h =>
      ⟨h.ne, h.colon, h.name, h.value, h.brace⟩⟩

/-- The arguments behind the method. -/
def renderedArgs (headers : List (String × String)) (body : String) : List (Arg (List Char)) :=
  headers.map (fun h => .header "-H" h.1.toList h.2.toList) ++
    if body.isEmpty then [] else [.data "-d" body.toList]

/-- The method of a written command with its flag. -/
def namedMethod (m : Http.Method) : List Char := " -X ".toList ++ m.name.toList

theorem intercalate_space (x : List Char) (xs : List (List Char)) :
    [' '].intercalate (x :: xs) = x ++ xs.flatMap (' ' :: ·) := by
  induction xs generalizing x with
  | nil => rw [List.intercalate_singleton, List.flatMap_nil, List.append_nil]
  | cons y ys ih =>
    rw [List.intercalate_cons_cons, ih, List.flatMap_cons, List.append_assoc]
    rfl

theorem toList_header (h : String × String) :
    ' ' :: ("-H '" ++ h.1 ++ ": " ++ h.2 ++ "'").toList
      = (Arg.header "-H" h.1.toList h.2.toList).text := by
  have hopen : "-H '".toList = "-H".toList ++ [' ', '\''] := by decide
  have hcolon : ": ".toList = [':', ' '] := by decide
  have hclose : "'".toList = ['\''] := by decide
  simp only [String.toList_append, hopen, hcolon, hclose, Arg.text, Arg.lead, Arg.flag,
    Arg.quoted, List.append_assoc, List.cons_append, List.nil_append]

theorem toList_data (body : String) :
    ' ' :: ("-d '" ++ body ++ "'").toList = (Arg.data "-d" body.toList).text := by
  have hopen : "-d '".toList = "-d".toList ++ [' ', '\''] := by decide
  have hclose : "'".toList = ['\''] := by decide
  simp only [String.toList_append, hopen, hclose, Arg.text, Arg.lead, Arg.flag, Arg.quoted,
    List.append_assoc, List.cons_append, List.nil_append]

/-- **A written command is a line**, with the method behind the address. -/
theorem toList_render (m : Http.Method) (url : String) (headers : List (String × String))
    (body : String) :
    (CurlCommand.render m.name url headers body).toList
      = line url.toList (namedMethod m) (renderedArgs headers body) := by
  have hcurl : "curl ".toList = "curl".toList ++ [' '] := by decide
  have hquote : "'".toList = ['\''] := by decide
  have hmethod : " -X ".toList = ' ' :: "-X ".toList := by decide
  have hheaders : (headers.map fun h => "-H '" ++ h.1 ++ ": " ++ h.2 ++ "'").flatMap
      (fun s => ' ' :: s.toList)
      = (headers.map fun h => Arg.header "-H" h.1.toList h.2.toList).flatMap Arg.text := by
    rw [List.flatMap_map, List.flatMap_map]
    exact List.flatMap_congr fun h _ => toList_header h
  have hbody : (if body.isEmpty then [] else ["-d '" ++ body ++ "'"]).flatMap
      (fun s => ' ' :: s.toList)
      = (if body.isEmpty then [] else [Arg.data "-d" body.toList]).flatMap Arg.text := by
    split_ifs
    · rfl
    · rw [List.flatMap_singleton, List.flatMap_singleton, toList_data]
  unfold CurlCommand.render
  rw [String.toList_intercalate, show " ".toList = [' '] from rfl, List.map_append, List.map_append,
    List.map_cons, List.cons_append, List.cons_append, intercalate_space]
  simp only [List.map_cons, List.map_nil, List.flatMap_append, List.flatMap_cons, List.flatMap_nil,
    List.flatMap_map (f := String.toList), hheaders, hbody]
  simp only [line, namedMethod, renderedArgs, hcurl, hquote, hmethod, String.toList_append,
    List.flatMap_append, List.append_assoc, List.cons_append, List.nil_append]

/-! ## Reading them -/

theorem mute_namedMethod (m : Http.Method) {kind : Kind} (hkind : kind ≠ .method) :
    Mute kind (namedMethod m) := by
  apply mute_of_tails
  cases kind with
  | method => exact absurd rfl hkind
  | header => cases m <;> decide
  | data => cases m <;> decide

/-- A method without quotes ends before the next character that is no capital letter. -/
theorem methodFlag?_bare {flag : String} (hflag : flag ∈ Kind.method.flags) {name : List Char}
    (hne : name ≠ []) (hupper : ∀ c ∈ name, c.isUpper = true) {rest : List Char}
    (hstop : ∀ c ∈ rest.head?, c.isUpper = false) :
    methodFlag? (flag.toList ++ ' ' :: (name ++ rest)) = some name := by
  have hfound : afterFlag? ["-X", "--request"] (flag.toList ++ ' ' :: (name ++ rest))
      = some (name ++ rest) := afterFlag?_own hflag _
  have htake := (Text.takeWhile_append_stop hupper hstop).1
  obtain ⟨c, cs, rfl⟩ := List.exists_cons_of_ne_nil hne
  have hquote : isQuote c = false := by
    rw [← Bool.not_eq_true]
    intro hc
    have hletter := hupper c List.mem_cons_self
    unfold isQuote at hc
    rw [Bool.or_eq_true, decide_eq_true_eq, decide_eq_true_eq] at hc
    rcases hc with rfl | rfl
    · exact absurd hletter (by decide)
    · exact absurd hletter (by decide)
  unfold methodFlag?
  rw [hfound, Option.bind_some, List.cons_append]
  simp only [hquote, Bool.false_eq_true, if_false]
  rw [← List.cons_append, htake]

/-- The method of a written command is found behind the address. -/
theorem method_line {url : List Char} (hurl : Word url) (m : Http.Method)
    (args : List (Arg (List Char))) :
    method (line url (namedMethod m) args) = m.name.toList := by
  have hname : m.name.toList ≠ [] ∧ ∀ c ∈ m.name.toList, c.isUpper = true := by
    cases m <;> decide
  have hstop : ∀ c ∈ (args.flatMap Arg.text).head?, c.isUpper = false := by
    intro c hc
    cases args with
    | nil => exact absurd hc nofun
    | cons a args =>
      rw [← Option.some.inj hc]
      decide
  have hnamed : ∀ rest, namedMethod m ++ rest
      = ' ' :: ("-X".toList ++ ' ' :: (m.name.toList ++ rest)) := by
    intro rest
    rw [namedMethod, show " -X ".toList = ' ' :: ("-X".toList ++ [' ']) by decide]
    simp only [List.append_assoc, List.cons_append, List.nil_append]
  have hfound : search methodFlag? (line url (namedMethod m) args) = some m.name.toList := by
    rw [search_line opens_methodFlag? (hurl.not_shows .method), hnamed,
      search_of_none (opens_methodFlag?.needs _ (afterFlag?_blank .method _))]
    exact search_of_some (methodFlag?_bare (by decide) hname.1 hname.2 hstop)
  rw [method_eq, hfound, Option.getD_some]

section Request

variable {url body : String} {headers : List (String × String)}

theorem legible_renderedArgs (h : Renderable url headers body) :
    ∀ a ∈ renderedArgs headers body, a.Legible := by
  intro a ha
  unfold renderedArgs at ha
  rw [List.mem_append, List.mem_map] at ha
  rcases ha with ⟨header, hheader, rfl⟩ | hdata
  · obtain ⟨hne, hcolon, hname, hvalue, -⟩ := h.writable header hheader
    exact legible_header (by decide) (by rwa [Ne, String.toList_eq_nil_iff]) hcolon hname hvalue
  · split_ifs at hdata with hbody
    · exact absurd hdata List.not_mem_nil
    · rw [List.mem_singleton] at hdata
      subst hdata
      -- data can hold quotes, so no flag of a header may be in it
      have hsilent : Silent .header body.toList := by
        intro flag hflag
        rw [← Bool.not_eq_true, Text.occurs_iff]
        intro hin
        have hflagin := (List.prefix_append flag.toList [' ']).isInfix.trans hin
        rcases List.mem_pair.mp hflag with rfl | rfl
        · exact h.silent.1 hflagin
        · exact h.silent.2 hflagin
      refine legible_data (by decide) ?_ h.quote h.isolated hsilent.not_shows
      rwa [String.isEmpty_iff, ← String.toList_eq_nil_iff] at hbody

theorem findSome?_renderedArgs (headers : List (String × String)) (body : String) :
    (renderedArgs headers body).findSome? Arg.data?
      = if body.isEmpty then none else some body.toList := by
  have hheaders : (headers.map fun h => Arg.header "-H" h.1.toList h.2.toList).findSome?
      Arg.data? = none := by
    rw [List.findSome?_map, List.findSome?_eq_none_iff]
    exact fun _ _ => rfl
  unfold renderedArgs
  rw [List.findSome?_append, hheaders, Option.none_or]
  split_ifs <;> rfl

theorem filterMap_renderedArgs (headers : List (String × String)) (body : String) :
    ((renderedArgs headers body).filterMap Arg.header?).map (fun h => (h.1, String.ofList h.2))
      = headers := by
  have hbody : (if body.isEmpty then [] else [Arg.data "-d" body.toList]).filterMap Arg.header?
      = [] := by split_ifs <;> rfl
  have hheader : ∀ h : String × String,
      Arg.header? (.header "-H" h.1.toList h.2.toList) = some (h.1, h.2.toList) := by
    intro h
    rw [Arg.header?, String.ofList_toList]
  unfold renderedArgs
  rw [List.filterMap_append, hbody, List.append_nil, List.filterMap_map, List.map_filterMap]
  simp only [Function.comp_apply, hheader, Option.map_some, String.ofList_toList]
  exact List.filterMap_some

/-- Without data, no argument of a written command has a double quote or an open brace. -/
theorem args_without_data (h : Renderable url headers body) (hbody : body.isEmpty = true) :
    '"' ∉ (renderedArgs headers body).flatMap Arg.text ∧
      '\x7b' ∉ (renderedArgs headers body).flatMap Arg.text := by
  have hargs : ∀ a ∈ renderedArgs headers body,
      a.flag ∈ a.kind.flags ∧ '"' ∉ a.quoted ∧ '\x7b' ∉ a.quoted := by
    intro a ha
    rw [renderedArgs, if_pos hbody, List.append_nil, List.mem_map] at ha
    obtain ⟨header, hheader, rfl⟩ := ha
    obtain ⟨-, -, hname, hvalue, hnameBrace, hvalueBrace⟩ := h.writable header hheader
    refine ⟨(by decide : "-H" ∈ Kind.header.flags), ?_, ?_⟩
    · exact fun hmem => absurd (quote_header hname hvalue _ hmem) (by decide)
    · rw [Arg.quoted, List.mem_append, List.mem_cons, List.mem_cons, not_or, not_or, not_or]
      exact ⟨hnameBrace, by decide, by decide, hvalueBrace⟩
  exact ⟨not_mem_args (by decide) (by decide) fun a ha => ⟨(hargs a ha).1, (hargs a ha).2.1⟩,
    not_mem_args (by decide) (by decide) fun a ha => ⟨(hargs a ha).1, (hargs a ha).2.2⟩⟩

theorem body_rendered (h : Renderable url headers body) (m : Http.Method) :
    Curl.body (line url.toList (namedMethod m) (renderedArgs headers body)) = body.toList := by
  have hmiddle : '"' ∉ namedMethod m ∧ '\x7b' ∉ namedMethod m := by cases m <;> decide
  rw [body_line (h.url.not_shows .data) (mute_namedMethod m nofun) (legible_renderedArgs h),
    findSome?_renderedArgs]
  · by_cases hbody : body.isEmpty = true
    · have hnone := search_bracedData?_eq_none_iff.mpr
        (not_braces_line h.url.space hmiddle.2 (args_without_data h hbody).2)
      rw [if_pos hbody, Option.getD_none, hnone]
      exact (String.toList_eq_nil_iff.mpr (String.isEmpty_iff.mp hbody)).symm
    · rw [if_neg hbody]
      rfl
  · intro hnone
    have hbody : body.isEmpty = true := by
      rw [findSome?_renderedArgs] at hnone
      by_contra hbody
      rw [if_neg hbody] at hnone
      exact absurd hnone nofun
    have hurl : '"' ∉ url.toList := fun hmem => absurd (h.url.quote _ hmem) (by decide)
    exact double_not_mem_line hurl hmiddle.1 (args_without_data h hbody).1

/-- A written command is on one line already. -/
theorem oneLine_rendered (h : Renderable url headers body) (m : Http.Method) :
    oneLine (line url.toList (namedMethod m) (renderedArgs headers body))
      = line url.toList (namedMethod m) (renderedArgs headers body) := by
  refine oneLine_line (squeeze_of_isolated h.url.isolated).1 ?_ ?_ fun a ha =>
    ⟨(legible_renderedArgs h a ha).flag, (legible_renderedArgs h a ha).single⟩
  · intro rest
    cases m <;> rfl
  · have hlast : ∃ last, (namedMethod m).getLast? = some last ∧ Text.isBlank last = false := by
      cases m <;> exact ⟨_, rfl, by decide⟩
    obtain ⟨last, hsome, hblank⟩ := hlast
    intro c hc
    rw [hsome] at hc
    rwa [← Option.some.inj hc]

end Request

/-- **A command that is written for a request is read as that request**: its method, its address,
its headers and its data are the ones that were written. -/
theorem parse?_render {m : Http.Method} {url body : String} {headers : List (String × String)}
    (h : Renderable url headers body) :
    CurlCommand.parse? (CurlCommand.render m.name url headers body)
        = .ok { url, method := m.name, headers := .ofList headers, body } ∧
      (Dict.ofList headers).entries.Perm headers := by
  refine ⟨?_, Dict.entries_ofList_perm h.names⟩
  have hparse := parse?_line (oneLine_rendered h m) h.url.ne h.url.quote
  rw [method_line h.url, body_rendered h,
    headers_line (h.url.not_shows .header) (mute_namedMethod m nofun) (legible_renderedArgs h),
    filterMap_renderedArgs, ← toList_render] at hparse
  simpa only [String.ofList_toList] using hparse

/-- Flags in the address, in the headers and in the data, and braces and double quotes in the
data. -/
theorem parse?_render_flags :
    CurlCommand.parse? (CurlCommand.render "PATCH" "http://shop/-X/-d"
        [("X-Note", "keep -X POST and -d here"), ("Accept", ""), ("-H", "--data -H")]
        " \x7b\"do\": \"-X PUT -d 7\", \"at\": \x7b\x7d\x7d")
      = .ok {
          url := "http://shop/-X/-d"
          method := "PATCH"
          headers := .ofList
            [("X-Note", "keep -X POST and -d here"), ("Accept", ""), ("-H", "--data -H")]
          body := " \x7b\"do\": \"-X PUT -d 7\", \"at\": \x7b\x7d\x7d" } := by
  exact (parse?_render (m := .patch)
    ⟨by decide, by decide, by decide, by decide, by decide, by decide⟩).1

end MockServer.Run.Curl
