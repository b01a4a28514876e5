/-
  MockServer.Proofs.Run.Command — variables in quoted commands.

  Variables are put into a command before it is taken apart, and once
  more into the address and the headers that come out of it, so a value
  can become part of the command.  It does not as long as the command
  with the values is as plain as the one without them and no value
  opens a hole.  The parts are then those of the command as it is
  written, and each is filled once.

  Main definitions:
    * `Command.pieces` — a command as a text with holes;
    * `Command.Takes` — variables that leave a command plain;
    * `substitute` — the parts of a command, each filled once.

  Main results:
    * `interpolate_command` — the text of a command with the values;
    * `substitute_shape` — what values cannot change;
    * `prepare_quoted` — values that leave a command what it is;
    * `prepare_escaping` — a value that does not.
-/
import MockServer.Proofs.Dict
import MockServer.Proofs.Run.Plain
import MockServer.Proofs.Run.Template
import MockServer.Proofs.Sequence
import MockServer.Run.Execute

namespace MockServer.Run.Curl

open Template

/-! ## Pieces of commands -/

/-- The pieces between the quotes of an argument. -/
def Arg.between : Arg (List Piece) → List Piece
  | .method _ name => literals name
  | .header _ name value => literals name ++ .literal ':' :: .literal ' ' :: value
  | .data _ content => content

def Arg.pieces (a : Arg (List Piece)) : List Piece :=
  literals a.lead ++ .literal '\'' :: (a.between ++ [.literal '\''])

/-- A command as a text with holes. -/
def Command.pieces (c : Command (List Piece)) : List Piece :=
  literals "curl ".toList ++
    .literal '\'' :: (c.url ++ .literal '\'' :: c.args.flatMap Arg.pieces)

/-- Are the braces in all parts of a command those of holes? -/
structure Command.Formed (c : Command (List Piece)) : Prop where
  url : Template.Formed c.url
  args : ∀ a ∈ c.args, Template.Formed a.between

/-- Variables that have values for a command, which open no holes and leave it plain. -/
structure Command.Takes (c : Command (List Piece)) (scope : Dict String) : Prop where
  settled : Settled scope c.pieces
  plain : (c.map (filled scope)).Plain

section Map

variable {τ υ : Type} (f : τ → υ)

theorem flag_map (a : Arg τ) : (a.map f).flag = a.flag := by cases a <;> rfl

theorem kind_map (a : Arg τ) : (a.map f).kind = a.kind := by cases a <;> rfl

theorem method_map (c : Command τ) : (c.map f).method = c.method := by
  have hname : (fun a : Arg τ => (a.map f).method?) = Arg.method? := by
    funext a
    cases a <;> rfl
  unfold Command.method Command.map
  simp only [List.findSome?_map, Function.comp_def, List.any_map, kind_map, hname]

theorem headers_map (c : Command τ) :
    (c.map f).headers = c.headers.map fun h => (h.1, f h.2) := by
  unfold Command.headers Command.map
  rw [List.filterMap_map, List.map_filterMap]
  congr 1
  funext a
  cases a <;> rfl

theorem data?_map (c : Command τ) : (c.map f).data? = c.data?.map f := by
  unfold Command.data? Command.map
  rw [List.findSome?_map, List.map_findSome?]
  congr 1
  funext a
  cases a <;> rfl

end Map

section Read

variable {read : Piece → List Char} (hread : ∀ c, read (.literal c) = [c])
include hread

theorem arg_text_map (a : Arg (List Piece)) :
    (a.map (List.flatMap read)).text = a.pieces.flatMap read := by
  cases a <;>
    simp only [Arg.text, Arg.lead, Arg.flag, Arg.map, Arg.quoted, Arg.pieces, Arg.between,
      List.flatMap_append, List.flatMap_cons, List.flatMap_nil, flatMap_literals hread, hread,
      List.append_assoc, List.cons_append, List.nil_append]

/-- **The text of a command is read from its pieces.** -/
theorem text_map (c : Command (List Piece)) :
    (c.map (List.flatMap read)).text = c.pieces.flatMap read := by
  have hargs : (c.args.map (Arg.map (List.flatMap read))).flatMap Arg.text
      = (c.args.flatMap Arg.pieces).flatMap read := by
    rw [List.flatMap_map, List.flatMap_assoc]
    exact List.flatMap_congr fun a _ => arg_text_map hread a
  unfold Command.text Command.pieces
  simp only [Command.map, hargs, List.flatMap_append, List.flatMap_cons, flatMap_literals hread,
    hread, List.cons_append, List.nil_append]

end Read

/-- The pieces of a command are formed, if its flags are those of commands. -/
theorem formed_pieces {c : Command (List Piece)} (h : c.Formed)
    (hflags : ∀ a ∈ c.args, a.flag ∈ a.kind.flags) : Template.Formed c.pieces := by
  have hlead : ∀ kind ∈ Kind.all, ∀ flag ∈ kind.flags,
      '\x7b' ∉ ' ' :: (flag.toList ++ [' ']) := by decide
  have hquote : ∀ {pieces}, Template.Formed pieces → Template.Formed (.literal '\'' :: pieces) :=
    fun hpieces => ⟨fun hbrace => absurd hbrace (by decide), hpieces⟩
  have harg : ∀ a ∈ c.args, Template.Formed a.pieces := fun a ha =>
    formed_append (formed_literals (hlead a.kind a.kind.mem_all a.flag (hflags a ha)))
      (hquote (formed_append (h.args a ha) (hquote trivial)))
  have hargs : ∀ {args : List (Arg (List Piece))}, (∀ a ∈ args, Template.Formed a.pieces) →
      Template.Formed (args.flatMap Arg.pieces) := by
    intro args hall
    induction args with
    | nil => trivial
    | cons a args ih =>
      rw [List.forall_mem_cons] at hall
      exact formed_append hall.1 (ih hall.2)
  exact formed_append (formed_literals (by decide))
    (hquote (formed_append h.url (hquote (hargs harg))))

/-! ## Filling commands -/

section Fill

variable {scope : Dict String} {pieces : List Piece}

theorem interpolate_written (h : Template.Formed pieces) (hscope : Settled scope pieces)
    (part : String) :
    interpolate scope part (String.ofList (written pieces))
      = .ok (String.ofList (filled scope pieces)) := by
  unfold interpolate fill
  rw [String.toList_ofList, fillChars_written h hscope.missing]
  rfl

/-- A part that was filled with the command is not changed any more. -/
theorem interpolate_filled (h : Template.Formed pieces) (hscope : Settled scope pieces)
    (part : String) :
    interpolate scope part (String.ofList (filled scope pieces))
      = .ok (String.ofList (filled scope pieces)) := by
  unfold interpolate fill
  rw [String.toList_ofList, fillChars_filled h hscope]
  rfl

end Fill

/-- Headers are filled one by one. -/
theorem interpolateHeaders_map {α : Type} {scope : Dict String} (before after : α → String)
    {es : List (String × α)}
    (h : ∀ e ∈ es, ∀ part, interpolate scope part (before e.2) = .ok (after e.2)) (part : String) :
    interpolateHeaders scope part (es.map fun e => (e.1, before e.2))
      = .ok (es.map fun e => (e.1, after e.2)) := by
  induction es with
  | nil => rfl
  | cons e es ih =>
    rw [List.forall_mem_cons] at h
    rw [List.map_cons, interpolateHeaders, h.1, ih h.2]
    rfl

/-- Filling keeps the names of headers. -/
theorem names_of_interpolateHeaders {scope : Dict String} {part : String}
    {es fs : List (String × String)} (h : interpolateHeaders scope part es = .ok fs) :
    fs.map Prod.fst = es.map Prod.fst := by
  induction es generalizing fs with
  | nil => rw [← Except.ok.inj h]
  | cons e es ih =>
    rw [interpolateHeaders] at h
    obtain ⟨value, -, h⟩ := bind_eq_ok.mp h
    obtain ⟨rest, hrest, h⟩ := bind_eq_ok.mp h
    rw [← Except.ok.inj h, List.map_cons, List.map_cons, ih hrest]

/-! ## Preparing steps -/

/-- The parts of a command as they are written, each filled once; what the step says itself comes
first. -/
def substitute (step : Step) (curl : CurlCommand) (scope : Dict String) :
    Except String Prepared := do
  let url ← interpolate scope "URL" curl.url
  let body ← (if step.body.isEmpty then interpolate scope "curl body" curl.body
    else interpolate scope "body" step.body)
  let method := if step.method.isEmpty then curl.method else step.method
  let inner ← interpolateHeaders scope "curl header " curl.headers.entries
  let outer ← interpolateHeaders scope "step header " step.headers.entries
  return { method, url, headers := baseline ++ inner ++ outer, body }

/-- **Values change neither the method nor the names of the headers.** -/
theorem substitute_shape {step : Step} {curl : CurlCommand} {scope : Dict String} {p : Prepared}
    (h : substitute step curl scope = .ok p) :
    p.method = (if step.method.isEmpty then curl.method else step.method) ∧
      p.headers.map Prod.fst
        = baseline.map Prod.fst ++ curl.headers.names ++ step.headers.names := by
  unfold substitute at h
  obtain ⟨url, -, h⟩ := bind_eq_ok.mp h
  obtain ⟨body, -, h⟩ := bind_eq_ok.mp h
  obtain ⟨inner, hinner, h⟩ := bind_eq_ok.mp h
  obtain ⟨outer, houter, h⟩ := bind_eq_ok.mp h
  rw [← Except.ok.inj h]
  refine ⟨rfl, ?_⟩
  rw [List.map_append, List.map_append, names_of_interpolateHeaders hinner,
    names_of_interpolateHeaders houter]
  rfl

/-- A plain command is the text of its pieces. -/
theorem interpolate_command {c : Command (List Piece)} {scope : Dict String} (h : c.Takes scope)
    (hformed : c.Formed) (part : String) :
    interpolate scope part (String.ofList (c.map written).text)
      = .ok (String.ofList (c.map (filled scope)).text) := by
  have hflags : ∀ a ∈ c.args, a.flag ∈ a.kind.flags := by
    intro a ha
    have hplain := (h.plain.args (a.map (filled scope)) (List.mem_map_of_mem ha)).flag
    rwa [flag_map, kind_map] at hplain
  have hwritten : (c.map written).text = written c.pieces := text_map (fun _ => rfl) c
  have hfilled : (c.map (filled scope)).text = filled scope c.pieces := text_map (fun _ => rfl) c
  rw [hwritten, hfilled]
  exact interpolate_written (formed_pieces hformed hflags) h.settled part

/-! ## Parts of commands -/

section Parts

variable {c : Command (List Piece)} {scope : Dict String}

/-- What ends an argument can be filled on its own. -/
theorem fills_suffix (hformed : c.Formed) (h : c.Takes scope) {a : Arg (List Piece)}
    (ha : a ∈ c.args) {pieces : List Piece} (hpieces : pieces <:+ a.between) :
    Template.Formed pieces ∧ Settled scope pieces := by
  obtain ⟨before, hbetween⟩ := hpieces
  have hargument : a.between ⊆ a.pieces := fun piece hpiece =>
    List.mem_append_right _ (List.mem_cons_of_mem _ (List.mem_append_left _ hpiece))
  have hargs : a.pieces ⊆ c.pieces := fun piece hpiece =>
    List.mem_append_right _ (List.mem_cons_of_mem _ (List.mem_append_right _
      (List.mem_cons_of_mem _ (List.mem_flatMap_of_mem ha hpiece))))
  have hwhole := hformed.args a ha
  rw [← hbetween] at hwhole hargument
  exact ⟨formed_of_append hwhole, fun piece hpiece =>
    h.settled piece (hargs (hargument (List.mem_append_right before hpiece)))⟩

theorem fills_url (hformed : c.Formed) (h : c.Takes scope) :
    Template.Formed c.url ∧ Settled scope c.url :=
  ⟨hformed.url, fun piece hpiece => h.settled piece
    (List.mem_append_right _ (List.mem_cons_of_mem _ (List.mem_append_left _ hpiece)))⟩

theorem fills_data (hformed : c.Formed) (h : c.Takes scope) :
    Template.Formed (c.data?.getD []) ∧ Settled scope (c.data?.getD []) := by
  cases hdata : c.data? with
  | none => exact ⟨trivial, fun _ hpiece => absurd hpiece List.not_mem_nil⟩
  | some content =>
    obtain ⟨a, ha, hcontent⟩ := List.exists_of_findSome?_eq_some hdata
    refine fills_suffix hformed h ha ?_
    cases a with
    | data flag data => rw [← Option.some.inj hcontent]; exact List.suffix_refl _
    | method flag name => exact absurd hcontent nofun
    | header flag name value => exact absurd hcontent nofun

theorem fills_header (hformed : c.Formed) (h : c.Takes scope) {e : String × List Piece}
    (he : e ∈ (Dict.ofList c.headers).entries) :
    Template.Formed e.2 ∧ Settled scope e.2 := by
  obtain ⟨a, ha, hheader⟩ := List.mem_filterMap.mp (Dict.mem_ofList he)
  refine fills_suffix hformed h ha ?_
  cases a with
  | header flag name value =>
    rw [← Option.some.inj hheader]
    exact ⟨literals name ++ [.literal ':', .literal ' '], by
      simp only [Arg.between, List.append_assoc, List.cons_append, List.nil_append]⟩
  | method flag name => exact absurd hheader nofun
  | data flag data => exact absurd hheader nofun

/-! ## The request of a command -/

theorem request_method (read : List Piece → List Char) :
    (c.map read).request.method = String.ofList c.method := by
  unfold Command.request
  rw [method_map]

theorem request_body {read : List Piece → List Char} (hread : read [] = []) :
    (c.map read).request.body = String.ofList (read (c.data?.getD [])) := by
  unfold Command.request
  rw [data?_map]
  cases c.data? with
  | none => rw [Option.map_none, Option.getD_none, Option.getD_none, hread]
  | some content => rfl

theorem request_headers (read : List Piece → List Char) :
    (c.map read).request.headers.entries
      = (Dict.ofList c.headers).entries.map fun e => (e.1, String.ofList (read e.2)) := by
  unfold Command.request
  rw [headers_map, List.map_map]
  exact Dict.entries_ofList_map (fun value => String.ofList (read value)) c.headers

/-- The headers of a command are filled like those of the filled command, which stay the same. -/
theorem interpolateHeaders_request (hformed : c.Formed) (h : c.Takes scope) (part : String) :
    interpolateHeaders scope part (c.map written).request.headers.entries
        = .ok (c.map (filled scope)).request.headers.entries ∧
      interpolateHeaders scope part (c.map (filled scope)).request.headers.entries
        = .ok (c.map (filled scope)).request.headers.entries := by
  rw [request_headers, request_headers]
  constructor
  · exact interpolateHeaders_map (fun value => String.ofList (written value))
      (fun value => String.ofList (filled scope value))
      (fun e he => interpolate_written (fills_header hformed h he).1 (fills_header hformed h he).2)
      part
  · exact interpolateHeaders_map (fun value => String.ofList (filled scope value))
      (fun value => String.ofList (filled scope value))
      (fun e he => interpolate_filled (fills_header hformed h he).1 (fills_header hformed h he).2)
      part

end Parts

/-! ## Quoted commands -/

/-- A command that is taken apart gives its body as it is, and the other parts filled again. -/
theorem prepare_of_parse {step : Step} {scope : Dict String} {line : String} {curl : CurlCommand}
    (hcommand : isCommand step.path = true)
    (hline : interpolate scope "curl command" step.path = .ok line)
    (hparse : CurlCommand.parse? line = .ok curl) :
    prepare step scope = (do
      let url ← interpolate scope "URL" curl.url
      let body ← (if step.body.isEmpty then pure curl.body else interpolate scope "body" step.body)
      let method := if step.method.isEmpty then curl.method else step.method
      let inner ← interpolateHeaders scope "curl header " curl.headers.entries
      let outer ← interpolateHeaders scope "step header " step.headers.entries
      return { method, url, headers := baseline ++ inner ++ outer, body }) := by
  unfold prepare
  rw [if_pos hcommand]
  unfold prepareCommand
  rw [hline]
  dsimp only [bind, Except.bind]
  rw [hparse]
  by_cases hbody : step.body.isEmpty = true
  · simp only [if_pos hbody]
  · simp only [if_neg hbody]

/-- **A quoted command is prepared part by part.** -/
theorem prepare_of_takes {step : Step} {c : Command (List Piece)} {scope : Dict String}
    (hpath : step.path = String.ofList (c.map written).text) (hformed : c.Formed)
    (h : c.Takes scope) :
    prepare step scope = substitute step (c.map written).request scope := by
  have hcommand : isCommand step.path = true := by
    rw [hpath]
    exact isCommand_text _
  have hline := interpolate_command h hformed "curl command"
  rw [← hpath] at hline
  obtain ⟨hurl, hurlScope⟩ := fills_url hformed h
  obtain ⟨hdata, hdataScope⟩ := fills_data hformed h
  obtain ⟨hheaders, hagain⟩ := interpolateHeaders_request hformed h "curl header "
  have haddress : ∀ read : List Piece → List Char,
      (c.map read).request.url = String.ofList (read c.url) := fun _ => rfl
  rw [prepare_of_parse hcommand hline (parse?_text h.plain)]
  unfold substitute
  -- filling the parts of the filled command again gives them back
  rw [hheaders, hagain, haddress, haddress, interpolate_written hurl hurlScope,
    interpolate_filled hurl hurlScope, request_body rfl, request_body rfl,
    interpolate_written hdata hdataScope, request_method, request_method]
  rfl

/-- **Values that leave a quoted command plain do not change what it asks for.** The step is then
prepared from the parts of the command as it is written, each filled once, and two such tables of
variables give requests with one method and the same names of headers, in the same order. -/
theorem prepare_quoted {step : Step} {c : Command (List Piece)}
    (hpath : step.path = String.ofList (c.map written).text) (hplain : (c.map written).Plain)
    (hformed : c.Formed) :
    CurlCommand.parse? step.path = .ok (c.map written).request ∧
      (∀ scope, c.Takes scope →
        prepare step scope = substitute step (c.map written).request scope) ∧
      ∀ scope other p q, c.Takes scope → c.Takes other →
        prepare step scope = .ok p → prepare step other = .ok q →
        p.method = q.method ∧ p.headers.map Prod.fst = q.headers.map Prod.fst := by
  refine ⟨?_, fun scope h => prepare_of_takes hpath hformed h, ?_⟩
  · rw [hpath]
    exact parse?_text hplain
  · intro scope other p q hscope hother hp hq
    rw [prepare_of_takes hpath hformed hscope] at hp
    rw [prepare_of_takes hpath hformed hother] at hq
    obtain ⟨hpMethod, hpNames⟩ := substitute_shape hp
    obtain ⟨hqMethod, hqNames⟩ := substitute_shape hq
    exact ⟨hpMethod.trans hqMethod.symm, hpNames.trans hqNames.symm⟩

/-- A step that is a command and nothing else. -/
def commandStep (path : String) : Step := { (default : Step) with path }

/-- An order that is changed, with its number and a token as variables. -/
def changeOrder : Command (List Piece) where
  url := literals "http://shop/orders/".toList ++ [.hole "id".toList]
  args := [
    .method "-X" "PUT".toList,
    .header "-H" "X-Token".toList [.hole "token".toList],
    .data "-d" (literals "order ".toList ++ [.hole "id".toList])]

def changeOrderLine : String :=
  "curl 'http://shop/orders/\x7b\x7bid\x7d\x7d' -X 'PUT' " ++
    "-H 'X-Token: \x7b\x7btoken\x7d\x7d' -d 'order \x7b\x7bid\x7d\x7d'"

theorem prepare_changeOrder :
    prepare (commandStep changeOrderLine) (.ofList [("id", "7"), ("token", "a-X=b")])
      = .ok {
          method := "PUT"
          url := "http://shop/orders/7"
          headers := [("Content-Type", "application/json"), ("X-Token", "a-X=b")]
          body := "order 7" } := by
  have hpath : (commandStep changeOrderLine).path
      = String.ofList (changeOrder.map written).text := by decide
  obtain ⟨-, hquoted, -⟩ := prepare_quoted hpath (by decide) ⟨by decide, by decide⟩
  rw [hquoted _ ⟨by decide, by decide⟩]
  decide +kernel

/-- An order that is looked at. -/
def viewOrder : Step := commandStep "curl 'http://shop/orders/\x7b\x7bid\x7d\x7d'"

/-- **A value can end the quotes around the address**, and what follows is read as part of the
command. Filled after the command is taken apart, it would stay in the address. -/
theorem prepare_escaping :
    prepare viewOrder (.ofList [("id", "7")])
        = .ok {
            method := "GET"
            url := "http://shop/orders/7"
            headers := [("Content-Type", "application/json")]
            body := "" } ∧
      prepare viewOrder (.ofList [("id", "7' -X DELETE '")])
        = .ok {
            method := "DELETE"
            url := "http://shop/orders/7"
            headers := [("Content-Type", "application/json")]
            body := "" } ∧
      ∃ curl, CurlCommand.parse? viewOrder.path = .ok curl ∧
        substitute viewOrder curl (.ofList [("id", "7' -X DELETE '")])
          = .ok {
              method := "GET"
              url := "http://shop/orders/7' -X DELETE '"
              headers := [("Content-Type", "application/json")]
              body := "" } := by
  refine ⟨by decide +kernel, by decide +kernel, ⟨_, rfl, ?_⟩⟩
  decide +kernel

end MockServer.Run.Curl
