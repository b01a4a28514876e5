/-
  MockServer.Proofs.Run.Mention — flags inside quoted texts.

  The address, the headers and the quoted data of a command with quoted
  arguments are read as they are written, whatever flags are in the
  texts.  The method and data in braces are not: a quoted text that
  names a method sets it, a quoted text with a flag of data makes the
  request one with data, and braces behind such a flag become the data.

  Main definitions:
    * `Command.Quoted` — a command whose texts have no quotes;
    * `Command.reading` — the request that it is read as;
    * `Command.Unmistaken` — no text is taken for a flag.

  Main results:
    * `search_methodFlag?_quoted` — the method is the first that a text
      names;
    * `parse?_quoted` — what is read, and when it is what is written;
    * `quoted_text_as_flag` — a note that changes the request.
-/
import MockServer.Proofs.Dict
import MockServer.Proofs.Run.Legible

namespace MockServer.Run.Curl

/-! ## Quoted commands -/

/-- A header or data with texts for quotes. -/
def Arg.Quoted : Arg (List Char) → Prop
  | .method .. => False
  | .header flag name value =>
    flag ∈ Kind.header.flags ∧ name ≠ [] ∧ ':' ∉ name ∧ Quotable name ∧ Quotable value
  | .data flag content => flag ∈ Kind.data.flags ∧ content ≠ [] ∧ Quotable content

/-- A command of an address without blanks, headers of distinct names, and data. -/
structure Command.Quoted (c : Command (List Char)) : Prop where
  url : Word c.url
  args : ∀ a ∈ c.args, a.Quoted
  names : (c.headers.map Prod.fst).Nodup

instance : (a : Arg (List Char)) → Decidable a.Quoted
  | .method .. => .isFalse id
  | .header .. => inferInstanceAs (Decidable (_ ∧ _))
  | .data .. => inferInstanceAs (Decidable (_ ∧ _))

/-- The method that a quoted text names first. -/
def Command.mention? (c : Command (List Char)) : Option (List Char) :=
  c.args.findSome? fun a => search methodFlag? a.quoted

/-- The request that a quoted command is read as. -/
def Command.reading (c : Command (List Char)) : CurlCommand :=
  { c.request with
    method := String.ofList (c.mention?.getD (if mentionsData c.text then "POST".toList
      else "GET".toList))
    body := String.ofList (c.data?.getD ((search bracedData? c.text).getD [])) }

/-- No quoted text is taken for a flag, or what it changes is as it was. -/
structure Command.Unmistaken (c : Command (List Char)) : Prop where
  method : ∀ name, c.mention? = some name → name = c.method
  data : c.data? = none → (∀ a ∈ c.args, ¬ Shows .method a.quoted) →
    mentionsData c.url = false ∧ ∀ a ∈ c.args, mentionsData a.quoted = false
  braces : c.data? = none → ¬ Braces c.text

section Quoted

variable {a : Arg (List Char)} {c : Command (List Char)}

theorem Arg.Quoted.kind_ne (h : a.Quoted) : a.kind ≠ .method := by
  cases a with
  | method flag name => exact h.elim
  | header flag name value => exact nofun
  | data flag content => exact nofun

/-- A quoted text has no quotes. -/
theorem Arg.Quoted.quote (h : a.Quoted) : ∀ c ∈ a.quoted, isQuote c = false := by
  cases a with
  | method flag name => exact h.elim
  | header flag name value =>
    obtain ⟨-, -, -, hname, hvalue⟩ := h
    exact quote_header hname hvalue
  | data flag content => exact h.2.2.quote

/-- A quoted text does not end with a flag and a blank. -/
theorem Arg.Quoted.not_ends (h : a.Quoted) (kind : Kind) :
    ∀ flag ∈ kind.flags, ¬ flag.toList ++ [' '] <:+ a.quoted := by
  cases a with
  | method flag name => exact h.elim
  | header flag name value =>
    obtain ⟨-, -, -, -, hvalue⟩ := h
    exact not_ends_header hvalue.last kind
  | data flag content =>
    rintro flag - ⟨before, hends⟩
    refine h.2.2.last ?_
    rw [show content = before ++ (flag.toList ++ [' ']) from hends.symm, ← List.append_assoc,
      List.getLast?_concat]

/-- **The arguments of a quoted command can be told apart.** -/
theorem Arg.Quoted.legible (h : a.Quoted) : a.Legible := by
  have hquote := h.quote
  have hends := h.not_ends .header
  cases a with
  | method flag name => exact h.elim
  | header flag name value =>
    obtain ⟨hflag, hne, hcolon, hname, hvalue⟩ := h
    exact legible_header hflag hne hcolon hname hvalue
  | data flag content =>
    obtain ⟨hflag, hne, hcontent⟩ := h
    have hsingle : '\'' ∉ content := fun hmem => absurd (hquote _ hmem) (by decide)
    exact legible_data hflag hne hsingle hcontent.toIsolated
      (not_shows_quote (not_shows_of_forall hquote) hends)

theorem Command.Quoted.legible (h : c.Quoted) : ∀ a ∈ c.args, a.Legible := fun a ha =>
  (h.args a ha).legible

/-- No double quote is in a quoted command. -/
theorem Command.Quoted.double (h : c.Quoted) : '"' ∉ line c.url [] c.args := by
  have hurl : '"' ∉ c.url := fun hmem => absurd (h.url.quote _ hmem) (by decide)
  have hargs : '"' ∉ c.args.flatMap Arg.text :=
    not_mem_args (by decide) (by decide) fun a ha =>
      ⟨(h.legible a ha).flag, fun hmem => absurd ((h.args a ha).quote _ hmem) (by decide)⟩
  exact double_not_mem_line hurl List.not_mem_nil hargs

theorem Command.Quoted.oneLine (h : c.Quoted) :
    Curl.oneLine (line c.url [] c.args) = line c.url [] c.args :=
  oneLine_line (squeeze_of_isolated h.url.isolated).1 (fun _ => rfl) (by simp) fun a ha =>
    ⟨(h.legible a ha).flag, (h.legible a ha).single⟩

end Quoted

/-! ## The method -/

/-- A reader that does not look over a quote finds what is before it, else what is behind it. -/
theorem search_append_quote {α : Type} {read : List Char → Option α} (hnil : read [] = none)
    {cs rest : List Char} (h : ∀ u, u <:+ cs → read (u ++ '\'' :: rest) = read u) :
    search read (cs ++ '\'' :: rest) = (search read cs).or (search read rest) := by
  induction cs with
  | nil =>
    have hquote : read ('\'' :: rest) = none := (h [] (List.suffix_refl _)).trans hnil
    rw [List.nil_append, search_of_none hquote, search, hnil, Option.none_or]
  | cons c cs ih =>
    have hhere := h (c :: cs) (List.suffix_refl _)
    rw [List.cons_append] at hhere ⊢
    rw [search, search, hhere, ih fun u hu => h u (hu.trans (List.suffix_cons c cs)),
      Option.orElse_eq_or, Option.orElse_eq_or, Option.or_assoc]

/-- The method behind a flag ends before a quote, so what follows the quote does not matter. -/
theorem methodFlag?_append_quote {u : List Char} (hquote : ∀ c ∈ u, isQuote c = false)
    (hends : ∀ flag ∈ Kind.method.flags, u ≠ flag.toList ++ [' ']) (rest : List Char) :
    methodFlag? (u ++ '\'' :: rest) = methodFlag? u := by
  have happend : afterFlag? ["-X", "--request"] (u ++ '\'' :: rest)
      = (afterFlag? ["-X", "--request"] u).map (· ++ '\'' :: rest) :=
    afterFlag?_append_quote .method u rest
  unfold methodFlag?
  rw [happend]
  cases hafter : afterFlag? ["-X", "--request"] u with
  | none => rfl
  | some after =>
    obtain ⟨flag, hflag, rfl⟩ := afterFlag?_eq_some hafter
    cases after with
    | nil => exact absurd rfl (hends flag hflag)
    | cons c after =>
      have hc : isQuote c = false := hquote c (by simp)
      have hstop : ('\'' :: rest).takeWhile Char.isUpper = [] :=
        List.takeWhile_cons_of_neg (by decide)
      have htake : (c :: after ++ '\'' :: rest).takeWhile Char.isUpper
          = (c :: after).takeWhile Char.isUpper := by
        rw [List.takeWhile_append, hstop, List.append_nil]
        -- the letters go up to the quote, or end before it
        split_ifs with hall
        · exact (List.IsPrefix.eq_of_length (List.takeWhile_prefix _) hall).symm
        · rfl
      rw [List.cons_append] at htake
      simp only [Option.map_some, Option.bind_some, List.cons_append, hc, Bool.false_eq_true,
        if_false, htake]

/-- A text without quotes names a method exactly if a capital letter stands behind a flag. -/
theorem search_methodFlag?_eq_none_iff {cs : List Char} (hquote : ∀ c ∈ cs, isQuote c = false) :
    search methodFlag? cs = none ↔ ¬ Shows .method cs := by
  rw [search_eq_none_iff]
  constructor
  · rintro hnone ⟨flag, hflag, c, hc, before, rest, rfl⟩
    have hplain : isQuote c = false := hquote c (by simp)
    have hupper : c.isUpper = true := by
      rwa [Kind.opens, hplain, Bool.false_or] at hc
    have hread := hnone (flag.toList ++ ' ' :: c :: rest)
      ⟨before, by simp only [List.append_assoc, List.cons_append, List.nil_append]⟩
    have hafter : afterFlag? ["-X", "--request"] (flag.toList ++ ' ' :: c :: rest)
        = some (c :: rest) := afterFlag?_own hflag _
    unfold methodFlag? at hread
    rw [hafter, Option.bind_some] at hread
    simp only [hplain, Bool.false_eq_true, if_false, List.takeWhile_cons_of_pos hupper] at hread
    exact Option.some_ne_none _ hread
  · intro hshows u hu
    rw [Option.eq_none_iff_forall_ne_some]
    intro x hx
    obtain ⟨flag, hflag, c, rest, hc, rfl⟩ := opens_methodFlag? u x hx
    have hbegins : flag.toList ++ [' ', c] <+: flag.toList ++ ' ' :: c :: rest :=
      (List.prefix_append_right_inj _).mpr ⟨rest, rfl⟩
    exact hshows ⟨flag, hflag, c, hc, hbegins.isInfix.trans hu.isInfix⟩

section Mention

variable {c : Command (List Char)}

/-- **The method of a quoted command is the first that a quoted text names.** -/
theorem search_methodFlag?_quoted (h : c.Quoted) : search methodFlag? c.text = c.mention? := by
  rw [← line_nil, search_line opens_methodFlag? (h.url.not_shows .method)]
  refine search_args rfl fun a ha rest => ?_
  have hquoted := h.args a ha
  have hlead := (silent_lead hquoted.legible.flag hquoted.kind_ne).not_shows
  rw [text_append, search_pass_quote fun u hu => opens_methodFlag?.stop hlead hu _]
  refine search_append_quote rfl fun u hu => methodFlag?_append_quote ?_ ?_ rest
  · exact fun x hx => hquoted.quote x (hu.subset hx)
  · intro flag hflag heq
    exact hquoted.not_ends .method flag hflag (heq ▸ hu)

theorem mention?_eq_none_iff (h : c.Quoted) :
    c.mention? = none ↔ ∀ a ∈ c.args, ¬ Shows .method a.quoted := by
  unfold Command.mention?
  rw [List.findSome?_eq_none_iff]
  exact forall₂_congr fun a ha => search_methodFlag?_eq_none_iff (h.args a ha).quote

/-- A command has data if one of its arguments is data. -/
theorem any_data (c : Command (List Char)) :
    (c.args.any fun a => a.kind = .data) = c.data?.isSome := by
  unfold Command.data?
  rw [List.isSome_findSome?]
  congr 1
  funext a
  cases a <;> rfl

/-- A quoted command is meant to send its data, or else to get something. -/
theorem method_of_quoted (h : c.Quoted) :
    c.method = if c.data?.isSome then "POST".toList else "GET".toList := by
  have hmethod : c.args.findSome? Arg.method? = none := by
    rw [List.findSome?_eq_none_iff]
    intro a ha
    have hkind := (h.args a ha).kind_ne
    cases a with
    | method flag name => exact absurd rfl hkind
    | header flag name value => rfl
    | data flag content => rfl
  unfold Command.method
  rw [hmethod, any_data, Option.getD_none]

/-- Whether a command has data can be seen from its text, unless a quoted text says otherwise. -/
theorem mentionsData_quoted (h : c.Quoted) :
    mentionsData c.text = c.data?.isSome ↔
      (c.data? = none →
        mentionsData c.url = false ∧ ∀ a ∈ c.args, mentionsData a.quoted = false) := by
  rw [mentionsData_text fun a ha => (h.legible a ha).flag, any_data]
  cases c.data? with
  | some content => exact ⟨fun _ => nofun, fun _ => rfl⟩
  | none =>
    rw [Option.isSome_none, Bool.false_or, Bool.or_eq_false_iff, List.any_eq_false]
    simp only [Bool.not_eq_true, true_implies]

/-- **The method is the one that is meant** unless a text names another one or stands for data. -/
theorem method_reading_iff (h : c.Quoted) :
    c.mention?.getD (if mentionsData c.text then "POST".toList else "GET".toList) = c.method ↔
      (∀ name, c.mention? = some name → name = c.method) ∧
      (c.data? = none → (∀ a ∈ c.args, ¬ Shows .method a.quoted) →
        mentionsData c.url = false ∧ ∀ a ∈ c.args, mentionsData a.quoted = false) := by
  rw [← mention?_eq_none_iff h]
  -- a method that is named counts whatever the data is
  cases hmention : c.mention? with
  | some name =>
    refine ⟨fun heq => ⟨fun other hother => ?_, fun _ hnone => absurd hnone nofun⟩, fun heq => ?_⟩
    · rw [← Option.some.inj hother]
      exact heq
    · exact heq.1 name rfl
  | none =>
    have hmethod : ((if mentionsData c.text then "POST".toList else "GET".toList)
        = if c.data?.isSome then "POST".toList else "GET".toList) ↔
          mentionsData c.text = c.data?.isSome := by
      cases mentionsData c.text <;> cases c.data?.isSome <;> decide
    rw [Option.getD_none, method_of_quoted h, hmethod, mentionsData_quoted h]
    exact ⟨fun heq => ⟨nofun, fun hdata _ => heq hdata⟩, fun heq hdata => heq.2 hdata rfl⟩

end Mention

/-! ## The request -/

section Request

variable {c : Command (List Char)}

theorem parse?_reading (h : c.Quoted) :
    CurlCommand.parse? (String.ofList c.text) = .ok c.reading := by
  have hparse := parse?_line h.oneLine h.url.ne h.url.quote
  rw [headers_line (h.url.not_shows .header) (mute_nil .header) h.legible,
    body_line (h.url.not_shows .data) (mute_nil .data) h.legible fun _ => h.double, line_nil,
    method_eq, search_methodFlag?_quoted h] at hparse
  exact hparse

/-- The data is what is meant unless there is none and braces stand behind a flag. -/
theorem data_reading_iff (c : Command (List Char)) :
    c.data?.getD ((search bracedData? c.text).getD []) = c.data?.getD [] ↔
      (c.data? = none → ¬ Braces c.text) := by
  cases c.data? with
  | some content => exact ⟨fun _ => nofun, fun _ => rfl⟩
  | none =>
    rw [← search_bracedData?_eq_none_iff]
    cases hsearch : search bracedData? c.text with
    | none => exact ⟨fun _ _ => rfl, fun _ => rfl⟩
    | some content =>
      have hne : content ≠ [] := search_bracedData?_ne_nil hsearch
      exact ⟨fun heq => absurd heq hne, fun heq => absurd (heq rfl) nofun⟩

theorem reading_eq_request_iff (h : c.Quoted) : c.reading = c.request ↔ c.Unmistaken := by
  have hfields : c.reading = c.request ↔
      c.mention?.getD (if mentionsData c.text then "POST".toList else "GET".toList) = c.method ∧
      c.data?.getD ((search bracedData? c.text).getD []) = c.data?.getD [] := by
    unfold Command.reading Command.request
    rw [CurlCommand.mk.injEq, String.ofList_inj, String.ofList_inj, String.ofList_inj]
    exact ⟨fun heq => ⟨heq.2.1, heq.2.2.2⟩, fun heq => ⟨rfl, heq.1, rfl, heq.2⟩⟩
  rw [hfields, method_reading_iff h, data_reading_iff]
  exact ⟨fun ⟨⟨hmethod, hdata⟩, hbraces⟩ => ⟨hmethod, hdata, hbraces⟩,
    fun hc => ⟨⟨hc.method, hc.data⟩, hc.braces⟩⟩

end Request

/-- **Quoted texts of headers and data come back as they are, but not always as the request that
they are written for.** The address, the headers and the quoted data are those of the command. The
method is the first that a quoted text names, and data is found in braces behind a flag if there
is none in quotes. The command is read as it is meant exactly if none of this makes a difference. -/
theorem parse?_quoted {c : Command (List Char)} (h : c.Quoted) :
    CurlCommand.parse? (String.ofList c.text) = .ok c.reading ∧
      c.reading.headers.entries.Perm (c.headers.map fun e => (e.1, String.ofList e.2)) ∧
      (c.reading = c.request ↔ c.Unmistaken) := by
  refine ⟨parse?_reading h, Dict.entries_ofList_perm ?_, reading_eq_request_iff h⟩
  rw [List.map_map]
  exact h.names

/-- An order with flags inside its texts, none of which can be taken for one of the command. -/
def orderNote : Command (List Char) where
  url := "http://shop/-d".toList
  args := [
    .header "-H" "X-Note".toList "keep -X here".toList,
    .data "-d" "order -d 7".toList]

theorem parse?_orderNote :
    CurlCommand.parse? "curl 'http://shop/-d' -H 'X-Note: keep -X here' -d 'order -d 7'"
      = .ok {
          url := "http://shop/-d"
          method := "POST"
          headers := .ofList [("X-Note", "keep -X here")]
          body := "order -d 7" } ∧
      orderNote.Unmistaken := by
  obtain ⟨hparse, -, hmeant⟩ :=
    parse?_quoted (c := orderNote) ⟨by decide, by decide, by decide⟩
  have htext : "curl 'http://shop/-d' -H 'X-Note: keep -X here' -d 'order -d 7'"
      = String.ofList orderNote.text := by decide
  rw [htext, hparse]
  exact ⟨by decide +kernel, hmeant.mp (by decide +kernel)⟩

/-- **A note in a header changes the request**: nothing but the address and one header is written,
so it is meant to get something. -/
theorem quoted_text_as_flag :
    ∃ c : Command (List Char), c.Quoted ∧
      String.ofList c.text = "curl 'http://h/a' -H 'X-Note: retry with -X DELETE -d \x7bid\x7d'" ∧
      c.request = {
        url := "http://h/a"
        method := "GET"
        headers := .ofList [("X-Note", "retry with -X DELETE -d \x7bid\x7d")]
        body := "" } ∧
      CurlCommand.parse? (String.ofList c.text) = .ok {
        url := "http://h/a"
        method := "DELETE"
        headers := .ofList [("X-Note", "retry with -X DELETE -d \x7bid\x7d")]
        body := "\x7bid\x7d" } := by
  refine ⟨⟨"http://h/a".toList,
    [.header "-H" "X-Note".toList "retry with -X DELETE -d \x7bid\x7d".toList]⟩,
    ⟨by decide, by decide, by decide⟩, by decide, by decide, by decide +kernel⟩

end MockServer.Run.Curl
