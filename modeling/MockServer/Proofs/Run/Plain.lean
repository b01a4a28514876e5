/-
  MockServer.Proofs.Run.Plain — commands without flags in their texts.

  A command whose texts hold no flag, and whose quotes end where they
  should, is read as it is written.

  Main definitions:
    * `Command.Plain` — texts that stay what they are inside quotes.

  Main results:
    * `parse?_text` — the request of a plain command.
-/
import MockServer.Proofs.Run.Legible

namespace MockServer.Run.Curl

/-! ## Plain texts -/

/-- What the readers of a line look for. -/
def words : List (List Char) :=
  ["-X ", "--request ", "-H ", "--header ", "-d ", "--data"].map String.toList

/-- Is nothing in the text that a reader looks for? -/
def Quiet (cs : List Char) : Prop := ∀ word ∈ words, Text.occurs word cs = false

/-- A text that stays what it is between single quotes. -/
structure Plain (cs : List Char) : Prop where
  ne : cs ≠ []
  quote : '\'' ∉ cs
  single : squeeze false cs = cs
  quiet : Quiet cs

structure Arg.Plain (a : Arg (List Char)) : Prop where
  flag : a.flag ∈ a.kind.flags
  quoted : Curl.Plain a.quoted
  fits : a.Fits

structure Command.Plain (c : Command (List Char)) : Prop where
  url : Curl.Plain c.url
  quote : '"' ∉ c.url
  args : ∀ a ∈ c.args, a.Plain

instance (cs : List Char) : Decidable (Quiet cs) :=
  inferInstanceAs (Decidable (∀ word ∈ words, _))

instance (cs : List Char) : Decidable (Plain cs) :=
  decidable_of_iff (cs ≠ [] ∧ '\'' ∉ cs ∧ squeeze false cs = cs ∧ Quiet cs)
    ⟨fun h => ⟨h.1, h.2.1, h.2.2.1, h.2.2.2⟩, fun h => ⟨h.ne, h.quote, h.single, h.quiet⟩⟩

instance (a : Arg (List Char)) : Decidable a.Plain :=
  decidable_of_iff (a.flag ∈ a.kind.flags ∧ Curl.Plain a.quoted ∧ a.Fits)
    ⟨fun h => ⟨h.1, h.2.1, h.2.2⟩, fun h => ⟨h.flag, h.quoted, h.fits⟩⟩

instance (c : Command (List Char)) : Decidable c.Plain :=
  decidable_of_iff (Curl.Plain c.url ∧ '"' ∉ c.url ∧ ∀ a ∈ c.args, a.Plain)
    ⟨fun h => ⟨h.1, h.2.1, h.2.2⟩, fun h => ⟨h.url, h.quote, h.args⟩⟩

/-! ## Silence -/

theorem Quiet.silent {cs : List Char} (h : Quiet cs) (kind : Kind) : Silent kind cs := by
  have hwords : ∀ flag ∈ kind.flags, ∃ word ∈ words,
      Text.occurs word (flag.toList ++ [' ']) = true := by cases kind <;> decide
  intro flag hflag
  obtain ⟨word, hword, hin⟩ := hwords flag hflag
  rw [← Bool.not_eq_true, Text.occurs_iff]
  intro hflagin
  have hoccurs := Text.occurs_iff.mpr ((Text.occurs_iff.mp hin).trans hflagin)
  rw [h word hword] at hoccurs
  exact Bool.false_ne_true hoccurs

/-- Silent texts with a quote between them are silent together. -/
theorem silent_append_quote {kind : Kind} {cs rest : List Char} (h : Silent kind cs)
    (hrest : Silent kind rest) : Silent kind (cs ++ '\'' :: rest) := by
  intro flag hflag
  have hne : flag.toList ++ [' '] ≠ [] :=
    List.append_ne_nil_of_right_ne_nil _ (List.cons_ne_nil _ _)
  rw [Text.occurs_append_cons (quote_not_mem_flag kind flag hflag) hne, h flag hflag,
    hrest flag hflag, Bool.or_self]

section Plain

variable {c : Command (List Char)}

/-- **No flag of a kind stands in a plain command** without arguments of the kind. -/
theorem silent_text (h : c.Plain) {kind : Kind} (hkind : ∀ a ∈ c.args, a.kind ≠ kind) :
    Silent kind c.text := by
  have hcurl : Silent kind "curl ".toList := by cases kind <;> decide
  have hargs : Silent kind (c.args.flatMap Arg.text) := by
    have hall : ∀ a ∈ c.args, Silent kind a.lead ∧ Silent kind a.quoted := fun a ha =>
      ⟨silent_lead (h.args a ha).flag (hkind a ha), (h.args a ha).quoted.quiet.silent kind⟩
    generalize c.args = args at hall
    induction args with
    | nil => cases kind <;> decide
    | cons a args ih =>
      rw [List.forall_mem_cons] at hall
      rw [List.flatMap_cons, text_append]
      exact silent_append_quote hall.1.1 (silent_append_quote hall.1.2 (ih hall.2))
  exact silent_append_quote hcurl (silent_append_quote (h.url.quiet.silent kind) hargs)

/-- The arguments of a plain command can be told apart. -/
theorem Arg.Plain.legible {a : Arg (List Char)} (h : a.Plain) : a.Legible where
  flag := h.flag
  ne := h.quoted.ne
  quote := h.quoted.quote
  single := h.quoted.single
  fits := h.fits
  hidden := fun kind _ _ => (h.quoted.quiet.silent kind).not_shows

/-! ## The parts of a request -/

/-- **The method is the one that is named first.** -/
theorem search_methodFlag? (h : c.Plain) :
    search methodFlag? c.text = c.args.findSome? Arg.method? := by
  rw [← line_nil, search_line opens_methodFlag? (h.url.quiet.silent .method).not_shows]
  refine search_args rfl fun a ha rest => ?_
  have hplain := h.args a ha
  have hquiet := (hplain.quoted.quiet.silent .method).not_shows
  cases a with
  | method flag name =>
    rw [search_own (a := .method flag name) opens_methodFlag?.needs
      (methodFlag?_own hplain.flag hplain.quoted.ne hplain.fits rest)]
    rfl
  | header flag name value =>
    exact search_hidden opens_methodFlag? hplain.flag nofun hquiet rest
  | data flag content =>
    exact search_hidden opens_methodFlag? hplain.flag nofun hquiet rest

/-- **Without a method of its own, a command has that of a request with data or without.** -/
theorem occurs_data (h : c.Plain) :
    mentionsData c.text = c.args.any fun a => a.kind = .data := by
  have hquiet : ∀ {cs}, Quiet cs → mentionsData cs = false := by
    intro cs hcs
    unfold mentionsData
    rw [hcs _ (by decide), hcs _ (by decide)]
    rfl
  have hargs : (c.args.any fun a => mentionsData a.quoted) = false := by
    rw [List.any_eq_false]
    intro a ha
    rw [hquiet (h.args a ha).quoted.quiet]
    exact Bool.false_ne_true
  rw [mentionsData_text fun a ha => (h.args a ha).flag, hquiet h.url.quiet, hargs, Bool.or_false,
    Bool.or_false]

theorem method_text (h : c.Plain) : method c.text = c.method := by
  rw [method_eq, search_methodFlag? h, occurs_data h]
  rfl

theorem body_text (h : c.Plain) : body c.text = c.data?.getD [] := by
  unfold body
  cases hdata : c.data? with
  | some content =>
    have hfound : search (quotedData? '\'') c.text = some content := by
      rw [← line_nil, search_quotedData?_line (h.url.quiet.silent .data).not_shows (mute_nil .data)
        fun a ha => (h.args a ha).legible]
      exact hdata
    rw [hfound]
    rfl
  | none =>
    have hkind : ∀ a ∈ c.args, a.kind ≠ .data := by
      intro a ha hdataKind
      have hnone := List.findSome?_eq_none_iff.mp hdata a ha
      cases a with
      | data flag content => exact absurd hnone nofun
      | method flag name => exact absurd hdataKind nofun
      | header flag name value => exact absurd hdataKind nofun
    have hsilent := silent_text h hkind
    rw [search_silent (needs_quotedData? _) hsilent, search_silent (needs_quotedData? _) hsilent,
      search_silent needs_bracedData? hsilent]
    rfl

/-- **A plain command describes the request it is written for.** -/
theorem parse?_text (h : c.Plain) :
    CurlCommand.parse? (String.ofList c.text) = .ok c.request := by
  have hline : oneLine (line c.url [] c.args) = line c.url [] c.args :=
    oneLine_line h.url.single (fun _ => rfl) (by simp) fun a ha =>
      ⟨(h.args a ha).flag, (h.args a ha).quoted.single⟩
  have hparse := parse?_line hline h.url.ne (isQuote_of_not_mem h.url.quote h.quote)
  rw [headers_line (h.url.quiet.silent .header).not_shows (mute_nil .header)
    fun a ha => (h.args a ha).legible, line_nil, method_text h, body_text h] at hparse
  exact hparse

end Plain

end MockServer.Run.Curl
