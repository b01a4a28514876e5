/-
  MockServer.Proofs.Run.Legible — arguments that can be told apart.

  A reader of a command needs more than a flag of its kind: a blank and
  a certain character have to follow.  In the text of an argument that
  character is often missing, since the text holds no quotes and does
  not end with a blank, so the reader passes over the text whatever
  flags are in it.  The headers and the quoted data of such a command
  are those of its arguments.

  Main definitions:
    * `Quotable`, `Word` — texts without quotes, with single blanks inside
      or none;
    * `Shows` — does a text hold all that a reader of a kind needs?
    * `Silent`, `Mute` — texts in which no flag of a kind stands or
      begins;
    * `Arg.Legible` — an argument that no reader of another kind takes
      for its own.

  Main results:
    * `Opens.stop` — a reader finds nothing in a text that shows nothing;
    * `legible_header`, `legible_data` — arguments full of flags;
    * `headers_line`, `search_quotedData?_line`, `body_line` — what is
      found in a line.
-/
import MockServer.Proofs.Run.Curl

namespace MockServer.Run.Curl

/-! ## Texts for quotes -/

/-- The only blanks of the text are spaces, and no two of them are neighbours. -/
structure Isolated (cs : List Char) : Prop where
  space : ∀ c ∈ cs, Text.isBlank c = true → c = ' '
  single : ¬ [' ', ' '] <:+: cs

/-- The only blanks of the text are single spaces inside it. -/
structure Spaced (cs : List Char) : Prop extends Isolated cs where
  first : cs.head? ≠ some ' '
  last : cs.getLast? ≠ some ' '

/-- A text for quotes: no quotes are in it, and its only blanks are single spaces inside it. -/
structure Quotable (cs : List Char) : Prop extends Spaced cs where
  quote : ∀ c ∈ cs, isQuote c = false

/-- A text without blanks and quotes. -/
structure Word (cs : List Char) : Prop where
  ne : cs ≠ []
  quote : ∀ c ∈ cs, isQuote c = false
  blank : ∀ c ∈ cs, Text.isBlank c = false

/-- What holds of all characters of a text is checked along the text, not for every character. -/
instance decidableForallMem {p : Char → Prop} [DecidablePred p] (cs : List Char) :
    Decidable (∀ c ∈ cs, p c) :=
  List.decidableBAll p cs

instance (cs : List Char) : Decidable (Isolated cs) :=
  decidable_of_iff ((∀ c ∈ cs, Text.isBlank c = true → c = ' ') ∧ ¬ [' ', ' '] <:+: cs)
    ⟨fun h => ⟨h.1, h.2⟩, fun h => ⟨h.space, h.single⟩⟩

instance (cs : List Char) : Decidable (Spaced cs) :=
  decidable_of_iff (Isolated cs ∧ cs.head? ≠ some ' ' ∧ cs.getLast? ≠ some ' ')
    ⟨fun h => ⟨h.1, h.2.1, h.2.2⟩, fun h => ⟨h.toIsolated, h.first, h.last⟩⟩

instance (cs : List Char) : Decidable (Quotable cs) :=
  decidable_of_iff (Spaced cs ∧ ∀ c ∈ cs, isQuote c = false)
    ⟨fun h => ⟨h.1, h.2⟩, fun h => ⟨h.toSpaced, h.quote⟩⟩

instance (cs : List Char) : Decidable (Word cs) :=
  decidable_of_iff (cs ≠ [] ∧ (∀ c ∈ cs, isQuote c = false) ∧ ∀ c ∈ cs, Text.isBlank c = false)
    ⟨fun h => ⟨h.1, h.2.1, h.2.2⟩, fun h => ⟨h.ne, h.quote, h.blank⟩⟩

theorem Word.space {cs : List Char} (h : Word cs) : ' ' ∉ cs := fun hmem =>
  absurd (h.blank _ hmem) (by decide)

theorem Word.isolated {cs : List Char} (h : Word cs) : Isolated cs where
  space := fun c hc hblank => absurd ((h.blank c hc).symm.trans hblank) Bool.false_ne_true
  single := fun hin => h.space (hin.subset List.mem_cons_self)

/-- The text of a header has no quotes if its name and its value have none. -/
theorem quote_header {name value : List Char} (hname : Quotable name) (hvalue : Quotable value) :
    ∀ c ∈ name ++ ':' :: ' ' :: value, isQuote c = false := by
  intro c hc
  rw [List.mem_append, List.mem_cons, List.mem_cons] at hc
  rcases hc with hc | rfl | rfl | hc
  · exact hname.quote c hc
  · decide
  · decide
  · exact hvalue.quote c hc

/-- **Isolated blanks are not squeezed**, not even behind a blank if the text begins with none. -/
theorem squeeze_of_isolated {cs : List Char} (h : Isolated cs) :
    squeeze false cs = cs ∧ (cs.head? ≠ some ' ' → squeeze true cs = cs) := by
  induction cs with
  | nil => exact ⟨rfl, fun _ => rfl⟩
  | cons c cs ih =>
    have htail : Isolated cs :=
      ⟨fun d hd => h.space d (List.mem_cons_of_mem c hd), fun hin =>
        h.single (hin.trans (List.suffix_cons c cs).isInfix)⟩
    obtain ⟨hfalse, htrue⟩ := ih htail
    by_cases hc : Text.isBlank c = true
    · obtain rfl : c = ' ' := h.space c List.mem_cons_self hc
      have hnext : cs.head? ≠ some ' ' := by
        intro hhead
        obtain ⟨rest, rfl⟩ := List.head?_eq_some_iff.mp hhead
        exact h.single ⟨[], rest, rfl⟩
      refine ⟨?_, fun hfirst => absurd rfl hfirst⟩
      rw [squeeze, if_pos hc, if_neg Bool.false_ne_true, htrue hnext]
    · rw [squeeze, squeeze, if_neg hc, if_neg hc, hfalse]
      exact ⟨rfl, fun _ => rfl⟩

theorem trimChars_of_spaced {cs : List Char} (h : Spaced cs) : Text.trimChars cs = cs := by
  apply Text.trimWhile_eq_self
  · intro c hc
    rw [← Bool.not_eq_true]
    intro hblank
    exact h.first ((h.space c (List.mem_of_head? hc) hblank) ▸ hc)
  · intro c hc
    rw [← Bool.not_eq_true]
    intro hblank
    exact h.last ((h.space c (List.mem_of_getLast? hc) hblank) ▸ hc)

/-- The text of a header has single blanks if its name and its value have. -/
theorem squeeze_header {name value : List Char} (hname : Spaced name) (hvalue : Spaced value) :
    squeeze false (name ++ ':' :: ' ' :: value) = name ++ ':' :: ' ' :: value := by
  have hspace : squeeze false (' ' :: value) = ' ' :: squeeze true value := rfl
  rw [squeeze_append_cons (by decide), (squeeze_of_isolated hname.toIsolated).1, hspace,
    (squeeze_of_isolated hvalue.toIsolated).2 hvalue.first]

/-! ## What readers need -/

/-- The characters that a reader of a kind goes on with. -/
def Kind.opens : Kind → Char → Bool
  | .method, c => isQuote c || c.isUpper
  | .header, c => isQuote c
  | .data, c => c = '\''

/-- Does a text hold a flag of a kind, a blank and a character to go on with? -/
def Shows (kind : Kind) (cs : List Char) : Prop :=
  ∃ flag ∈ kind.flags, ∃ c, kind.opens c = true ∧ flag.toList ++ [' ', c] <:+: cs

/-- Does a reader find something only where a flag, a blank and a character to go on with stand? -/
def Opens {α : Type} (kind : Kind) (read : List Char → Option α) : Prop :=
  ∀ cs x, read cs = some x →
    ∃ flag ∈ kind.flags, ∃ c rest, kind.opens c = true ∧ cs = flag.toList ++ ' ' :: c :: rest

theorem opens_headerFlag? : Opens .header headerFlag? := by
  intro cs x h
  unfold headerFlag? at h
  obtain ⟨after, hafter, hquoted⟩ := Option.bind_eq_some_iff.mp h
  obtain ⟨flag, hflag, rfl⟩ := afterFlag?_eq_some hafter
  cases after with
  | nil => exact absurd hquoted nofun
  | cons c rest =>
    by_cases hc : isQuote c = true
    · exact ⟨flag, hflag, c, rest, hc, rfl⟩
    · rw [quoted?, if_neg hc] at hquoted
      exact absurd hquoted nofun

theorem opens_methodFlag? : Opens .method methodFlag? := by
  intro cs x h
  unfold methodFlag? at h
  obtain ⟨after, hafter, hname⟩ := Option.bind_eq_some_iff.mp h
  obtain ⟨flag, hflag, rfl⟩ := afterFlag?_eq_some hafter
  cases after with
  | nil => exact absurd hname nofun
  | cons c rest =>
    refine ⟨flag, hflag, c, rest, ?_, rfl⟩
    by_cases hc : isQuote c = true
    · rw [Kind.opens, hc, Bool.true_or]
    · rw [Kind.opens, Bool.or_eq_true]
      refine .inr ?_
      -- without a quote the name begins here
      by_contra hupper
      simp only [if_neg hc, List.takeWhile_cons_of_neg hupper] at hname
      exact absurd hname nofun

/-- Quoted data stands behind a flag and its quote. -/
theorem quotedData?_eq_some {quote : Char} {cs x : List Char} (h : quotedData? quote cs = some x) :
    ∃ flag ∈ Kind.data.flags, ∃ rest, cs = flag.toList ++ ' ' :: quote :: rest := by
  unfold quotedData? at h
  split at h
  next c rest hafter =>
    obtain ⟨flag, hflag, rfl⟩ := afterFlag?_eq_some hafter
    by_cases hc : c = quote
    · exact ⟨flag, hflag, rest, by rw [hc]⟩
    · rw [if_neg hc] at h
      exact absurd h nofun
  next => exact absurd h nofun

theorem opens_quotedData? : Opens .data (quotedData? '\'') := by
  intro cs x h
  obtain ⟨flag, hflag, rest, rfl⟩ := quotedData?_eq_some h
  exact ⟨flag, hflag, '\'', rest, rfl, rfl⟩

section Readers

variable {kind : Kind} {cs : List Char}

theorem Opens.needs {α : Type} {read : List Char → Option α} (hread : Opens kind read) :
    Needs kind read := by
  intro cs hcs
  rw [Option.eq_none_iff_forall_ne_some]
  intro x hx
  obtain ⟨flag, hflag, c, rest, -, rfl⟩ := hread _ x hx
  rw [afterFlag?_own hflag] at hcs
  exact Option.some_ne_none _ hcs

/-- A text shows nothing before a quote if it shows nothing itself and does not end with a flag and
a blank. -/
theorem not_shows_quote (h : ¬ Shows kind cs)
    (hend : ∀ flag ∈ kind.flags, ¬ flag.toList ++ [' '] <:+ cs) : ¬ Shows kind (cs ++ ['\'']) := by
  rintro ⟨flag, hflag, c, hc, hin⟩
  rcases List.infix_concat_iff.mp hin with ⟨before, hbefore⟩ | hin
  · have hcut : (before ++ (flag.toList ++ [' '])) ++ [c] = cs ++ ['\''] := by
      rw [← hbefore]
      simp only [List.append_assoc, List.cons_append, List.nil_append]
    exact hend flag hflag ⟨before, (List.append_inj' hcut rfl).1⟩
  · exact h ⟨flag, hflag, c, hc, hin⟩

/-- A text without the characters to go on with shows nothing. -/
theorem not_shows_of_forall (h : ∀ c ∈ cs, kind.opens c = false) : ¬ Shows kind cs := by
  rintro ⟨flag, -, c, hc, hin⟩
  have hmem : c ∈ cs :=
    hin.subset (List.mem_append_right _ (List.mem_cons_of_mem _ List.mem_cons_self))
  rw [h c hmem] at hc
  exact Bool.false_ne_true hc

/-- **A reader finds nothing where the text up to a quote shows nothing.** -/
theorem Opens.stop {α : Type} {read : List Char → Option α} (hread : Opens kind read)
    (h : ¬ Shows kind (cs ++ ['\''])) {u : List Char} (hu : u <:+ cs) (rest : List Char) :
    read (u ++ '\'' :: rest) = none := by
  rw [Option.eq_none_iff_forall_ne_some]
  intro x hx
  obtain ⟨flag, hflag, c, after, hc, heq⟩ := hread _ x hx
  have hafter : afterFlag? kind.flags (u ++ '\'' :: rest) = some (c :: after) := by
    rw [heq]
    exact afterFlag?_own hflag _
  rw [afterFlag?_append_quote] at hafter
  obtain ⟨more, hmore, hcut⟩ := Option.map_eq_some_iff.mp hafter
  obtain ⟨own, hown, rfl⟩ := afterFlag?_eq_some hmore
  -- the character to go on with is one of the text or the quote itself
  have hnext : own.toList ++ [' ', c] <+: own.toList ++ ' ' :: more ++ ['\''] := by
    rw [List.append_assoc, List.prefix_append_right_inj]
    cases more with
    | nil =>
      rw [List.nil_append, List.cons.injEq] at hcut
      rw [hcut.1]
      exact List.prefix_refl _
    | cons d more =>
      rw [List.cons_append, List.cons.injEq] at hcut
      rw [hcut.1]
      exact ⟨more ++ ['\''], rfl⟩
  have hwhole : own.toList ++ ' ' :: more ++ ['\''] <:+ cs ++ ['\''] := by
    obtain ⟨before, rfl⟩ := hu
    exact ⟨before, (List.append_assoc _ _ _).symm⟩
  exact h ⟨own, hown, c, hc, hnext.isInfix.trans hwhole.isInfix⟩

end Readers

/-! ## Silent texts -/

/-- Does no flag of a kind stand in the text? -/
def Silent (kind : Kind) (cs : List Char) : Prop :=
  ∀ flag ∈ kind.flags, Text.occurs (flag.toList ++ [' ']) cs = false

instance (kind : Kind) (cs : List Char) : Decidable (Silent kind cs) :=
  inferInstanceAs (Decidable (∀ flag ∈ kind.flags, _))

section Silence

variable {kind : Kind} {cs : List Char}

theorem Silent.lacks (h : Silent kind cs) {flag : String} (hflag : flag ∈ kind.flags) :
    ¬ flag.toList ++ [' '] <:+: cs := by
  rw [← Text.occurs_iff, h flag hflag]
  exact Bool.false_ne_true

theorem Silent.not_shows (h : Silent kind cs) : ¬ Shows kind (cs ++ ['\'']) := by
  refine not_shows_quote ?_ fun flag hflag hin => h.lacks hflag hin.isInfix
  rintro ⟨flag, hflag, c, -, hin⟩
  have hbegins : flag.toList ++ [' '] <+: flag.toList ++ [' ', c] :=
    (List.prefix_append_right_inj _).mpr ⟨[c], rfl⟩
  exact h.lacks hflag (hbegins.isInfix.trans hin)

/-- No reader of a kind finds anything in a silent text. -/
theorem search_silent {α : Type} {read : List Char → Option α} (hread : Needs kind read)
    (h : Silent kind cs) : search read cs = none := by
  rw [search_eq_none_iff]
  intro u hu
  apply hread
  rw [Option.eq_none_iff_forall_ne_some]
  intro after hafter
  obtain ⟨flag, hflag, rfl⟩ := afterFlag?_eq_some hafter
  have hbegins : flag.toList ++ [' '] <+: flag.toList ++ ' ' :: after :=
    (List.prefix_append_right_inj _).mpr ⟨after, rfl⟩
  exact h.lacks hflag (hbegins.isInfix.trans hu.isInfix)

theorem silent_lead {a : Arg (List Char)} (h : a.flag ∈ a.kind.flags) {kind : Kind}
    (hkind : a.kind ≠ kind) : Silent kind a.lead := by
  have hflags : ∀ own ∈ Kind.all, ∀ other ∈ Kind.all,
      own ≠ other → ∀ flag ∈ own.flags, ∀ f ∈ other.flags,
        Text.occurs (f.toList ++ [' ']) (' ' :: (flag.toList ++ [' '])) = false := by decide
  exact hflags a.kind a.kind.mem_all kind kind.mem_all hkind a.flag h

end Silence

/-! ## Data in braces -/

/-- Does a text hold data in braces behind a flag? -/
def Braces (cs : List Char) : Prop :=
  ∃ flag ∈ Kind.data.flags, ∃ inner, inner ≠ [] ∧ '\x7d' ∉ inner ∧
    flag.toList ++ ' ' :: '\x7b' :: (inner ++ ['\x7d']) <:+: cs

/-- The text up to an end is what stands before the first one. -/
theorem upTo?_eq_some {isEnd : Char → Bool} {cs inner rest : List Char}
    (h : upTo? isEnd cs = some (inner, rest)) :
    inner ≠ [] ∧ (∀ c ∈ inner, isEnd c = false) ∧
      ∃ last, isEnd last = true ∧ cs = inner ++ last :: rest := by
  unfold upTo? at h
  rw [List.span_eq_takeWhile_dropWhile] at h
  have hcs := List.takeWhile_append_dropWhile (p := fun c => !isEnd c) (l := cs)
  have hrun : ∀ c ∈ cs.takeWhile fun c => !isEnd c, isEnd c = false := fun c hc => by
    simpa using List.mem_takeWhile_imp hc
  have hhead := List.head?_dropWhile_not (fun c => !isEnd c) cs
  generalize cs.takeWhile (fun c => !isEnd c) = run at h hcs hrun
  generalize cs.dropWhile (fun c => !isEnd c) = back at h hcs hhead
  cases run with
  | nil => exact absurd h nofun
  | cons c run =>
    cases back with
    | nil => exact absurd h nofun
    | cons last back =>
      have hsame : (c :: run, back) = (inner, rest) := Option.some.inj h
      rw [Prod.mk.injEq] at hsame
      obtain ⟨rfl, rfl⟩ := hsame
      refine ⟨List.cons_ne_nil c run, hrun, last, ?_, hcs.symm⟩
      simpa using hhead

/-- **Data in braces** stands behind a flag, and its braces belong to it. -/
theorem bracedData?_eq_some_iff {cs x : List Char} :
    bracedData? cs = some x ↔
      ∃ flag ∈ Kind.data.flags, ∃ inner rest, inner ≠ [] ∧ '\x7d' ∉ inner ∧
        cs = flag.toList ++ ' ' :: '\x7b' :: (inner ++ '\x7d' :: rest) ∧
        x = '\x7b' :: inner ++ ['\x7d'] := by
  unfold bracedData?
  constructor
  · intro h
    split at h
    next after hafter =>
      obtain ⟨flag, hflag, rfl⟩ := afterFlag?_eq_some hafter
      obtain ⟨⟨inner, rest⟩, hread, rfl⟩ := Option.map_eq_some_iff.mp h
      obtain ⟨hne, hinner, last, hlast, rfl⟩ := upTo?_eq_some hread
      obtain rfl : last = '\x7d' := of_decide_eq_true hlast
      refine ⟨flag, hflag, inner, rest, hne, ?_, rfl, rfl⟩
      intro hmem
      exact absurd (hinner _ hmem) (by decide)
    next => exact absurd h nofun
  · rintro ⟨flag, hflag, inner, rest, hne, hinner, rfl, rfl⟩
    have hstop : ∀ c ∈ inner, decide (c = '\x7d') = false := fun c hc =>
      decide_eq_false fun heq => hinner (heq ▸ hc)
    have hread : upTo? (fun c => c = '\x7d') (inner ++ '\x7d' :: rest) = some (inner, rest) :=
      upTo?_stop hne hstop (by decide) rest
    have hfound : afterFlag? dataFlags (flag.toList ++ ' ' :: '\x7b' :: (inner ++ '\x7d' :: rest))
        = some ('\x7b' :: (inner ++ '\x7d' :: rest)) := afterFlag?_own hflag _
    rw [hfound]
    simp only [hread, Option.map_some]

/-- Data in braces is not empty, since its braces belong to it. -/
theorem search_bracedData?_ne_nil {cs x : List Char} (h : search bracedData? cs = some x) :
    x ≠ [] := by
  obtain ⟨u, -, hread⟩ := exists_of_search_eq_some h
  obtain ⟨-, -, inner, -, -, -, -, rfl⟩ := bracedData?_eq_some_iff.mp hread
  exact nofun

/-- **Data in braces is found exactly where some stands.** -/
theorem search_bracedData?_eq_none_iff {cs : List Char} :
    search bracedData? cs = none ↔ ¬ Braces cs := by
  rw [search_eq_none_iff]
  constructor
  · rintro hnone ⟨flag, hflag, inner, hne, hinner, before, rest, rfl⟩
    have hfound : bracedData? (flag.toList ++ ' ' :: '\x7b' :: (inner ++ '\x7d' :: rest))
        = some ('\x7b' :: inner ++ ['\x7d']) :=
      bracedData?_eq_some_iff.mpr ⟨flag, hflag, inner, rest, hne, hinner, rfl, rfl⟩
    rw [hnone _ ⟨before, by simp only [List.append_assoc, List.cons_append, List.nil_append]⟩]
      at hfound
    exact absurd hfound nofun
  · intro hbraces u hu
    rw [Option.eq_none_iff_forall_ne_some]
    intro x hx
    obtain ⟨flag, hflag, inner, rest, hne, hinner, rfl, -⟩ := bracedData?_eq_some_iff.mp hx
    refine hbraces ⟨flag, hflag, inner, hne, hinner, List.IsInfix.trans ?_ hu.isInfix⟩
    exact ((List.prefix_append_right_inj flag.toList).mpr ⟨rest, by
      rw [List.cons_append, List.cons_append, List.append_assoc, List.singleton_append]⟩).isInfix

/-! ## Arguments -/

/-- An argument that no reader of another kind takes for its own. The reader of methods is left out:
it needs no quote, so it can go on with what stands in the text. -/
structure Arg.Legible (a : Arg (List Char)) : Prop where
  flag : a.flag ∈ a.kind.flags
  ne : a.quoted ≠ []
  quote : '\'' ∉ a.quoted
  single : squeeze false a.quoted = a.quoted
  fits : a.Fits
  hidden : ∀ kind, kind ≠ a.kind → kind ≠ .method → ¬ Shows kind (a.quoted ++ ['\''])

/-- The text of a header does not end with a flag and a blank, even where its value is empty. -/
theorem not_ends_header {name value : List Char} (hvalue : value.getLast? ≠ some ' ')
    (kind : Kind) : ∀ flag ∈ kind.flags,
      ¬ flag.toList ++ [' '] <:+ name ++ ':' :: ' ' :: value := by
  have hflags : ∀ kind ∈ Kind.all, ∀ flag ∈ kind.flags, flag.toList.getLast? ≠ some ':' ∧
      flag.toList ≠ [] := by decide
  rintro flag hflag ⟨before, hends⟩
  rcases List.eq_nil_or_concat value with rfl | ⟨front, last, rfl⟩
  · -- the blank is the one behind the colon, and no flag ends with a colon
    have hcut : (before ++ flag.toList) ++ [' '] = (name ++ [':']) ++ [' '] := by
      simpa only [List.append_assoc, List.cons_append, List.nil_append] using hends
    have hlast := congrArg List.getLast? (List.append_inj' hcut rfl).1
    obtain ⟨hcolon, hne⟩ := hflags kind kind.mem_all flag hflag
    rw [List.getLast?_concat, List.getLast?_append_of_ne_nil _ hne] at hlast
    exact hcolon hlast
  · have hlast := congrArg List.getLast? hends
    have hleft : (before ++ (flag.toList ++ [' '])).getLast? = some ' ' := by
      rw [← List.append_assoc, List.getLast?_concat]
    have hright : (name ++ ':' :: ' ' :: front.concat last).getLast? = some last := by
      rw [List.concat_eq_append, ← List.cons_append, ← List.cons_append, ← List.append_assoc,
        List.getLast?_concat]
    rw [hleft, hright] at hlast
    rw [List.concat_eq_append, List.getLast?_concat] at hvalue
    exact hvalue hlast.symm

/-- **A header without quotes is legible**, whatever flags are in it. -/
theorem legible_header {flag : String} {name value : List Char} (hflag : flag ∈ Kind.header.flags)
    (hne : name ≠ []) (hcolon : ':' ∉ name) (hname : Quotable name) (hvalue : Quotable value) :
    (Arg.header flag name value).Legible where
  flag := hflag
  ne := List.append_ne_nil_of_left_ne_nil hne _
  quote := fun hmem => absurd (quote_header hname hvalue _ hmem) (by decide)
  single := squeeze_header hname.toSpaced hvalue.toSpaced
  fits := ⟨fun hmem => absurd (quote_header hname hvalue _ hmem) (by decide), hne, hcolon,
    trimChars_of_spaced hname.toSpaced, trimChars_of_spaced hvalue.toSpaced⟩
  hidden := by
    intro kind hkind hmethod
    obtain rfl : kind = .data := by
      cases kind with
      | method => exact absurd rfl hmethod
      | header => exact absurd rfl hkind
      | data => rfl
    -- data goes on with a quote, and the first one is that behind the text
    refine not_shows_quote (not_shows_of_forall fun c hc => ?_) (not_ends_header hvalue.last _)
    have hplain := quote_header hname hvalue c hc
    unfold isQuote at hplain
    rw [Bool.or_eq_false_iff] at hplain
    exact hplain.2

/-- Data is legible if it shows no header. -/
theorem legible_data {flag : String} {content : List Char} (hflag : flag ∈ Kind.data.flags)
    (hne : content ≠ []) (hquote : '\'' ∉ content) (hisolated : Isolated content)
    (hheader : ¬ Shows .header (content ++ ['\''])) : (Arg.data flag content).Legible where
  flag := hflag
  ne := hne
  quote := hquote
  single := (squeeze_of_isolated hisolated).1
  fits := trivial
  hidden := by
    intro kind hkind hmethod
    cases kind with
    | method => exact absurd rfl hmethod
    | header => exact hheader
    | data => exact absurd rfl hkind

/-- A character that is in no quoted text and in no flag is in no argument. -/
theorem not_mem_args {x : Char} {args : List (Arg (List Char))} (hx : x ≠ '\'')
    (hlead : ∀ kind ∈ Kind.all, ∀ flag ∈ kind.flags, x ∉ ' ' :: (flag.toList ++ [' ']))
    (hargs : ∀ a ∈ args, a.flag ∈ a.kind.flags ∧ x ∉ a.quoted) :
    x ∉ args.flatMap Arg.text := by
  intro hmem
  obtain ⟨a, ha, hin⟩ := List.mem_flatMap.mp hmem
  obtain ⟨hflag, hquoted⟩ := hargs a ha
  unfold Arg.text at hin
  rw [List.mem_append, List.mem_cons, List.mem_append, List.mem_singleton] at hin
  rcases hin with hin | hin | hin | hin
  · exact hlead a.kind a.kind.mem_all a.flag hflag hin
  · exact hx hin
  · exact hquoted hin
  · exact hx hin

section Arguments

variable {kind : Kind} {a : Arg (List Char)}

theorem search_hidden {α : Type} {read : List Char → Option α} (hread : Opens kind read)
    (hflag : a.flag ∈ a.kind.flags) (hkind : a.kind ≠ kind)
    (h : ¬ Shows kind (a.quoted ++ ['\''])) (rest : List Char) :
    search read (a.text ++ rest) = search read rest := by
  rw [text_append,
    search_pass_quote fun u hu => hread.stop (silent_lead hflag hkind).not_shows hu _,
    search_pass_quote fun u hu => hread.stop h hu rest]

theorem searchAll_hidden {α : Type} {read : List Char → Option (α × List Char)}
    (hread : Opens kind read) (hflag : a.flag ∈ a.kind.flags) (hkind : a.kind ≠ kind)
    (h : ¬ Shows kind (a.quoted ++ ['\''])) (rest : List Char) :
    searchAll read 0 (a.text ++ rest) = searchAll read 0 rest := by
  rw [text_append,
    searchAll_pass_quote fun u hu => hread.stop (silent_lead hflag hkind).not_shows hu _,
    searchAll_pass_quote fun u hu => hread.stop h hu rest]

end Arguments

/-! ## Lines -/

/-- Does no flag of a kind begin in the text, whatever follows? -/
def Mute (kind : Kind) (cs : List Char) : Prop :=
  ∀ u, u <:+ cs → u ≠ [] → ∀ rest, afterFlag? kind.flags (u ++ rest) = none

theorem mute_nil (kind : Kind) : Mute kind [] := fun _ hu hne =>
  absurd (List.suffix_nil.mp hu) hne

/-- No flag begins in a text that neither begins with a flag and a blank nor stands at the
beginning of them, from any place on. -/
theorem mute_of_tails {kind : Kind} {cs : List Char}
    (h : ∀ flag ∈ kind.flags, ∀ u ∈ cs.tails, u ≠ [] →
      ¬ flag.toList ++ [' '] <+: u ∧ ¬ u <+: flag.toList ++ [' ']) : Mute kind cs := by
  intro u hu hne rest
  rw [Option.eq_none_iff_forall_ne_some]
  intro after hafter
  obtain ⟨flag, hflag, heq⟩ := afterFlag?_eq_some hafter
  obtain ⟨hflagin, hin⟩ := h flag hflag u ((List.mem_tails u cs).mpr hu) hne
  have hbegins : flag.toList ++ [' '] <+: u ++ rest :=
    ⟨after, by rw [heq, List.append_assoc, List.singleton_append]⟩
  -- of two beginnings of one text, one begins with the other
  exact (List.prefix_or_prefix_of_prefix hbegins (List.prefix_append u rest)).elim hflagin hin

section Line

variable {kind : Kind} {url middle : List Char} {args : List (Arg (List Char))}

theorem Word.not_shows (h : Word url) (kind : Kind) : ¬ Shows kind (url ++ ['\'']) := by
  rintro ⟨flag, -, c, -, hin⟩
  have hmem : ' ' ∈ url ++ ['\''] := hin.subset (List.mem_append_right _ List.mem_cons_self)
  rw [List.mem_append, List.mem_singleton] at hmem
  exact hmem.elim h.space (by decide)

/-- A double quote in a line is in one of its texts. -/
theorem double_not_mem_line (hurl : '"' ∉ url) (hmiddle : '"' ∉ middle)
    (hargs : '"' ∉ args.flatMap Arg.text) : '"' ∉ line url middle args := by
  unfold line
  simp only [List.mem_append, List.mem_cons, not_or]
  exact ⟨by decide, by decide, hurl, by decide, hmiddle, hargs⟩

/-- A line has no data in braces if none open behind the address. -/
theorem not_braces_line (hurl : ' ' ∉ url) (hmiddle : '\x7b' ∉ middle)
    (hargs : '\x7b' ∉ args.flatMap Arg.text) : ¬ Braces (line url middle args) := by
  have hquote : '\'' ∉ [' ', '\x7b'] := by decide
  rintro ⟨flag, -, inner, -, -, hin⟩
  have hopens : [' ', '\x7b'] <:+: line url middle args :=
    List.IsInfix.trans ⟨flag.toList, inner ++ ['\x7d'], by
      simp only [List.append_assoc, List.cons_append, List.nil_append]⟩ hin
  -- a blank and a brace stand in the word `curl`, in the address or behind it
  rw [← Text.occurs_iff, line, Text.occurs_append_cons hquote (by decide),
    Text.occurs_append_cons hquote (by decide), Bool.or_eq_true, Bool.or_eq_true,
    Text.occurs_iff, Text.occurs_iff, Text.occurs_iff] at hopens
  rcases hopens with hcurl | haddress | hafter
  · exact absurd hcurl (by decide)
  · exact hurl (haddress.subset List.mem_cons_self)
  · have hmem := hafter.subset (List.mem_cons_of_mem _ List.mem_cons_self)
    exact (List.mem_append.mp hmem).elim hmiddle hargs

theorem not_shows_curl (kind : Kind) : ¬ Shows kind ("curl ".toList ++ ['\'']) := by
  have hcurl : Silent kind "curl ".toList := by cases kind <;> decide
  exact hcurl.not_shows

/-- A reader goes on to what stands behind the address. -/
theorem search_line {α : Type} {read : List Char → Option α} (hread : Opens kind read)
    (hurl : ¬ Shows kind (url ++ ['\''])) :
    search read (line url middle args) = search read (middle ++ args.flatMap Arg.text) := by
  unfold line
  rw [search_pass_quote fun u hu => hread.stop (not_shows_curl kind) hu _,
    search_pass_quote fun u hu => hread.stop hurl hu _]

theorem searchAll_line {α : Type} {read : List Char → Option (α × List Char)}
    (hread : Opens kind read) (hurl : ¬ Shows kind (url ++ ['\''])) :
    searchAll read 0 (line url middle args)
      = searchAll read 0 (middle ++ args.flatMap Arg.text) := by
  unfold line
  rw [searchAll_pass_quote fun u hu => hread.stop (not_shows_curl kind) hu _,
    searchAll_pass_quote fun u hu => hread.stop hurl hu _]

/-- **The headers of a line are those of its arguments.** -/
theorem headers_line (hurl : ¬ Shows .header (url ++ ['\''])) (hmiddle : Mute .header middle)
    (hargs : ∀ a ∈ args, a.Legible) :
    headers (line url middle args)
      = .ofList ((args.filterMap Arg.header?).map fun h => (h.1, String.ofList h.2)) := by
  refine headers_of_searchAll ?_ fun a ha => (hargs a ha).fits
  rw [searchAll_line opens_headerFlag? hurl,
    searchAll_pass fun u hu hne => opens_headerFlag?.needs _ (hmiddle u hu hne _)]
  refine searchAll_args fun a ha rest => ?_
  have hlegible := hargs a ha
  cases a with
  | header flag name value =>
    exact searchAll_own (a := .header flag name value) opens_headerFlag?.needs hlegible.flag
      (headerFlag?_own hlegible.flag hlegible.ne
        (isQuote_of_not_mem hlegible.quote hlegible.fits.1) rest)
  | method flag name =>
    exact searchAll_hidden opens_headerFlag? hlegible.flag nofun
      (hlegible.hidden .header nofun nofun) rest
  | data flag content =>
    exact searchAll_hidden opens_headerFlag? hlegible.flag nofun
      (hlegible.hidden .header nofun nofun) rest

/-- **The quoted data of a line is that of its arguments.** -/
theorem search_quotedData?_line (hurl : ¬ Shows .data (url ++ ['\''])) (hmiddle : Mute .data middle)
    (hargs : ∀ a ∈ args, a.Legible) :
    search (quotedData? '\'') (line url middle args) = args.findSome? Arg.data? := by
  rw [search_line opens_quotedData? hurl,
    search_pass fun u hu hne => opens_quotedData?.needs _ (hmiddle u hu hne _)]
  refine search_args rfl fun a ha rest => ?_
  have hlegible := hargs a ha
  cases a with
  | data flag content =>
    rw [search_own (a := .data flag content) opens_quotedData?.needs
      (quotedData?_own hlegible.flag hlegible.ne hlegible.quote rest)]
    rfl
  | method flag name =>
    exact search_hidden opens_quotedData? hlegible.flag nofun
      (hlegible.hidden .data nofun nofun) rest
  | header flag name value =>
    exact search_hidden opens_quotedData? hlegible.flag nofun
      (hlegible.hidden .data nofun nofun) rest

/-- **The data of a line** is that of its arguments, and without one what braces hold somewhere. -/
theorem body_line (hurl : ¬ Shows .data (url ++ ['\''])) (hmiddle : Mute .data middle)
    (hargs : ∀ a ∈ args, a.Legible)
    (hdouble : args.findSome? Arg.data? = none → '"' ∉ line url middle args) :
    body (line url middle args) = (args.findSome? Arg.data?).getD
      ((search bracedData? (line url middle args)).getD []) := by
  unfold body
  rw [search_quotedData?_line hurl hmiddle hargs]
  cases hdata : args.findSome? Arg.data? with
  | some content => rfl
  | none =>
    have hnone : search (quotedData? '"') (line url middle args) = none := by
      rw [search_eq_none_iff]
      intro u hu
      rw [Option.eq_none_iff_forall_ne_some]
      intro x hx
      obtain ⟨flag, -, rest, rfl⟩ := quotedData?_eq_some hx
      refine hdouble hdata (hu.subset ?_)
      exact List.mem_append_right _ (List.mem_cons_of_mem _ List.mem_cons_self)
    rw [hnone]
    rfl

end Line

end MockServer.Run.Curl
