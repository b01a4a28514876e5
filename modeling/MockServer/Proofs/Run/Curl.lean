/-
  MockServer.Proofs.Run.Curl — commands whose arguments are quoted.

  A command has single quotes around its address and its arguments, and
  is on one line.  The readers of a command search the whole line for a
  flag; each finds an argument of its own kind if it comes to it.

  Main definitions:
    * `Arg`, `Command` — a command with quoted arguments;
    * `line` — its text, with something behind the address;
    * `Needs` — a reader that starts at a flag.

  Main results:
    * `search_own`, `searchAll_own` — an argument is found;
    * `mentionsData_text` — what makes a request one with data;
    * `parse?_line` — a line is taken apart by its readers.
-/
import MockServer.Proofs.Text.Blank
import MockServer.Proofs.Text.Split
import MockServer.Run.Curl

namespace MockServer.Run.Curl

/-! ## Commands -/

/-- What an argument is for. -/
inductive Kind where
  | method
  | header
  | data
  deriving DecidableEq, Repr

def Kind.flags : Kind → List String
  | .method => ["-X", "--request"]
  | .header => ["-H", "--header"]
  | .data => dataFlags

def Kind.all : List Kind := [.method, .header, .data]

theorem Kind.mem_all (kind : Kind) : kind ∈ Kind.all := by cases kind <;> decide

/-- An argument of a command, with its flag. -/
inductive Arg (τ : Type) where
  | method (flag : String) (name : List Char)
  | header (flag : String) (name : List Char) (value : τ)
  | data (flag : String) (content : τ)
  deriving DecidableEq, Repr

namespace Arg

variable {τ υ : Type}

def kind : Arg τ → Kind
  | .method .. => .method
  | .header .. => .header
  | .data .. => .data

def flag : Arg τ → String
  | .method flag _ => flag
  | .header flag _ _ => flag
  | .data flag _ => flag

def map (f : τ → υ) : Arg τ → Arg υ
  | .method flag name => .method flag name
  | .header flag name value => .header flag name (f value)
  | .data flag content => .data flag (f content)

/-- The method that an argument names. -/
def method? : Arg τ → Option (List Char)
  | .method _ name => some name
  | _ => none

/-- The header that an argument adds. -/
def header? : Arg τ → Option (String × τ)
  | .header _ name value => some (String.ofList name, value)
  | _ => none

/-- The data that an argument sends. -/
def data? : Arg τ → Option τ
  | .data _ content => some content
  | _ => none

/-- The text between the quotes. -/
def quoted : Arg (List Char) → List Char
  | .method _ name => name
  | .header _ name value => name ++ ':' :: ' ' :: value
  | .data _ content => content

/-- What stands before the quoted text: the flag between blanks. -/
def lead (a : Arg τ) : List Char := ' ' :: (a.flag.toList ++ [' '])

def text (a : Arg (List Char)) : List Char := a.lead ++ '\'' :: (a.quoted ++ ['\''])

end Arg

/-- A command with a quoted address and quoted arguments. -/
structure Command (τ : Type) where
  url : τ
  args : List (Arg τ)
  deriving DecidableEq, Repr

namespace Command

variable {τ υ : Type}

def map (f : τ → υ) (c : Command τ) : Command υ := ⟨f c.url, c.args.map (Arg.map f)⟩

/-- The method that is named first, else that of a request with data or without. -/
def method (c : Command τ) : List Char :=
  (c.args.findSome? Arg.method?).getD
    (if c.args.any fun a => a.kind = .data then "POST".toList else "GET".toList)

def headers (c : Command τ) : List (String × τ) := c.args.filterMap Arg.header?

/-- The data that is sent first. -/
def data? (c : Command τ) : Option τ := c.args.findSome? Arg.data?

def text (c : Command (List Char)) : List Char :=
  "curl ".toList ++ '\'' :: (c.url ++ '\'' :: c.args.flatMap Arg.text)

/-- The request that a command is meant to describe. -/
def request (c : Command (List Char)) : CurlCommand where
  url := String.ofList c.url
  method := String.ofList c.method
  headers := .ofList (c.headers.map fun h => (h.1, String.ofList h.2))
  body := String.ofList (c.data?.getD [])

end Command

/-- A command with a text between the address and the arguments. -/
def line (url middle : List Char) (args : List (Arg (List Char))) : List Char :=
  "curl ".toList ++ '\'' :: (url ++ '\'' :: (middle ++ args.flatMap Arg.text))

theorem line_nil (c : Command (List Char)) : line c.url [] c.args = c.text := rfl

/-- Is the text one that its kind of argument can have? -/
def Arg.Fits : Arg (List Char) → Prop
  | .method _ name => ∀ c ∈ name, c.isUpper = true
  | .header _ name value => '"' ∉ name ++ ':' :: ' ' :: value ∧ name ≠ [] ∧ ':' ∉ name ∧
      Text.trimChars name = name ∧ Text.trimChars value = value
  | .data _ _ => True

instance : (a : Arg (List Char)) → Decidable a.Fits
  | .method _ name => decidable_of_iff (name.all Char.isUpper = true) List.all_eq_true
  | .header .. => inferInstanceAs (Decidable (_ ∧ _))
  | .data .. => .isTrue trivial

/-! ## One line -/

/-- A run of blanks ends at a character that is none. -/
theorem squeeze_append_cons {c : Char} (hc : Text.isBlank c = false) (afterBlank : Bool)
    (cs rest : List Char) :
    squeeze afterBlank (cs ++ c :: rest) = squeeze afterBlank cs ++ c :: squeeze false rest := by
  induction cs generalizing afterBlank with
  | nil => simp only [List.nil_append, squeeze, hc, Bool.false_eq_true, if_false]
  | cons d cs ih =>
    rw [List.cons_append, squeeze, squeeze]
    split_ifs
    · exact ih true
    · rw [ih true, List.cons_append]
    · rw [ih false, List.cons_append]

/-- The only blanks of a squeezed line are spaces. -/
theorem eq_space_of_mem_squeeze {c : Char} {afterBlank : Bool} {cs : List Char}
    (h : c ∈ squeeze afterBlank cs) (hc : Text.isBlank c = true) : c = ' ' := by
  induction cs generalizing afterBlank with
  | nil => exact absurd h List.not_mem_nil
  | cons d cs ih =>
    rw [squeeze] at h
    split_ifs at h with hd hafter
    · exact ih h
    · exact (List.mem_cons.mp h).elim id ih
    · refine (List.mem_cons.mp h).elim (fun hcd => absurd hc ?_) ih
      rw [hcd]
      exact hd

/-- A line without line feeds has nothing to join. -/
theorem joinLines_of_not_mem {cs : List Char} (h : '\n' ∉ cs) : joinLines cs = cs := by
  fun_induction joinLines cs with
  | case1 rest ih => exact absurd (List.mem_cons_of_mem _ List.mem_cons_self) h
  | case2 rest ih =>
    exact absurd (List.mem_cons_of_mem _ (List.mem_cons_of_mem _ List.mem_cons_self)) h
  | case3 c rest _ _ ih => rw [ih fun hmem => h (List.mem_cons_of_mem c hmem)]
  | case4 => rfl

/-- What stands before the text of an argument has single blanks. -/
theorem squeeze_lead {a : Arg (List Char)} (h : a.flag ∈ a.kind.flags) :
    squeeze false a.lead = a.lead := by
  have hflags : ∀ kind ∈ Kind.all, ∀ flag ∈ kind.flags,
      squeeze false (' ' :: (flag.toList ++ [' '])) = ' ' :: (flag.toList ++ [' ']) := by decide
  exact hflags a.kind a.kind.mem_all a.flag h

theorem squeeze_args {args : List (Arg (List Char))}
    (h : ∀ a ∈ args, a.flag ∈ a.kind.flags ∧ squeeze false a.quoted = a.quoted) :
    squeeze false (args.flatMap Arg.text) = args.flatMap Arg.text := by
  induction args with
  | nil => rfl
  | cons a args ih =>
    rw [List.forall_mem_cons] at h
    have htext : (a :: args).flatMap Arg.text
        = a.lead ++ '\'' :: (a.quoted ++ '\'' :: args.flatMap Arg.text) := by
      simp only [List.flatMap_cons, Arg.text, List.append_assoc, List.cons_append, List.nil_append]
    rw [htext, squeeze_append_cons (by decide), squeeze_append_cons (by decide),
      squeeze_lead h.1.1, h.1.2, ih h.2]

/-- The text of arguments ends with a quote. -/
theorem getLast?_args (args : List (Arg (List Char))) :
    ∀ c ∈ (args.flatMap Arg.text).getLast?, c = '\'' := by
  intro c hc
  rcases List.eq_nil_or_concat args with rfl | ⟨before, a, rfl⟩
  · exact absurd hc nofun
  · have hends : (before.concat a).flatMap Arg.text
        = (before.flatMap Arg.text ++ (a.lead ++ '\'' :: a.quoted)) ++ ['\''] := by
      simp only [List.concat_eq_append, List.flatMap_append, List.flatMap_singleton, Arg.text,
        List.append_assoc, List.cons_append]
    rw [hends, List.getLast?_concat] at hc
    exact (Option.some.inj hc).symm

/-- No blanks stand at the ends of a line. -/
theorem trimChars_line {middle : List Char} (h : ∀ c ∈ middle.getLast?, Text.isBlank c = false)
    (url : List Char) (args : List (Arg (List Char))) :
    Text.trimChars (line url middle args) = line url middle args := by
  apply Text.trimWhile_eq_self
  · rintro c ⟨⟩
    decide
  · intro c hc
    have hlast : (line url middle args).getLast?
        = ((args.flatMap Arg.text).getLast?.or middle.getLast?).or (some '\'') := by
      have hcut : line url middle args
          = (("curl ".toList ++ '\'' :: url) ++ ['\'']) ++ (middle ++ args.flatMap Arg.text) := by
        simp only [line, List.append_assoc, List.cons_append, List.nil_append]
      rw [hcut, List.getLast?_append, List.getLast?_append, List.getLast?_concat]
    rw [hlast, Option.mem_def, Option.or_eq_some_iff, Option.or_eq_some_iff] at hc
    -- the last character is that of the arguments, else of the middle, else the quote
    rcases hc with (hargs | ⟨-, hmiddle⟩) | ⟨-, hquote⟩
    · rw [getLast?_args args c hargs]
      decide
    · exact h c hmiddle
    · rw [← Option.some.inj hquote]
      decide

theorem isCommand_text (c : Command (List Char)) : isCommand (String.ofList c.text) = true := by
  have hafter : Text.after? "curl ".toList c.text
      = some ('\'' :: (c.url ++ '\'' :: c.args.flatMap Arg.text)) :=
    Text.after?_eq_some_iff.mpr rfl
  have htrim : Text.trimChars (line c.url [] c.args) = line c.url [] c.args :=
    trimChars_line (by simp) c.url c.args
  rw [line_nil] at htrim
  simp only [isCommand, String.toList_ofList, htrim, hafter, Option.isSome_some, Bool.true_or]

/-- A line with single blanks and none at its ends stays as it is. -/
theorem oneLine_eq_self {cs : List Char} (hsqueeze : squeeze false cs = cs)
    (htrim : Text.trimChars cs = cs) : oneLine cs = cs := by
  have hfeed : '\n' ∉ cs := by
    intro hmem
    rw [← hsqueeze] at hmem
    exact absurd (eq_space_of_mem_squeeze hmem (by decide)) (by decide)
  unfold oneLine
  rw [joinLines_of_not_mem hfeed, hsqueeze, htrim]

/-- **A line whose texts have single blanks is on one line already.** -/
theorem oneLine_line {url middle : List Char} {args : List (Arg (List Char))}
    (hurl : squeeze false url = url)
    (hmiddle : ∀ rest, squeeze false (middle ++ rest) = middle ++ squeeze false rest)
    (hlast : ∀ c ∈ middle.getLast?, Text.isBlank c = false)
    (hargs : ∀ a ∈ args, a.flag ∈ a.kind.flags ∧ squeeze false a.quoted = a.quoted) :
    oneLine (line url middle args) = line url middle args := by
  refine oneLine_eq_self ?_ (trimChars_line hlast url args)
  unfold line
  rw [squeeze_append_cons (by decide), squeeze_append_cons (by decide), hurl, hmiddle,
    squeeze_args hargs]
  rfl

/-! ## Flags -/

theorem flags_spec (kind : Kind) : ∀ flag ∈ kind.flags,
    flag.toList.head? = some '-' ∧ ' ' ∉ flag.toList := by
  cases kind <;> decide

theorem quote_not_mem_flag (kind : Kind) : ∀ flag ∈ kind.flags, '\'' ∉ flag.toList ++ [' '] := by
  cases kind <;> decide

/-- **No flag reaches over a quote.** -/
theorem afterFlag?_append_quote (kind : Kind) (u rest : List Char) :
    afterFlag? kind.flags (u ++ '\'' :: rest)
      = (afterFlag? kind.flags u).map (· ++ '\'' :: rest) := by
  have hquote := quote_not_mem_flag kind
  unfold afterFlag?
  generalize kind.flags = flags at hquote
  induction flags with
  | nil => rfl
  | cons flag flags ih =>
    rw [List.forall_mem_cons] at hquote
    rw [List.findSome?_cons, List.findSome?_cons, Text.after?_append_cons hquote.1, ih hquote.2]
    cases Text.after? (flag.toList ++ [' ']) u with
    | some after => rfl
    | none => rfl

/-- What follows a flag stands behind it and a blank. -/
theorem afterFlag?_eq_some {flags : List String} {cs rest : List Char}
    (h : afterFlag? flags cs = some rest) : ∃ flag ∈ flags, cs = flag.toList ++ ' ' :: rest := by
  unfold afterFlag? at h
  obtain ⟨flag, hflag, hafter⟩ := List.exists_of_findSome?_eq_some h
  refine ⟨flag, hflag, ?_⟩
  rw [Text.after?_eq_some_iff.mp hafter, List.append_assoc]
  rfl

/-- The flag of an argument is the one that is found. -/
theorem afterFlag?_own {kind : Kind} {flag : String} (h : flag ∈ kind.flags) (rest : List Char) :
    afterFlag? kind.flags (flag.toList ++ ' ' :: rest) = some rest := by
  have hown : Text.after? (flag.toList ++ [' ']) (flag.toList ++ ' ' :: rest) = some rest := by
    rw [Text.after?_eq_some_iff, List.append_assoc, List.singleton_append]
  have hfound : (afterFlag? kind.flags (flag.toList ++ ' ' :: rest)).isSome = true := by
    unfold afterFlag?
    rw [List.findSome?_isSome_iff]
    exact ⟨flag, h, Option.isSome_of_eq_some hown⟩
  obtain ⟨after, hafter⟩ := Option.isSome_iff_exists.mp hfound
  obtain ⟨f, hf, hsame⟩ := afterFlag?_eq_some hafter
  -- both flags end at the first blank
  have hcut := Text.splitFirst_append (flags_spec kind f hf).2 after
  rw [← hsame, Text.splitFirst_append (flags_spec kind flag h).2, Option.some_inj,
    Prod.mk.injEq] at hcut
  rw [hafter, hcut.2]

/-- No flag begins with a blank. -/
theorem afterFlag?_blank (kind : Kind) (rest : List Char) :
    afterFlag? kind.flags (' ' :: rest) = none := by
  unfold afterFlag?
  rw [List.findSome?_eq_none_iff]
  intro flag hflag
  obtain ⟨tail, htail⟩ := List.head?_eq_some_iff.mp (flags_spec kind flag hflag).1
  rw [htail]
  rfl

/-! ## Searching -/

section Readers

variable {α : Type} {kind : Kind}

/-- Does a reader find nothing where no flag of the kind stands? -/
def Needs (kind : Kind) (read : List Char → Option α) : Prop :=
  ∀ cs, afterFlag? kind.flags cs = none → read cs = none

/-- A reader finds nothing in a text exactly if it finds nothing from any place on. -/
theorem search_eq_none_iff {read : List Char → Option α} {cs : List Char} :
    search read cs = none ↔ ∀ u, u <:+ cs → read u = none := by
  induction cs with
  | nil =>
    refine ⟨fun h u hu => ?_, fun h => h [] (List.suffix_refl _)⟩
    rw [List.suffix_nil.mp hu]
    exact h
  | cons c cs ih =>
    rw [search, Option.orElse_eq_or, Option.or_eq_none_iff, ih]
    constructor
    · rintro ⟨hhere, hlater⟩ u hu
      rcases List.suffix_cons_iff.mp hu with rfl | hsuffix
      · exact hhere
      · exact hlater u hsuffix
    · intro h
      exact ⟨h _ (List.suffix_refl _), fun u hu => h u (hu.trans (List.suffix_cons c cs))⟩

/-- What is found is read from some place on. -/
theorem exists_of_search_eq_some {read : List Char → Option α} {cs : List Char} {x : α}
    (h : search read cs = some x) : ∃ u, u <:+ cs ∧ read u = some x := by
  induction cs with
  | nil => exact ⟨[], List.suffix_refl _, h⟩
  | cons c cs ih =>
    rw [search, Option.orElse_eq_or, Option.or_eq_some_iff] at h
    rcases h with hhere | ⟨-, hlater⟩
    · exact ⟨_, List.suffix_refl _, hhere⟩
    · obtain ⟨u, hu, hread⟩ := ih hlater
      exact ⟨u, hu.trans (List.suffix_cons c cs), hread⟩

theorem search_of_some {read : List Char → Option α} {cs : List Char} {x : α}
    (h : read cs = some x) : search read cs = some x := by
  cases cs with
  | nil => exact h
  | cons c cs =>
    rw [search, h]
    rfl

theorem search_of_none {read : List Char → Option α} {c : Char} {cs : List Char}
    (h : read (c :: cs) = none) : search read (c :: cs) = search read cs := by
  rw [search, h]
  rfl

/-- A reader passes over a text in which it finds nothing. -/
theorem search_pass {read : List Char → Option α} {cs rest : List Char}
    (h : ∀ u, u <:+ cs → u ≠ [] → read (u ++ rest) = none) :
    search read (cs ++ rest) = search read rest := by
  induction cs with
  | nil => rfl
  | cons c cs ih =>
    have hhere := h (c :: cs) (List.suffix_refl _) (List.cons_ne_nil c cs)
    rw [List.cons_append] at hhere ⊢
    rw [search_of_none hhere]
    exact ih fun u hu hne => h u (hu.trans (List.suffix_cons c cs)) hne

/-- A reader passes over a text and a quote if it finds nothing from any place before the quote. -/
theorem search_pass_quote {read : List Char → Option α} {cs rest : List Char}
    (h : ∀ u, u <:+ cs → read (u ++ '\'' :: rest) = none) :
    search read (cs ++ '\'' :: rest) = search read rest := by
  rw [search_pass fun u hu _ => h u hu]
  exact search_of_none (h [] (List.nil_suffix))

theorem text_append (a : Arg (List Char)) (rest : List Char) :
    a.text ++ rest = a.lead ++ '\'' :: (a.quoted ++ '\'' :: rest) := by
  simp only [Arg.text, List.append_assoc, List.cons_append, List.nil_append]

/-- **A reader finds an argument of its kind.** -/
theorem search_own {read : List Char → Option α} {a : Arg (List Char)} (hread : Needs a.kind read)
    {x : α} {rest : List Char}
    (hx : read (a.flag.toList ++ ' ' :: '\'' :: (a.quoted ++ '\'' :: rest)) = some x) :
    search read (a.text ++ rest) = some x := by
  have htext : a.text ++ rest
      = ' ' :: (a.flag.toList ++ ' ' :: '\'' :: (a.quoted ++ '\'' :: rest)) := by
    simp only [text_append, Arg.lead, List.append_assoc, List.cons_append, List.nil_append]
  rw [htext, search_of_none (hread _ (afterFlag?_blank _ _))]
  exact search_of_some hx

/-- **A reader that finds in each argument what it has, or passes over it, finds what is first.** -/
theorem search_args {read : List Char → Option α} (hnil : read [] = none)
    {value? : Arg (List Char) → Option α} {args : List (Arg (List Char))}
    (h : ∀ a ∈ args, ∀ rest, search read (a.text ++ rest) = (value? a).or (search read rest)) :
    search read (args.flatMap Arg.text) = args.findSome? value? := by
  induction args with
  | nil => exact hnil
  | cons a args ih =>
    rw [List.forall_mem_cons] at h
    rw [List.flatMap_cons, List.findSome?_cons, h.1, ih h.2]
    cases value? a with
    | some x => rfl
    | none => rfl

/-- Characters that were found are skipped. -/
theorem searchAll_skip (read : List Char → Option (α × List Char))
    (skipped rest : List Char) :
    searchAll read skipped.length (skipped ++ rest) = searchAll read 0 rest := by
  induction skipped with
  | nil => rfl
  | cons c skipped ih => rw [List.cons_append, List.length_cons, searchAll, ih]

theorem searchAll_of_none {read : List Char → Option (α × List Char)} {c : Char}
    {cs : List Char} (h : read (c :: cs) = none) :
    searchAll read 0 (c :: cs) = searchAll read 0 cs := by
  rw [searchAll, h]

theorem searchAll_pass {read : List Char → Option (α × List Char)}
    {cs rest : List Char} (h : ∀ u, u <:+ cs → u ≠ [] → read (u ++ rest) = none) :
    searchAll read 0 (cs ++ rest) = searchAll read 0 rest := by
  induction cs with
  | nil => rfl
  | cons c cs ih =>
    have hhere := h (c :: cs) (List.suffix_refl _) (List.cons_ne_nil c cs)
    rw [List.cons_append] at hhere ⊢
    rw [searchAll_of_none hhere]
    exact ih fun u hu hne => h u (hu.trans (List.suffix_cons c cs)) hne

theorem searchAll_pass_quote {read : List Char → Option (α × List Char)}
    {cs rest : List Char} (h : ∀ u, u <:+ cs → read (u ++ '\'' :: rest) = none) :
    searchAll read 0 (cs ++ '\'' :: rest) = searchAll read 0 rest := by
  rw [searchAll_pass fun u hu _ => h u hu]
  exact searchAll_of_none (h [] List.nil_suffix)

/-- **A reader that finds in each argument what it has, or passes over it, finds them all.** -/
theorem searchAll_args {read : List Char → Option (α × List Char)}
    {value? : Arg (List Char) → Option α} {args : List (Arg (List Char))}
    (h : ∀ a ∈ args, ∀ rest,
      searchAll read 0 (a.text ++ rest) = (value? a).toList ++ searchAll read 0 rest) :
    searchAll read 0 (args.flatMap Arg.text) = args.filterMap value? := by
  induction args with
  | nil => rfl
  | cons a args ih =>
    rw [List.forall_mem_cons] at h
    rw [List.flatMap_cons, List.filterMap_cons, h.1, ih h.2]
    cases value? a with
    | some x => rfl
    | none => rfl

/-- A reader finds an argument of its kind and goes on behind it. -/
theorem searchAll_own {read : List Char → Option (α × List Char)}
    {a : Arg (List Char)} (hread : Needs a.kind read) (hflag : a.flag ∈ a.kind.flags) {x : α}
    {rest : List Char}
    (hx : read (a.flag.toList ++ ' ' :: '\'' :: (a.quoted ++ '\'' :: rest)) = some (x, rest)) :
    searchAll read 0 (a.text ++ rest) = x :: searchAll read 0 rest := by
  obtain ⟨tail, htail⟩ := List.head?_eq_some_iff.mp (flags_spec a.kind a.flag hflag).1
  have htext : a.text ++ rest
      = ' ' :: '-' :: ((tail ++ ' ' :: '\'' :: (a.quoted ++ ['\''])) ++ rest) := by
    simp only [text_append, Arg.lead, htail, List.append_assoc, List.cons_append, List.nil_append]
  have hwhole : '-' :: ((tail ++ ' ' :: '\'' :: (a.quoted ++ ['\''])) ++ rest)
      = a.flag.toList ++ ' ' :: '\'' :: (a.quoted ++ '\'' :: rest) := by
    simp only [htail, List.append_assoc, List.cons_append, List.nil_append]
  rw [htext, searchAll, hread _ (afterFlag?_blank _ _), searchAll, hwhole, hx]
  -- what is skipped is the rest of the argument
  simp only [List.length_append, Nat.add_sub_cancel]
  rw [← List.length_append, searchAll_skip]

end Readers

/-! ## The address -/

/-- The text up to the quote that ends it. -/
theorem upTo?_stop {isEnd : Char → Bool} {cs : List Char} (hne : cs ≠ [])
    (hcs : ∀ c ∈ cs, isEnd c = false) {quote : Char} (hquote : isEnd quote = true)
    (rest : List Char) : upTo? isEnd (cs ++ quote :: rest) = some (cs, rest) := by
  have hrun : ∀ c ∈ cs, (!isEnd c) = true := fun c hc => by rw [hcs c hc]; rfl
  have hstop : ∀ c ∈ (quote :: rest).head?, (!isEnd c) = false := by
    intro c hc
    rw [← Option.some.inj hc, hquote]
    rfl
  obtain ⟨htake, hdrop⟩ := Text.takeWhile_append_stop hrun hstop
  obtain ⟨c, cs, rfl⟩ := List.exists_cons_of_ne_nil hne
  unfold upTo?
  rw [List.span_eq_takeWhile_dropWhile, htake, hdrop]

theorem isQuote_of_not_mem {cs : List Char} (hsingle : '\'' ∉ cs) (hdouble : '"' ∉ cs) :
    ∀ c ∈ cs, isQuote c = false := by
  intro c hc
  unfold isQuote
  rw [Bool.or_eq_false_iff, decide_eq_false_iff_not, decide_eq_false_iff_not]
  exact ⟨fun h => hdouble (h ▸ hc), fun h => hsingle (h ▸ hc)⟩

/-- **The address is the quoted text behind the word `curl`.** -/
theorem url?_quoted {url : List Char} (hne : url ≠ []) (hquote : ∀ c ∈ url, isQuote c = false)
    (rest : List Char) : url? ("curl ".toList ++ '\'' :: (url ++ '\'' :: rest)) = some url := by
  have hafter : afterCurl? ("curl ".toList ++ '\'' :: (url ++ '\'' :: rest))
      = some ('\'' :: (url ++ '\'' :: rest)) := by
    unfold afterCurl?
    rw [Text.after?_eq_some_iff.mpr rfl]
    rfl
  have hread : (afterCurl? ("curl ".toList ++ '\'' :: (url ++ '\'' :: rest))).bind quoted?
      = some (url, rest) := by
    rw [hafter]
    exact upTo?_stop hne hquote (by decide) _
  have hsearch : search (fun cs => (afterCurl? cs).bind quoted?)
      ("curl ".toList ++ '\'' :: (url ++ '\'' :: rest)) = some (url, rest) := search_of_some hread
  unfold url?
  rw [hsearch]

/-! ## The method -/

/-- A method in quotes ends with them. -/
theorem methodFlag?_own {flag : String} (h : flag ∈ Kind.method.flags) {name : List Char}
    (hne : name ≠ []) (hupper : ∀ c ∈ name, c.isUpper = true) (rest : List Char) :
    methodFlag? (flag.toList ++ ' ' :: '\'' :: (name ++ '\'' :: rest)) = some name := by
  have hstop : ∀ d ∈ ('\'' :: rest).head?, d.isUpper = false := by
    intro d hd
    rw [← Option.some.inj hd]
    decide
  have htake := (Text.takeWhile_append_stop hupper hstop).1
  have hfound : afterFlag? ["-X", "--request"]
      (flag.toList ++ ' ' :: '\'' :: (name ++ '\'' :: rest))
      = some ('\'' :: (name ++ '\'' :: rest)) := afterFlag?_own h _
  obtain ⟨d, ds, rfl⟩ := List.exists_cons_of_ne_nil hne
  unfold methodFlag?
  rw [hfound, Option.bind_some]
  simp only [isQuote, decide_true, Bool.or_true, if_true, htake]

/-- Does a text hold what makes a request one with data? -/
def mentionsData (cs : List Char) : Bool :=
  Text.occurs "--data".toList cs || Text.occurs "-d ".toList cs

/-- The method is the one that is found, else that of a request with data or without. -/
theorem method_eq (cs : List Char) :
    method cs
      = (search methodFlag? cs).getD
          (if mentionsData cs then "POST".toList else "GET".toList) := by
  unfold method
  cases search methodFlag? cs with
  | some name => rfl
  | none => rfl

/-- What makes a request one with data does not reach over a quote. -/
theorem mentionsData_append_quote (cs rest : List Char) :
    mentionsData (cs ++ '\'' :: rest) = (mentionsData cs || mentionsData rest) := by
  unfold mentionsData
  rw [Text.occurs_append_cons (by decide) (by decide),
    Text.occurs_append_cons (by decide) (by decide)]
  ac_rfl

theorem mentionsData_lead {a : Arg (List Char)} (h : a.flag ∈ a.kind.flags) :
    mentionsData a.lead = decide (a.kind = .data) := by
  have hflags : ∀ kind ∈ Kind.all, ∀ flag ∈ kind.flags,
      mentionsData (' ' :: (flag.toList ++ [' '])) = decide (kind = .data) := by decide
  exact hflags a.kind a.kind.mem_all a.flag h

theorem mentionsData_args {args : List (Arg (List Char))} (h : ∀ a ∈ args, a.flag ∈ a.kind.flags) :
    mentionsData (args.flatMap Arg.text)
      = ((args.any fun a => a.kind = .data) || args.any fun a => mentionsData a.quoted) := by
  induction args with
  | nil => rfl
  | cons a args ih =>
    rw [List.forall_mem_cons] at h
    rw [List.flatMap_cons, text_append, mentionsData_append_quote, mentionsData_append_quote,
      mentionsData_lead h.1, ih h.2, List.any_cons, List.any_cons]
    ac_rfl

/-- **What makes a request one with data** is a flag or stands in a text. -/
theorem mentionsData_text {c : Command (List Char)} (h : ∀ a ∈ c.args, a.flag ∈ a.kind.flags) :
    mentionsData c.text = ((c.args.any fun a => a.kind = .data) ||
      (mentionsData c.url || c.args.any fun a => mentionsData a.quoted)) := by
  have hcurl : mentionsData "curl ".toList = false := by decide
  unfold Command.text
  rw [mentionsData_append_quote, mentionsData_append_quote, mentionsData_args h, hcurl]
  ac_rfl

/-! ## The headers -/

theorem headerFlag?_own {flag : String} (h : flag ∈ Kind.header.flags) {cs : List Char}
    (hne : cs ≠ []) (hquote : ∀ c ∈ cs, isQuote c = false) (rest : List Char) :
    headerFlag? (flag.toList ++ ' ' :: '\'' :: (cs ++ '\'' :: rest)) = some (cs, rest) := by
  have hfound : afterFlag? ["-H", "--header"] (flag.toList ++ ' ' :: '\'' :: (cs ++ '\'' :: rest))
      = some ('\'' :: (cs ++ '\'' :: rest)) := afterFlag?_own h _
  unfold headerFlag?
  rw [hfound]
  exact upTo?_stop hne hquote (by decide) _

/-- The text of a header. -/
def headerText? : Arg (List Char) → Option (List Char)
  | .header _ name value => some (name ++ ':' :: ' ' :: value)
  | _ => none

/-- The text of a header is its name, a colon and its value. -/
theorem headerOf?_quoted {name value : List Char} (hne : name ≠ []) (hcolon : ':' ∉ name)
    (hname : Text.trimChars name = name) (hvalue : Text.trimChars value = value) :
    headerOf? (name ++ ':' :: ' ' :: value) = some (String.ofList name, String.ofList value) := by
  have htrim : Text.trimChars (' ' :: value) = value := by
    have hdrop : Text.trimChars ([' '] ++ value ++ []) = Text.trimChars value :=
      Text.trimChars_append (by decide) (by decide) value
    rw [List.append_nil, List.singleton_append] at hdrop
    rw [hdrop, hvalue]
  obtain ⟨c, cs, rfl⟩ := List.exists_cons_of_ne_nil hne
  unfold headerOf?
  rw [Text.splitFirst_append hcolon]
  simp only [hname, htrim]

/-- A line in which the texts of headers are found has these headers. -/
theorem headers_of_searchAll {cs : List Char} {args : List (Arg (List Char))}
    (h : searchAll headerFlag? 0 cs = args.filterMap headerText?) (hfits : ∀ a ∈ args, a.Fits) :
    headers cs = .ofList ((args.filterMap Arg.header?).map fun h => (h.1, String.ofList h.2)) := by
  unfold headers
  rw [h, List.filterMap_filterMap, List.map_filterMap]
  congr 1
  refine List.filterMap_congr fun a ha => ?_
  have hfit := hfits a ha
  cases a with
  | method flag name => rfl
  | data flag content => rfl
  | header flag name value =>
    obtain ⟨-, hne, hcolon, hname, hvalue⟩ := hfit
    exact headerOf?_quoted hne hcolon hname hvalue

/-! ## The data -/

theorem needs_quotedData? (quote : Char) : Needs .data (quotedData? quote) := by
  intro cs hcs
  unfold quotedData?
  rw [show afterFlag? dataFlags cs = none from hcs]

theorem needs_bracedData? : Needs .data bracedData? := by
  intro cs hcs
  unfold bracedData?
  rw [show afterFlag? dataFlags cs = none from hcs]

theorem quotedData?_own {flag : String} (h : flag ∈ Kind.data.flags) {content : List Char}
    (hne : content ≠ []) (hquote : '\'' ∉ content) (rest : List Char) :
    quotedData? '\'' (flag.toList ++ ' ' :: '\'' :: (content ++ '\'' :: rest)) = some content := by
  have hinner : ∀ d ∈ content, decide (d = '\'') = false := fun d hd =>
    decide_eq_false fun heq => hquote (heq ▸ hd)
  have hread : upTo? (fun d => d = '\'') (content ++ '\'' :: rest) = some (content, rest) :=
    upTo?_stop hne hinner (by decide) rest
  have hfound : afterFlag? dataFlags (flag.toList ++ ' ' :: '\'' :: (content ++ '\'' :: rest))
      = some ('\'' :: (content ++ '\'' :: rest)) := afterFlag?_own h _
  unfold quotedData?
  rw [hfound]
  simp only [if_true, hread, Option.map_some]

/-! ## The request -/

/-- **A line is taken apart** into the quoted address and what its readers find. -/
theorem parse?_line {url middle : List Char} {args : List (Arg (List Char))}
    (hline : oneLine (line url middle args) = line url middle args) (hne : url ≠ [])
    (hquote : ∀ c ∈ url, isQuote c = false) :
    CurlCommand.parse? (String.ofList (line url middle args)) = .ok {
      url := String.ofList url
      method := String.ofList (method (line url middle args))
      headers := headers (line url middle args)
      body := String.ofList (body (line url middle args)) } := by
  have hwritten : ¬ (String.ofList (line url middle args)).isEmpty = true := by
    rw [String.isEmpty_iff, String.ofList_eq_empty_iff]
    exact nofun
  have hurl : url? (line url middle args) = some url := url?_quoted hne hquote _
  unfold CurlCommand.parse?
  rw [if_neg hwritten, String.toList_ofList]
  simp only [hline, hurl]

end MockServer.Run.Curl
