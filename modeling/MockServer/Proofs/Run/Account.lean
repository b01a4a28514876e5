/-
  MockServer.Proofs.Run.Account — accounts read back from their list.

  A list of accounts is read entry by entry: what stands between two
  commas is read on its own, so a list behind another one adds its
  accounts and changes nothing in front.  An entry counts if it is a
  username and a password around its only hyphen, whatever blanks stand
  around the two; every other entry is passed over.

  Main definitions:
    * `Account.Writable` — accounts that an entry can be written for;
    * `Account.Entries` — the entries of a list and their accounts.

  Main results:
    * `ofEntry?_eq_some_iff`, `ofEntry?_eq_none_iff` — which entries
      count, and which are passed over;
    * `parseChars_append` — one list behind another;
    * `accounts_read_back` — what is read is what was written.
-/
import MockServer.Proofs.Text.Blank
import MockServer.Proofs.Text.Split
import MockServer.Run.Account

namespace MockServer.Run.Account

open Text (AllBlank isBlank trimChars splitOn)

/-! ## Entries -/

/-- The entry of an account. -/
def entry (a : Account) : List Char := a.username.toList ++ '-' :: a.password.toList

/-- Can the account be written as an entry?  The marks of the list are in neither part, and
trimming the entry takes nothing away. -/
structure Writable (a : Account) : Prop where
  username : ',' ∉ a.username.toList ∧ '-' ∉ a.username.toList
  password : ',' ∉ a.password.toList ∧ '-' ∉ a.password.toList
  first : ∀ c ∈ a.entry.head?, isBlank c = false
  last : ∀ c ∈ a.entry.getLast?, isBlank c = false

/-- The entries of a list, some of which are those of the accounts, in order.  Blanks may stand
around an account, and blank entries and entries without exactly one hyphen anywhere. -/
inductive Entries : List Account → List (List Char) → Prop
  | nil : Entries [] []
  | account {a : Account} {before after : List Char} {accounts : List Account}
      {parts : List (List Char)} (ha : a.Writable) (hbefore : AllBlank before)
      (hafter : AllBlank after) (h : Entries accounts parts) :
      Entries (a :: accounts) ((before ++ a.entry ++ after) :: parts)
  | blank {part : List Char} {accounts : List Account} {parts : List (List Char)}
      (hpart : AllBlank part) (h : Entries accounts parts) : Entries accounts (part :: parts)
  | broken {part : List Char} {accounts : List Account} {parts : List (List Char)}
      (hcomma : ',' ∉ part) (hpart : part.count '-' ≠ 1) (h : Entries accounts parts) :
      Entries accounts (part :: parts)

variable {a : Account} {cs : List Char}

theorem not_mem_of_allBlank {c : Char} (hc : isBlank c = false) (h : AllBlank cs) : c ∉ cs := by
  intro hmem
  rw [h c hmem] at hc
  exact absurd hc (by decide)

/-- **An entry counts if, without the blanks around it, it is that of an account** with no hyphen
in either part. -/
theorem ofEntry?_eq_some_iff : ofEntry? cs = some a ↔
    trimChars cs = a.entry ∧ '-' ∉ a.username.toList ∧ '-' ∉ a.password.toList := by
  unfold ofEntry?
  constructor
  · intro h
    split at h
    next username password hsplit =>
      rw [← Option.some.inj h]
      simp only [entry, String.toList_ofList]
      exact Text.splitOn_eq_pair_iff.mp hsplit
    next => exact absurd h nofun
  · intro h
    rw [Text.splitOn_eq_pair_iff.mpr h]
    simp only [String.ofList_toList]

theorem count_entry (husername : '-' ∉ a.username.toList) (hpassword : '-' ∉ a.password.toList) :
    a.entry.count '-' = 1 := by
  unfold entry
  rw [List.count_append, List.count_cons_self, List.count_eq_zero.mpr husername,
    List.count_eq_zero.mpr hpassword]

theorem count_trimChars (cs : List Char) : (trimChars cs).count '-' = cs.count '-' := by
  obtain ⟨before, after, hcs, hbefore, hafter, -, -⟩ := Text.trimChars_spec cs
  have hnone : ∀ {blanks : List Char}, AllBlank blanks → blanks.count '-' = 0 := by
    intro blanks hblanks
    exact List.count_eq_zero.mpr (not_mem_of_allBlank (by decide) hblanks)
  -- only the part in the middle can have hyphens
  have hcount := congrArg (List.count '-') hcs
  rw [List.count_append, List.count_append, hnone hbefore, hnone hafter] at hcount
  omega

/-- A text with exactly one of a character has parts around it without that character. -/
theorem exists_of_count_eq_one {c : Char} (h : cs.count c = 1) :
    ∃ before after, cs = before ++ c :: after ∧ c ∉ before ∧ c ∉ after := by
  have hmem : c ∈ cs := List.count_pos_iff.mp (by omega)
  obtain ⟨before, after, rfl⟩ := List.append_of_mem hmem
  rw [List.count_append, List.count_cons_self] at h
  exact ⟨before, after, rfl, List.count_eq_zero.mp (by omega), List.count_eq_zero.mp (by omega)⟩

/-- **An entry is passed over if it does not have exactly one hyphen.** -/
theorem ofEntry?_eq_none_iff : ofEntry? cs = none ↔ cs.count '-' ≠ 1 := by
  rw [← count_trimChars]
  constructor
  · intro hnone hcount
    obtain ⟨username, password, htrim, hparts⟩ := exists_of_count_eq_one hcount
    have hsome : ofEntry? cs = some ⟨String.ofList username, String.ofList password⟩ := by
      rw [ofEntry?_eq_some_iff]
      simp only [entry, String.toList_ofList]
      exact ⟨htrim, hparts⟩
    rw [hnone] at hsome
    exact absurd hsome nofun
  · intro hcount
    rw [Option.eq_none_iff_forall_ne_some]
    intro a ha
    obtain ⟨htrim, husername, hpassword⟩ := ofEntry?_eq_some_iff.mp ha
    rw [htrim, count_entry husername hpassword] at hcount
    exact hcount rfl

theorem ofEntry?_blank (h : AllBlank cs) : ofEntry? cs = none := by
  rw [ofEntry?_eq_none_iff, List.count_eq_zero.mpr (not_mem_of_allBlank (by decide) h)]
  exact Nat.zero_ne_one

/-- The entry of an account is read back, with blanks around it. -/
theorem ofEntry?_entry {before after : List Char} (ha : a.Writable) (hbefore : AllBlank before)
    (hafter : AllBlank after) : ofEntry? (before ++ a.entry ++ after) = some a := by
  rw [ofEntry?_eq_some_iff, Text.trimChars_append hbefore hafter]
  exact ⟨Text.trimWhile_eq_self ha.first ha.last, ha.username.2, ha.password.2⟩

/-- What an entry without a comma is read as can be written. -/
theorem writable_of_ofEntry? (h : ofEntry? cs = some a) (hcomma : ',' ∉ cs) : a.Writable := by
  obtain ⟨htrim, husername, hpassword⟩ := ofEntry?_eq_some_iff.mp h
  obtain ⟨-, -, -, -, -, hfirst, hlast⟩ := Text.trimChars_spec cs
  rw [htrim] at hfirst hlast
  -- trimming adds no comma to the text
  have hentry : ',' ∉ a.entry := by
    intro hmem
    rw [← htrim] at hmem
    exact hcomma (Text.mem_of_mem_trimWhile hmem)
  unfold entry at hentry
  rw [List.mem_append, List.mem_cons, not_or, not_or] at hentry
  exact ⟨⟨hentry.1, husername⟩, ⟨hentry.2.2, hpassword⟩, hfirst, hlast⟩

/-! ## Lists -/

/-- **A list behind another one adds its accounts.** -/
theorem parseChars_append (first second : List Char) :
    parseChars (first ++ ',' :: second) = parseChars first ++ parseChars second := by
  unfold parseChars
  rw [Text.splitOn_append_cons, List.filterMap_append]

variable {accounts : List Account} {parts : List (List Char)}

theorem Entries.comma_not_mem (h : Entries accounts parts) : ∀ part ∈ parts, ',' ∉ part := by
  induction h with
  | nil => exact List.forall_mem_nil _
  | account ha hbefore hafter _ ih =>
    refine List.forall_mem_cons.mpr ⟨?_, ih⟩
    have hcomma : isBlank ',' = false := by decide
    simp only [entry, List.mem_append, List.mem_cons, not_or]
    exact ⟨⟨not_mem_of_allBlank hcomma hbefore, ha.username.1, by decide, ha.password.1⟩,
      not_mem_of_allBlank hcomma hafter⟩
  | blank hpart _ ih =>
    exact List.forall_mem_cons.mpr ⟨not_mem_of_allBlank (by decide) hpart, ih⟩
  | broken hcomma _ _ ih => exact List.forall_mem_cons.mpr ⟨hcomma, ih⟩

/-- The accounts are those of the entries that count. -/
theorem Entries.filterMap_eq (h : Entries accounts parts) :
    parts.filterMap ofEntry? = accounts := by
  induction h with
  | nil => rfl
  | account ha hbefore hafter _ ih =>
    rw [List.filterMap_cons_some (ofEntry?_entry ha hbefore hafter), ih]
  | blank hpart _ ih => rw [List.filterMap_cons_none (ofEntry?_blank hpart), ih]
  | broken _ hpart _ ih => rw [List.filterMap_cons_none (ofEntry?_eq_none_iff.mpr hpart), ih]

/-- Parts without a comma are the entries of what is read from them. -/
theorem entries_filterMap (h : ∀ part ∈ parts, ',' ∉ part) :
    Entries (parts.filterMap ofEntry?) parts := by
  induction parts with
  | nil => exact .nil
  | cons part parts ih =>
    rw [List.forall_mem_cons] at h
    cases hread : ofEntry? part with
    | some a =>
      obtain ⟨before, after, hpart, hbefore, hafter, -, -⟩ := Text.trimChars_spec part
      have ha := writable_of_ofEntry? hread h.1
      rw [(ofEntry?_eq_some_iff.mp hread).1] at hpart
      rw [List.filterMap_cons_some hread, hpart]
      exact .account ha hbefore hafter (ih h.2)
    | none =>
      -- a blank part has no hyphen, so it counts as broken here
      rw [List.filterMap_cons_none hread]
      exact .broken h.1 (ofEntry?_eq_none_iff.mp hread) (ih h.2)

/-- Entries are read one by one. -/
theorem parseChars_intercalate (h : ∀ part ∈ parts, ',' ∉ part) :
    parseChars ([','].intercalate parts) = parts.filterMap ofEntry? := by
  unfold parseChars
  -- without parts the text is empty, which splits into one empty part
  by_cases hparts : parts = []
  · rw [hparts]
    decide
  · rw [Text.splitOn_intercalate h hparts]

/-- **Accounts are read back from any list that has their entries.**  A text is read as some
accounts exactly if its entries are theirs, in order, with blanks around them and with blank and
broken entries anywhere between them; and of two lists with a comma between them, each is read as
it is on its own. -/
theorem accounts_read_back :
    (∀ (spec : String) (accounts : List Account), parse spec = accounts ↔
      ∃ parts, Entries accounts parts ∧ spec.toList = [','].intercalate parts) ∧
    ∀ first second : String, parse (first ++ "," ++ second) = parse first ++ parse second := by
  constructor
  · intro spec accounts
    unfold parse
    constructor
    · intro h
      have hcomma : ∀ part ∈ splitOn ',' spec.toList, ',' ∉ part :=
        fun _ => Text.not_mem_of_mem_splitOn
      refine ⟨splitOn ',' spec.toList, ?_, (Text.intercalate_splitOn ',' spec.toList).symm⟩
      rw [← h]
      exact entries_filterMap hcomma
    · rintro ⟨parts, hparts, hspec⟩
      rw [hspec, parseChars_intercalate hparts.comma_not_mem, hparts.filterMap_eq]
  · intro first second
    unfold parse
    rw [String.toList_append, String.toList_append, List.append_assoc]
    exact parseChars_append first.toList second.toList

example : parse " alice-a1 ,,x-y-z,\u3000-p, alice-a1" =
    [⟨"alice", "a1"⟩, ⟨"", "p"⟩, ⟨"alice", "a1"⟩] := by decide

end MockServer.Run.Account
