/-
  MockServer.Proofs.Header.Control — control characters in a cleaned
  table.

  A clean value has no control character but the tab.  A name is not
  cleaned; it is only tested, and kept as it was.  The test passes over
  white space around the name, and over all that follows the start of
  the names that an application defines.  So a control character, a
  line break for one, is found in a name of a cleaned table exactly if
  it stands in one of these parts.

  Main definitions:
    * `IsControl` — the control characters;
    * `Hides` — is a character there where the test does not look?

  Main results:
    * `isAllowed_iff` — what the test reads;
    * `control_in_cleaned_iff` — where a cleaned table has control
      characters;
    * `line_breaks_kept` — two names with line breaks that are kept.
-/
import MockServer.Proofs.Header.Sanitize
import MockServer.Proofs.Text.Case

namespace MockServer.Header

/-! ## Characters -/

/-- Is it a control character (the Unicode category `Cc`)? -/
def IsControl (c : Char) : Prop := c.toNat < 32 ∨ (127 ≤ c.toNat ∧ c.toNat < 160)

instance : DecidablePred IsControl := fun c =>
  inferInstanceAs (Decidable (c.toNat < 32 ∨ (127 ≤ c.toNat ∧ c.toNat < 160)))

/-- The tab is the only printable control character. -/
theorem eq_tab_of_isControl {c : Char} (hcontrol : IsControl c) (h : isPrintable c = true) :
    c = '\t' := by
  have htab : c.toNat = 9 := by
    unfold IsControl at hcontrol
    rcases isPrintable_iff.mp h with h | h <;> omega
  rw [← Char.ofNat_toNat c, htab]

/-- Case makes no blank and no control character of another one. -/
theorem plain_lowerChar (c : Char) :
    (Text.isBlank (Text.lowerChar c) = Text.isBlank c) ∧
      (IsControl (Text.lowerChar c) ↔ IsControl c) := by
  refine Text.ascii_cases (p := fun c => (Text.isBlank (Text.lowerChar c) = Text.isBlank c) ∧
    (IsControl (Text.lowerChar c) ↔ IsControl c)) (by decide) ?_ c
  intro c h
  rw [Text.lowerChar_of_le h]
  exact ⟨rfl, Iff.rfl⟩

/-! ## What the test reads -/

/-- Does the test know a name by this, whatever follows?  It knows the names of the list, which
nothing may follow, and the start of the names that an application defines. -/
def Known (core rest : List Char) : Prop :=
  (Text.lower (String.ofList core) ∈ allowedNames ∧ rest = []) ∨
    Text.lower (String.ofList core) = customStart

theorem toList_lower (cs : List Char) :
    (Text.lower (String.ofList cs)).toList = cs.map Text.lowerChar := by
  unfold Text.lower
  rw [String.toList_ofList, String.toList_ofList]

/-- What the test knows has characters, and none of them is blank or a control character. -/
theorem Known.plain {core rest : List Char} (h : Known core rest) :
    core ≠ [] ∧ ∀ c ∈ core, Text.isBlank c = false ∧ ¬ IsControl c := by
  have hnames : ∀ name ∈ customStart :: allowedNames, name.toList ≠ [] ∧
      name.toList.Forall fun c => Text.isBlank c = false ∧ ¬ IsControl c := by decide +kernel
  have hmem : Text.lower (String.ofList core) ∈ customStart :: allowedNames := by
    rcases h with ⟨hlisted, -⟩ | hcustom
    · exact List.mem_cons_of_mem _ hlisted
    · exact hcustom ▸ List.mem_cons_self
  obtain ⟨hne, hplain⟩ := hnames _ hmem
  rw [toList_lower] at hne
  rw [toList_lower, List.forall_iff_forall_mem] at hplain
  refine ⟨fun hcore => hne (List.map_eq_nil_iff.mpr hcore), fun c hc => ?_⟩
  have hlower := hplain _ (List.mem_map_of_mem hc)
  rwa [(plain_lowerChar c).1, (plain_lowerChar c).2] at hlower

/-- Trimming keeps what has no blanks, and all that follows it up to the last blanks. -/
theorem trimChars_append_of_plain {core : List Char} (hne : core ≠ [])
    (hplain : ∀ c ∈ core, Text.isBlank c = false) (rest : List Char) :
    ∃ kept, Text.trimChars (core ++ rest) = core ++ kept ∧ (rest = [] → kept = []) := by
  obtain ⟨kept, blanks, rfl, hblanks, hlast⟩ := Text.exists_trimmed rest
  refine ⟨kept, ?_, fun hnil => (List.append_eq_nil_iff.mp hnil).1⟩
  have htrim := Text.trimChars_append (List.forall_mem_nil _) hblanks (core ++ kept)
  rw [List.nil_append, List.append_assoc] at htrim
  rw [htrim]
  refine Text.trimWhile_eq_self ?_ ?_
  · rw [List.head?_append_of_ne_nil _ hne]
    exact fun c hc => hplain c (List.mem_of_mem_head? hc)
  · intro c hc
    rw [List.getLast?_append, Option.mem_def, Option.or_eq_some_iff] at hc
    rcases hc with hkept | ⟨-, hcore⟩
    · exact hlast c hkept
    · exact hplain c (List.mem_of_getLast? hcore)

/-- **A name may be set if it is, between blanks, something that the test knows.** -/
theorem isAllowed_iff {name : String} :
    isAllowed name = true ↔ ∃ before core rest after,
      name.toList = before ++ (core ++ rest) ++ after ∧ Text.AllBlank before ∧
        Text.AllBlank after ∧ Known core rest := by
  have htest : isAllowed name = true ↔
      Text.lower (String.ofList (Text.trimChars name.toList)) ∈ allowedNames ∨
        customStart.toList <+: (Text.trimChars name.toList).map Text.lowerChar := by
    unfold isAllowed Text.trim
    simp only [Bool.or_eq_true, List.contains_iff_mem, Text.after?_isSome_iff, toList_lower]
  rw [htest]
  constructor
  · obtain ⟨before, after, hname, hbefore, hafter, -, -⟩ := Text.trimChars_spec name.toList
    rintro (hlisted | hcustom)
    · refine ⟨before, Text.trimChars name.toList, [], after, ?_, hbefore, hafter,
        Or.inl ⟨hlisted, rfl⟩⟩
      rw [List.append_nil]
      exact hname
    · refine ⟨before, (Text.trimChars name.toList).take customStart.toList.length,
        (Text.trimChars name.toList).drop customStart.toList.length, after, ?_, hbefore, hafter,
        Or.inr ?_⟩
      · rw [List.take_append_drop]
        exact hname
      · rw [← String.toList_inj, toList_lower, List.map_take]
        exact (List.prefix_iff_eq_take.mp hcustom).symm
  · rintro ⟨before, core, rest, after, hname, hbefore, hafter, hknown⟩
    obtain ⟨hne, hplain⟩ := hknown.plain
    obtain ⟨kept, htrim, hkept⟩ :=
      trimChars_append_of_plain hne (fun c hc => (hplain c hc).1) rest
    rw [hname, Text.trimChars_append hbefore hafter, htrim]
    rcases hknown with ⟨hlisted, hrest⟩ | hcustom
    · rw [hkept hrest, List.append_nil]
      exact Or.inl hlisted
    · rw [List.map_append, ← toList_lower, hcustom]
      exact Or.inr (List.prefix_append _ _)

/-! ## Tables -/

/-- Is the character in a part of the name that the test does not read: in the white space around
it, or behind the start of the names that an application defines? -/
def Hides (c : Char) (name : String) : Prop :=
  ∃ before core rest after, name.toList = before ++ (core ++ rest) ++ after ∧
    Text.AllBlank before ∧ Text.AllBlank after ∧ Known core rest ∧ c ∈ before ++ rest ++ after

/-- A name that may be set has a control character only where the test does not look. -/
theorem hides_iff {c : Char} (hc : IsControl c) {name : String} :
    Hides c name ↔ isAllowed name = true ∧ c ∈ name.toList := by
  rw [isAllowed_iff]
  constructor
  · rintro ⟨before, core, rest, after, hname, hbefore, hafter, hknown, hmem⟩
    refine ⟨⟨before, core, rest, after, hname, hbefore, hafter, hknown⟩, ?_⟩
    rw [hname]
    simp only [List.mem_append] at hmem ⊢
    tauto
  · rintro ⟨⟨before, core, rest, after, hname, hbefore, hafter, hknown⟩, hmem⟩
    refine ⟨before, core, rest, after, hname, hbefore, hafter, hknown, ?_⟩
    have hcore : c ∉ core := fun hmem => (hknown.plain.2 c hmem).2 hc
    rw [hname] at hmem
    simp only [List.mem_append] at hmem ⊢
    tauto

/-- The names of a cleaned table are those that may be set. -/
theorem mem_names_clean {headers : Dict String} {name : String} :
    name ∈ (clean headers).headers.entries.map Prod.fst ↔
      name ∈ headers.entries.map Prod.fst ∧ isAllowed name = true := by
  show name ∈ ((headers.entries.filter fun e => isAllowed e.1).map
    fun e => (e.1, cleanValue e.2)).map Prod.fst ↔ _
  simp only [List.map_map, List.mem_map, List.mem_filter, Function.comp_apply]
  constructor
  · rintro ⟨e, ⟨he, hallowed⟩, rfl⟩
    exact ⟨⟨e, he, rfl⟩, hallowed⟩
  · rintro ⟨⟨e, he, rfl⟩, hallowed⟩
    exact ⟨e, ⟨he, hallowed⟩, rfl⟩

/-- **A cleaned table has control characters in names only**, and there exactly where the test of
the names does not look; a value has no control character but the tab. -/
theorem control_in_cleaned_iff (headers : Dict String) {c : Char} (hc : IsControl c) :
    (∀ e ∈ (clean headers).headers.entries, c ∈ e.2.toList → c = '\t') ∧
    ∀ name, name ∈ (clean headers).headers.entries.map Prod.fst ∧ c ∈ name.toList ↔
      name ∈ headers.entries.map Prod.fst ∧ Hides c name := by
  constructor
  · intro e he hmem
    obtain ⟨-, value, -, hvalue⟩ := exists_of_mem_cleanEntries he
    rw [hvalue] at hmem
    exact eq_tab_of_isControl hc (isPrintable_of_mem_clean hmem)
  · intro name
    rw [mem_names_clean, hides_iff hc, and_assoc]

/-- Headers whose names break the line, in front of a listed name and behind the start of another,
and whose values do. -/
def broken : Dict String :=
  .ofList [("\r\nContent-Type", "text/html\r\n"), ("X-Custom-A\r\nSet-Cookie: admin=true", "1\n")]

/-- Line breaks go from the values of a table and stay in its names. -/
theorem broken_cleaned :
    IsControl '\n' ∧ (∀ e ∈ (clean broken).headers.entries, '\n' ∉ e.2.toList) ∧
      "\r\nContent-Type" ∈ (clean broken).headers.entries.map Prod.fst ∧
      "X-Custom-A\r\nSet-Cookie: admin=true" ∈ (clean broken).headers.entries.map Prod.fst := by
  have hcontrol : IsControl '\n' := by decide
  obtain ⟨hvalues, hnames⟩ := control_in_cleaned_iff broken hcontrol
  refine ⟨hcontrol, fun e he hmem => absurd (hvalues e he hmem) (by decide), ?_, ?_⟩
  · refine ((hnames _).mpr ⟨by decide +kernel, ?_⟩).1
    exact ⟨['\r', '\n'], "Content-Type".toList, [], [], by decide +kernel, by decide, by decide,
      Or.inl (by decide +kernel), by decide +kernel⟩
  · refine ((hnames _).mpr ⟨by decide +kernel, ?_⟩).1
    exact ⟨[], "X-Custom-".toList, "A\r\nSet-Cookie: admin=true".toList, [], by decide +kernel,
      by decide, by decide, Or.inr (by decide +kernel), by decide +kernel⟩

/-- **Names with line breaks are kept in a cleaned table.** -/
theorem line_breaks_kept :
    ¬ ∀ headers : Dict String, ∀ e ∈ (clean headers).headers.entries,
      ('\r' ∉ e.1.toList ∧ '\n' ∉ e.1.toList) ∧ '\r' ∉ e.2.toList ∧ '\n' ∉ e.2.toList := by
  intro hnone
  have hmem : ("\r\nContent-Type", "text/html") ∈ (clean broken).headers.entries := by
    decide +kernel
  exact (hnone broken _ hmem).1.1 (by decide)

end MockServer.Header
