/-
  MockServer.Proofs.Header.Sanitize — cleaning as a projection onto
  safe values.

  A safe value is one line of printable characters that means nothing
  in HTML: it has no blanks at its ends, none of the characters that
  are written as entities, and an ampersand only where an entity
  begins.  Cleaning gives safe values and changes no other ones, so a
  table that was cleaned once is not changed again.

  Escaping writes one piece for each character, the character itself or
  an entity.  An ampersand that is kept begins an entity in the value,
  and no character of this entity is changed, so it begins the same
  entity in what is written.

  Main definitions:
    * `entities` — what is written for special characters;
    * `IsSafe` — the safe values.

  Main results:
    * `escape_cons` — the piece for a character;
    * `isPrintable_of_mem_clean` — the characters of clean values;
    * `isValue_cleanValue` — clean values are legal;
    * `cleaning_projects` — cleaning gives safe values and keeps them.
-/
import Mathlib.Data.List.Basic
import MockServer.Header.Field
import MockServer.Header.Sanitize
import MockServer.Proofs.Text.Blank
import MockServer.Proofs.Text.Split
import MockServer.Proofs.Text.Utf8

namespace MockServer.Header

/-! ## Safe values -/

/-- The entities that stand for special characters. -/
def entities : List (List Char) :=
  ["&amp;".toList, "&lt;".toList, "&gt;".toList, "&#34;".toList, "&#39;".toList]

/-- Does every ampersand begin an entity? -/
def Marked (cs : List Char) : Prop :=
  ∀ rest, '&' :: rest <:+ cs → ∃ entity ∈ entities, entity <+: '&' :: rest

/-- Is the text a safe value? -/
structure IsSafe (value : String) : Prop where
  /-- It has characters from the blank to the tilde, and tabs. -/
  printable : ∀ c ∈ value.toList, (' ' ≤ c ∧ c ≤ '~') ∨ c = '\t'
  /-- It does not begin with white space. -/
  first : ∀ c ∈ value.toList.head?, Text.isBlank c = false
  /-- It does not end with white space. -/
  last : ∀ c ∈ value.toList.getLast?, Text.isBlank c = false
  /-- It has no special characters. -/
  plain : ∀ c ∈ value.toList, c ∉ ['<', '>', '"', '\'']
  /-- Its ampersands are those of entities. -/
  marked : Marked value.toList

theorem marked_nil : Marked [] := by
  intro rest hrest
  exact absurd (List.suffix_nil.mp hrest) (List.cons_ne_nil _ _)

theorem marked_cons {c : Char} {cs : List Char} :
    Marked (c :: cs) ↔ (c = '&' → ∃ entity ∈ entities, entity <+: c :: cs) ∧ Marked cs := by
  constructor
  · intro h
    refine ⟨?_, fun rest hrest => h rest (hrest.trans (List.suffix_cons c cs))⟩
    rintro rfl
    exact h cs (List.suffix_refl _)
  · rintro ⟨hfirst, hlater⟩ rest hrest
    rcases List.suffix_cons_iff.mp hrest with heq | hrest
    · rw [List.cons.injEq] at heq
      rw [heq.1, heq.2]
      exact hfirst heq.1.symm
    · exact hlater rest hrest

instance decidableMarked : (cs : List Char) → Decidable (Marked cs)
  | [] => isTrue marked_nil
  | _ :: cs =>
    have := decidableMarked cs
    decidable_of_iff _ marked_cons.symm

theorem isSafe_iff {value : String} :
    IsSafe value ↔
      value.toList.Forall (fun c => (' ' ≤ c ∧ c ≤ '~') ∨ c = '\t') ∧
        value.toList.head?.toList.Forall (fun c => Text.isBlank c = false) ∧
        value.toList.getLast?.toList.Forall (fun c => Text.isBlank c = false) ∧
        value.toList.Forall (fun c => c ∉ ['<', '>', '"', '\'']) ∧ Marked value.toList := by
  simp only [List.forall_iff_forall_mem, Option.mem_toList]
  exact ⟨fun h => ⟨h.printable, h.first, h.last, h.plain, h.marked⟩,
    fun ⟨hprintable, hfirst, hlast, hplain, hmarked⟩ =>
      ⟨hprintable, hfirst, hlast, hplain, hmarked⟩⟩

instance (value : String) : Decidable (IsSafe value) := decidable_of_iff' _ isSafe_iff

/-- An entity in front of a text adds one ampersand, which begins it. -/
theorem marked_entity_append {entity cs : List Char} (hentity : entity ∈ entities)
    (h : Marked cs) : Marked (entity ++ cs) := by
  have htail : ∀ tail, '&' ∉ tail → Marked (tail ++ cs) := by
    intro tail htail
    induction tail with
    | nil => exact h
    | cons c tail ih =>
      rw [List.mem_cons, not_or] at htail
      exact marked_cons.mpr ⟨fun hc => absurd hc.symm htail.1, ih htail.2⟩
  have hshape : ∀ entity ∈ entities, entity = '&' :: entity.tail ∧ '&' ∉ entity.tail := by decide
  obtain ⟨heq, hnone⟩ := hshape entity hentity
  rw [heq, List.cons_append, marked_cons]
  exact ⟨fun _ => ⟨entity, hentity, heq ▸ List.prefix_append _ _⟩, htail _ hnone⟩

/-! ## Escaping -/

theorem beginsEntity_iff {rest : List Char} :
    beginsEntity rest = true ↔ ∃ entity ∈ entities, entity <+: '&' :: rest := by
  have hentities : entities = entityTails.map ('&' :: ·) := by decide
  unfold beginsEntity
  rw [List.any_eq_true, hentities]
  simp only [List.mem_map, exists_exists_and_eq_and, List.cons_prefix_cons, true_and,
    Text.after?_isSome_iff]

/-- **Each character is kept or written as an entity**, and kept are the characters that are not
special and the ampersands that begin an entity. -/
theorem escape_cons (c : Char) (rest : List Char) :
    (escape (c :: rest) = c :: escape rest ∧ c ∉ ['<', '>', '"', '\''] ∧
      (c = '&' → ∃ entity ∈ entities, entity <+: c :: rest)) ∨
    ∃ entity ∈ entities, escape (c :: rest) = entity ++ escape rest ∧
      (c ∈ ['<', '>', '"', '\''] ∨ c = '&' ∧ ¬ ∃ entity ∈ entities, entity <+: c :: rest) := by
  rw [escape]
  split_ifs with hamp hentity hlt hgt hquote hmark
  · subst hamp
    exact Or.inl ⟨rfl, by decide, fun _ => beginsEntity_iff.mp hentity⟩
  · subst hamp
    rw [beginsEntity_iff] at hentity
    exact Or.inr ⟨_, by decide, rfl, Or.inr ⟨rfl, hentity⟩⟩
  · exact Or.inr ⟨_, by decide, rfl, Or.inl (by simp [hlt])⟩
  · exact Or.inr ⟨_, by decide, rfl, Or.inl (by simp [hgt])⟩
  · exact Or.inr ⟨_, by decide, rfl, Or.inl (by simp [hquote])⟩
  · exact Or.inr ⟨_, by decide, rfl, Or.inl (by simp [hmark])⟩
  · exact Or.inl ⟨rfl, by simp [hlt, hgt, hquote, hmark], fun h => absurd h hamp⟩

/-- What holds of the characters of entities and of a text holds of the text when it is escaped. -/
theorem forall_mem_escape {p : Char → Prop} (hentities : ∀ entity ∈ entities, entity.Forall p)
    {cs : List Char} (h : ∀ c ∈ cs, c ∉ ['<', '>', '"', '\''] → p c) :
    ∀ c ∈ escape cs, p c := by
  induction cs with
  | nil => exact fun c hc => absurd hc List.not_mem_nil
  | cons d cs ih =>
    rw [List.forall_mem_cons] at h
    rcases escape_cons d cs with ⟨heq, hplain, -⟩ | ⟨entity, hentity, heq, -⟩
    · rw [heq, List.forall_mem_cons]
      exact ⟨h.1 hplain, ih h.2⟩
    · rw [heq, List.forall_mem_append]
      exact ⟨List.forall_iff_forall_mem.mp (hentities entity hentity), ih h.2⟩

/-- Escaping leaves an entity in front of a text as it is. -/
theorem prefix_escape {entity cs : List Char} (hentity : entity ∈ entities)
    (h : entity <+: cs) : entity <+: escape cs := by
  have htail : ∀ tail rest, (∀ c ∈ tail, c ≠ '&' ∧ c ∉ ['<', '>', '"', '\'']) →
      escape (tail ++ rest) = tail ++ escape rest := by
    intro tail rest htail
    induction tail with
    | nil => rfl
    | cons c tail ih =>
      rw [List.forall_mem_cons] at htail
      rcases escape_cons c (tail ++ rest) with ⟨heq, -⟩ | ⟨-, -, -, hspecial | ⟨hamp, -⟩⟩
      · rw [List.cons_append, heq, ih htail.2, List.cons_append]
      · exact absurd hspecial htail.1.2
      · exact absurd hamp htail.1.1
  have hshape : ∀ entity ∈ entities, entity = '&' :: entity.tail ∧
      entity.tail.Forall fun c => c ≠ '&' ∧ c ∉ ['<', '>', '"', '\''] := by decide
  obtain ⟨heq, hplain⟩ := hshape entity hentity
  rw [List.forall_iff_forall_mem] at hplain
  obtain ⟨rest, rfl⟩ := h
  rw [heq, List.cons_append]
  -- the ampersand begins the entity, so it is kept
  rcases escape_cons '&' (entity.tail ++ rest) with ⟨hkept, -⟩ | ⟨-, -, -, hspecial | ⟨-, hnone⟩⟩
  · rw [hkept, htail _ _ hplain]
    exact List.prefix_append _ _
  · exact absurd hspecial (by decide)
  · exact absurd ⟨entity, hentity, heq ▸ List.prefix_append _ _⟩ hnone

theorem marked_escape (cs : List Char) : Marked (escape cs) := by
  induction cs with
  | nil => exact marked_nil
  | cons c cs ih =>
    rcases escape_cons c cs with ⟨heq, -, hmarked⟩ | ⟨entity, hentity, heq, -⟩
    · rw [heq, marked_cons]
      refine ⟨fun hc => ?_, ih⟩
      obtain ⟨entity, hentity, hprefix⟩ := hmarked hc
      exact ⟨entity, hentity, heq ▸ prefix_escape hentity hprefix⟩
    · rw [heq]
      exact marked_entity_append hentity ih

/-- **A text without special characters, whose ampersands begin entities, stays as it is.** -/
theorem escape_eq_self {cs : List Char} (hplain : ∀ c ∈ cs, c ∉ ['<', '>', '"', '\''])
    (hmarked : Marked cs) : escape cs = cs := by
  induction cs with
  | nil => rfl
  | cons c cs ih =>
    rw [List.forall_mem_cons] at hplain
    rw [marked_cons] at hmarked
    rcases escape_cons c cs with ⟨heq, -⟩ | ⟨-, -, -, hspecial | ⟨hamp, hnone⟩⟩
    · rw [heq, ih hplain.2 hmarked.2]
    · exact absurd hspecial hplain.1
    · exact absurd (hmarked.1 hamp) hnone

/-! ## Ends -/

/-- What is escaped begins as the text does, or with an entity. -/
theorem head?_escape (cs : List Char) : ∀ c ∈ (escape cs).head?, c = '&' ∨ c ∈ cs.head? := by
  have hshape : ∀ entity ∈ entities, entity = '&' :: entity.tail := by decide
  cases cs with
  | nil => nofun
  | cons d cs =>
    rcases escape_cons d cs with ⟨heq, -⟩ | ⟨entity, hentity, heq, -⟩
    · rw [heq]
      exact fun c hc => Or.inr hc
    · rw [heq, hshape entity hentity]
      rintro c ⟨⟩
      exact Or.inl rfl

theorem escape_ne_nil {cs : List Char} (h : cs ≠ []) : escape cs ≠ [] := by
  cases cs with
  | nil => exact absurd rfl h
  | cons c cs =>
    rcases escape_cons c cs with ⟨heq, -⟩ | ⟨entity, hentity, heq, -⟩
    · rw [heq]
      exact List.cons_ne_nil _ _
    · have hentities : ∀ entity ∈ entities, entity ≠ [] := by decide
      rw [heq]
      exact List.append_ne_nil_of_left_ne_nil (hentities entity hentity) _

/-- What is escaped ends as the text does, or with an entity. -/
theorem getLast?_escape (cs : List Char) :
    ∀ c ∈ (escape cs).getLast?, c = ';' ∨ c ∈ cs.getLast? := by
  have hshape : ∀ entity ∈ entities, entity.getLast? = some ';' := by decide
  induction cs with
  | nil => nofun
  | cons d cs ih =>
    by_cases hnil : cs = []
    · subst hnil
      rcases escape_cons d [] with ⟨heq, -⟩ | ⟨entity, hentity, heq, -⟩
      · rw [heq]
        exact fun c hc => Or.inr hc
      · rw [heq, escape, List.append_nil, hshape entity hentity]
        rintro c ⟨⟩
        exact Or.inl rfl
    · -- the last character is behind the piece for the first one
      have hlast : (escape (d :: cs)).getLast? = (escape cs).getLast? := by
        rcases escape_cons d cs with ⟨heq, -⟩ | ⟨entity, -, heq, -⟩
        · rw [heq, ← List.singleton_append,
            List.getLast?_append_of_ne_nil _ (escape_ne_nil hnil)]
        · rw [heq, List.getLast?_append_of_ne_nil _ (escape_ne_nil hnil)]
      rw [hlast, ← List.singleton_append, List.getLast?_append_of_ne_nil _ hnil]
      exact ih

/-! ## Printable characters -/

theorem isPrintable_iff_between {c : Char} :
    isPrintable c = true ↔ (' ' ≤ c ∧ c ≤ '~') ∨ c = '\t' := by
  unfold isPrintable
  rw [Bool.or_eq_true, Bool.and_eq_true, decide_eq_true_eq, decide_eq_true_eq, decide_eq_true_eq]

theorem isPrintable_iff {c : Char} :
    isPrintable c = true ↔ (32 ≤ c.toNat ∧ c.toNat ≤ 126) ∨ c.toNat = 9 := by
  have htab : c = '\t' ↔ c.toNat = 9 :=
    ⟨fun h => by rw [h]; rfl, fun h => by rw [← Char.ofNat_toNat c, h]⟩
  rw [isPrintable_iff_between, htab]
  exact Iff.rfl

/-- Escaping writes printable characters for printable characters. -/
theorem isPrintable_escape {cs : List Char} (h : ∀ c ∈ cs, isPrintable c = true) :
    ∀ c ∈ escape cs, isPrintable c = true :=
  forall_mem_escape (by decide) fun c hc _ => h c hc

/-- **The characters of a clean value are printable.** -/
theorem isPrintable_of_mem_clean {value : String} {c : Char}
    (h : c ∈ (cleanValue value).toList) : isPrintable c = true := by
  unfold cleanValue at h
  rw [String.toList_ofList] at h
  refine isPrintable_escape ?_ c h
  intro d hd
  exact (List.mem_filter.mp (Text.mem_of_mem_trimWhile hd)).2

/-! ## Legal values -/

theorem isValueByte_ofNat {n : Nat} (h : (32 ≤ n ∧ n ≤ 126) ∨ n = 9) :
    isValueByte (UInt8.ofNat n) = true := by
  have hbytes : ∀ n < 127, (32 ≤ n ∧ n ≤ 126) ∨ n = 9 → isValueByte (UInt8.ofNat n) = true := by
    decide
  exact hbytes n (by omega) h

/-- **A clean value is the legal value of a header.** -/
theorem isValue_cleanValue (value : String) :
    isValue (Text.Utf8.ofString (cleanValue value)) = true := by
  unfold isValue Text.Utf8.ofString Text.Utf8.encode
  rw [List.all_eq_true]
  intro b hb
  obtain ⟨c, hc, hbc⟩ := List.mem_flatMap.mp hb
  have hprintable := isPrintable_iff.mp (isPrintable_of_mem_clean hc)
  rw [Text.Utf8.encodeChar_one (by omega), List.mem_singleton] at hbc
  rw [hbc]
  exact isValueByte_ofNat hprintable

/-! ## Cleaning -/

theorem toList_cleanValue (value : String) :
    (cleanValue value).toList
      = escape (Text.trimChars (value.toList.filter isPrintable)) :=
  String.toList_ofList

/-- **A clean value is safe.** -/
theorem isSafe_cleanValue (value : String) : IsSafe (cleanValue value) := by
  obtain ⟨-, -, -, -, -, hfirst, hlast⟩ := Text.trimChars_spec (value.toList.filter isPrintable)
  constructor
  · exact fun c hc => isPrintable_iff_between.mp (isPrintable_of_mem_clean hc)
  · rw [toList_cleanValue]
    intro c hc
    rcases head?_escape _ c hc with rfl | hc
    · decide
    · exact hfirst c hc
  · rw [toList_cleanValue]
    intro c hc
    rcases getLast?_escape _ c hc with rfl | hc
    · decide
    · exact hlast c hc
  · rw [toList_cleanValue]
    exact forall_mem_escape (by decide) fun c _ hplain => hplain
  · rw [toList_cleanValue]
    exact marked_escape _

/-- **A safe value is not changed.** -/
theorem cleanValue_of_isSafe {value : String} (h : IsSafe value) : cleanValue value = value := by
  have hprintable : value.toList.filter isPrintable = value.toList :=
    List.filter_eq_self.mpr fun c hc => isPrintable_iff_between.mpr (h.printable c hc)
  have htrim : Text.trimChars value.toList = value.toList := Text.trimWhile_eq_self h.first h.last
  unfold cleanValue
  rw [hprintable, htrim, escape_eq_self h.plain h.marked, String.ofList_toList]

theorem cleanValue_eq_self_iff {value : String} : cleanValue value = value ↔ IsSafe value :=
  ⟨fun h => h ▸ isSafe_cleanValue value, cleanValue_of_isSafe⟩

theorem cleanValue_cleanValue (value : String) : cleanValue (cleanValue value) = cleanValue value :=
  cleanValue_of_isSafe (isSafe_cleanValue value)

/-- The entries of a cleaned table may be set and have clean values. -/
theorem exists_of_mem_cleanEntries {es : List (String × String)} {e : String × String}
    (h : e ∈ cleanEntries es) : isAllowed e.1 = true ∧ ∃ value, (e.1, value) ∈ es ∧
      e.2 = cleanValue value := by
  obtain ⟨f, hf, rfl⟩ := List.mem_map.mp h
  obtain ⟨hmem, hallowed⟩ := List.mem_filter.mp hf
  exact ⟨hallowed, f.2, hmem, rfl⟩

/-- A table that was cleaned is not changed again. -/
theorem cleanEntries_cleanEntries (es : List (String × String)) :
    cleanEntries (cleanEntries es) = cleanEntries es := by
  have hkept : (cleanEntries es).filter (fun e => isAllowed e.1) = cleanEntries es :=
    List.filter_eq_self.mpr fun e he => (exists_of_mem_cleanEntries he).1
  show ((cleanEntries es).filter fun e => isAllowed e.1).map _ = _
  rw [hkept]
  refine (List.map_congr_left fun e he => ?_).trans (List.map_id _)
  obtain ⟨-, value, -, hvalue⟩ := exists_of_mem_cleanEntries he
  show (e.1, cleanValue e.2) = e
  rw [hvalue, cleanValue_cleanValue, ← hvalue]

/-- **Cleaning is a projection onto the safe values.**  What it gives is safe, what it keeps is
what is safe, and a table that was cleaned comes back as it is and without notes. -/
theorem cleaning_projects :
    (∀ value, IsSafe (cleanValue value)) ∧
    (∀ value, cleanValue value = value ↔ IsSafe value) ∧
    ∀ headers : Dict String, clean (clean headers).headers = ⟨(clean headers).headers, []⟩ := by
  refine ⟨isSafe_cleanValue, fun _ => cleanValue_eq_self_iff, fun headers => ?_⟩
  have hnotes : (cleanEntries headers.entries).filterMap advise = [] := by
    rw [List.filterMap_eq_nil_iff]
    intro e he
    obtain ⟨hallowed, value, -, hvalue⟩ := exists_of_mem_cleanEntries he
    unfold advise
    rw [if_pos hallowed, hvalue, if_pos (cleanValue_cleanValue value)]
  show (⟨⟨cleanEntries (cleanEntries headers.entries)⟩,
    (cleanEntries headers.entries).filterMap advise⟩ : Cleaned) = _
  rw [cleanEntries_cleanEntries, hnotes]
  rfl

/-- A line break may leave an entity behind, which is safe. -/
example : cleanValue "&l\rt; b" = "&lt; b" ∧ IsSafe "&lt; b" ∧ ¬ IsSafe "& b" := by
  decide +kernel

end MockServer.Header
