/-
  MockServer.Proofs.Json.Pretty — indented documents read back.

  The indented text of a document differs from the one without blanks
  in line breaks and indentation, which stand between tokens only.  So
  it is a text of the same tokens, and both are read as the document.

  Main definition:
    * `Bounded` — documents of limited depth whose numbers are integers
      of 64 bits.

  Main results:
    * `text_writePretty` — the indented text is a text of the document;
    * `parse?_pretty`, `parse?_compact` — such a document is read back
      from either text.
-/
import MockServer.Json.Build
import MockServer.Proofs.Json.Reading

namespace MockServer.Json

open JsonToken (AllBlank Spelled Text)

/-! ## Blanks -/

/-- Blanks in front of a text make no difference. -/
theorem text_blank {b cs : List Char} {ts : List JsonToken} (hb : AllBlank b) (h : Text ts cs) :
    Text ts (b ++ cs) := by
  have hboth : ∀ {b' : List Char}, AllBlank b' → AllBlank (b ++ b') := by
    intro b' hb'
    exact List.forall_mem_append.mpr ⟨hb, hb'⟩
  cases h with
  | nil hb' => exact .nil (hboth hb')
  | cons hb' ht hts =>
    rw [← List.append_assoc, ← List.append_assoc]
    exact .cons (hboth hb') ht hts

theorem allBlank_newline (depth : Nat) : AllBlank (newline depth) := by
  intro c hc
  rcases List.mem_cons.mp hc with rfl | hc
  · rfl
  · rw [List.eq_of_mem_replicate hc]
    rfl

theorem allBlank_space : AllBlank [' '] := List.forall_mem_singleton.mpr rfl

/-! ## The indented text -/

/-- An indented member: its name, a colon and a blank in front of its value. -/
theorem text_member {ts : List JsonToken} {cs : List Char} (depth : Nat) (name : String)
    (h : Text ts cs) : Text (.scalar (.str name) :: .colon :: ts)
      (newline (depth + 1) ++ (quote name ++ (':' :: ' ' :: cs))) := by
  have hcolon : Text (.colon :: ts) (':' :: ' ' :: cs) :=
    text_cons .colon (text_blank allBlank_space h)
  exact text_blank (allBlank_newline _) (text_cons (JsonToken.spelled_quote name) hcolon)

mutual

/-- The printer writes an indented value, whatever text follows it. -/
theorem text_writePretty_append : ∀ (v : Json) (depth : Nat),
    (∀ n ∈ numbers v, Spelled (.scalar (.num n)) (number n)) →
    ∀ {ts : List JsonToken} {cs : List Char}, Text ts cs →
    Text (tokens v ++ ts) (writePretty depth v ++ cs)
  | .null, _, _, _, _, h => text_cons .null h
  | .bool b, _, _, _, _, h => text_cons (.bool b) h
  | .num n, _, hn, _, _, h => text_cons (hn n (by simp [numbers])) h
  | .str s, _, _, _, _, h => text_cons (JsonToken.spelled_quote s) h
  | .arr [], _, _, ts, cs, h => by
    show Text (.openArray :: .closeArray :: ts) (['['] ++ ([']'] ++ cs))
    exact text_cons .openArray (text_cons .closeArray h)
  | .obj [], _, _, ts, cs, h => by
    show Text (.openObject :: .closeObject :: ts) (['{'] ++ (['}'] ++ cs))
    exact text_cons .openObject (text_cons .closeObject h)
  | .arr (v :: items), depth, hn, ts, cs, h => by
    simp only [numbers, itemNumbers, List.mem_append] at hn
    have hrest := text_writePretty_append v (depth + 1) (fun n h => hn n (Or.inl h))
      (text_prettyItems_append items depth (fun n h => hn n (Or.inr h)) h)
    have htext := text_cons .openArray (text_blank (allBlank_newline (depth + 1)) hrest)
    simpa only [tokens, writePretty, List.cons_append, List.append_assoc, List.nil_append]
      using htext
  | .obj ((name, v) :: members), depth, hn, ts, cs, h => by
    simp only [numbers, memberNumbers, List.mem_append] at hn
    have hrest := text_writePretty_append v (depth + 1) (fun n h => hn n (Or.inl h))
      (text_prettyMembers_append members depth (fun n h => hn n (Or.inr h)) h)
    have htext := text_cons .openObject (text_member depth name hrest)
    simpa only [tokens, writePretty, List.cons_append, List.append_assoc, List.nil_append]
      using htext

theorem text_prettyItems_append : ∀ (items : List Json) (depth : Nat),
    (∀ n ∈ itemNumbers items, Spelled (.scalar (.num n)) (number n)) →
    ∀ {ts : List JsonToken} {cs : List Char}, Text ts cs →
    Text (itemTokens items ++ ts) (prettyItems depth items ++ cs)
  | [], depth, _, ts, cs, h => by
    rw [prettyItems, List.append_assoc]
    exact text_blank (allBlank_newline depth) (text_cons .closeArray h)
  | v :: items, depth, hn, ts, cs, h => by
    simp only [itemNumbers, List.mem_append] at hn
    have hrest := text_writePretty_append v (depth + 1) (fun n h => hn n (Or.inl h))
      (text_prettyItems_append items depth (fun n h => hn n (Or.inr h)) h)
    have htext := text_cons .comma (text_blank (allBlank_newline (depth + 1)) hrest)
    simpa only [itemTokens, prettyItems, List.cons_append, List.append_assoc, List.nil_append]
      using htext

theorem text_prettyMembers_append : ∀ (members : List (String × Json)) (depth : Nat),
    (∀ n ∈ memberNumbers members, Spelled (.scalar (.num n)) (number n)) →
    ∀ {ts : List JsonToken} {cs : List Char}, Text ts cs →
    Text (memberTokens members ++ ts) (prettyMembers depth members ++ cs)
  | [], depth, _, ts, cs, h => by
    rw [prettyMembers, List.append_assoc]
    exact text_blank (allBlank_newline depth) (text_cons .closeObject h)
  | (name, v) :: members, depth, hn, ts, cs, h => by
    simp only [memberNumbers, List.mem_append] at hn
    have hrest := text_writePretty_append v (depth + 1) (fun n h => hn n (Or.inl h))
      (text_prettyMembers_append members depth (fun n h => hn n (Or.inr h)) h)
    have htext := text_cons .comma (text_member depth name hrest)
    simpa only [memberTokens, prettyMembers, List.cons_append, List.append_assoc, List.nil_append]
      using htext

end

/-- **The indented text is a text of the document**, if its numbers are spelled. -/
theorem text_writePretty (v : Json) (hn : ∀ n ∈ numbers v, Spelled (.scalar (.num n)) (number n)) :
    Text (tokens v) (writePretty 0 v) := by
  have h := text_writePretty_append v 0 hn (Text.nil (b := []) (by simp [AllBlank]))
  rwa [List.append_nil, List.append_nil] at h

/-! ## Documents of integers -/

/-- Is the number an integer of 64 bits, signed or unsigned? -/
def IsWord : JsonNumber → Prop
  | .int n => -2 ^ 63 ≤ n ∧ n < 2 ^ 64
  | .float _ => False

theorem spelled_of_isWord {n : JsonNumber} (h : IsWord n) :
    Spelled (.scalar (.num n)) (number n) := by
  cases n with
  | int n => exact .int h.1 h.2
  | float x => exact absurd h id

/-- At most `k` containers are open at once, and all numbers are integers of 64 bits. -/
structure Bounded (k : Nat) (v : Json) : Prop where
  depth_le : depth v ≤ k
  isWord : ∀ n ∈ numbers v, IsWord n

theorem Bounded.mono {k l : Nat} {v : Json} (h : Bounded k v) (hle : k ≤ l) : Bounded l v :=
  ⟨Nat.le_trans h.depth_le hle, h.isWord⟩

theorem bounded_bool (k : Nat) (b : Bool) : Bounded k (.bool b) :=
  ⟨Nat.zero_le k, fun _ hn => absurd hn List.not_mem_nil⟩

theorem bounded_str (k : Nat) (s : String) : Bounded k (.str s) :=
  ⟨Nat.zero_le k, fun _ hn => absurd hn List.not_mem_nil⟩

theorem bounded_nat (k : Nat) {n : Nat} (h : n < UInt64.size) : Bounded k (.nat n) := by
  refine ⟨Nat.zero_le k, fun m hm => ?_⟩
  rw [List.mem_singleton.mp hm]
  have hsize : UInt64.size = 2 ^ 64 := rfl
  constructor <;> omega

/-- A list of bounded documents. -/
theorem bounded_arr {k : Nat} {items : List Json} (h : ∀ v ∈ items, Bounded k v) :
    Bounded (k + 1) (.arr items) := by
  suffices hitems : itemDepth items ≤ k ∧ ∀ n ∈ itemNumbers items, IsWord n by
    refine ⟨?_, hitems.2⟩
    have := hitems.1
    unfold depth
    omega
  induction items with
  | nil => exact ⟨Nat.zero_le k, fun _ hn => absurd hn List.not_mem_nil⟩
  | cons v items ih =>
    rw [List.forall_mem_cons] at h
    obtain ⟨hdepth, hwords⟩ := ih h.2
    refine ⟨Nat.max_le.mpr ⟨h.1.depth_le, hdepth⟩, ?_⟩
    exact List.forall_mem_append.mpr ⟨h.1.isWord, hwords⟩

/-- A record of bounded documents. -/
theorem bounded_record {k : Nat} {fields : List Field}
    (h : ∀ m ∈ fields.flatMap Field.members, Bounded k m.2) :
    Bounded (k + 1) (.record fields) := by
  unfold record
  generalize fields.flatMap Field.members = members at h
  suffices hmembers : memberDepth members ≤ k ∧ ∀ n ∈ memberNumbers members, IsWord n by
    refine ⟨?_, hmembers.2⟩
    have := hmembers.1
    unfold depth
    omega
  induction members with
  | nil => exact ⟨Nat.zero_le k, fun _ hn => absurd hn List.not_mem_nil⟩
  | cons m members ih =>
    rw [List.forall_mem_cons] at h
    obtain ⟨hdepth, hwords⟩ := ih h.2
    refine ⟨Nat.max_le.mpr ⟨h.1.depth_le, hdepth⟩, ?_⟩
    exact List.forall_mem_append.mpr ⟨h.1.isWord, hwords⟩

variable {v : Json}

/-- **A document of integers is read back from its indented text.** -/
theorem parse?_pretty (h : Bounded maxOpen v) : parse? v.pretty = some v := by
  unfold parse? pretty
  rw [String.toList_ofList]
  exact parseChars?_of_text h.depth_le
    (text_writePretty v fun n hn => spelled_of_isWord (h.isWord n hn))

/-- **A document of integers is read back from its text without blanks.** -/
theorem parse?_compact (h : Bounded maxOpen v) : parse? v.compact = some v := by
  unfold parse? compact
  rw [String.toList_ofList]
  exact parseChars?_of_text h.depth_le (text_write v fun n hn => spelled_of_isWord (h.isWord n hn))

end MockServer.Json
