/-
  MockServer.Proofs.Fingerprint — one fingerprint for all texts of an
  object.

  The fingerprint of a declared input is taken from the document, the
  fingerprint of a request from bytes, and bytes that are no JSON are
  taken as they stand.  The two ways meet on every text of an object:
  the text is read as a shuffling of the object, the shuffling settles
  to the same document, and its canonical text is the same.

  Main definitions:
    * `Exact` — the objects whose texts lose nothing.

  Main results:
    * `canonicalText_shuffled` — the order of members is lost;
    * `ofBody_isText` — a body that spells an object has its fingerprint;
    * `isText_canonicalText` — the canonical text spells the object;
    * `fingerprint_of_texts` — the two ways agree.
-/
import MockServer.Fingerprint
import MockServer.Proofs.Decimal.Exact
import MockServer.Proofs.Json.Shuffle
import MockServer.Proofs.Text.Utf8

namespace MockServer.Fingerprint

open Json (Distinct IsText Shuffled)

/-- A document that its texts give back: no object repeats a name, at most 127 containers are
nested, and every number is an integer of magnitude at most `2^53`. -/
structure Exact (v : Json) : Prop where
  distinct : Distinct v
  depth : v.depth ≤ Json.maxOpen
  whole : ∀ n ∈ v.numbers, ∃ k : Int, n = .int k ∧ k.natAbs ≤ maxExact

theorem Exact.shuffled {v w : Json} (h : Exact v) (hw : Shuffled v w) : Exact w :=
  ⟨hw.distinct h.distinct, hw.depth_le h.depth, fun n hn => h.whole n (hw.mem_numbers hn)⟩

/-! ## Canonical texts -/

/-- An integer up to `2^53` is spelled in decimal. -/
theorem canonicalNumber_int {k : Int} (h : k.natAbs ≤ maxExact) :
    canonicalNumber (.int k) = Json.integer k := by
  unfold canonicalNumber double
  simp only [Decimal.Binary64.toInt?_ofInt h, if_pos h]

/-- **The order of the members leaves no trace in the canonical text.** -/
theorem canonicalText_shuffled {v w : Json} (h : Distinct v) (hw : Shuffled v w) :
    canonicalText w = canonicalText v := by
  unfold canonicalText
  rw [hw.settle_eq h]

/-- **The canonical text spells the document.** -/
theorem isText_canonicalText {v : Json} (h : Exact v) : IsText v (canonicalText v).toList := by
  have hsettle := Json.shuffled_settle v h.distinct
  refine ⟨v.settle, hsettle, ?_⟩
  unfold canonicalText
  rw [String.toList_ofList]
  apply Json.text_write
  intro n hn
  obtain ⟨k, rfl, hk⟩ := (h.shuffled hsettle).whole n hn
  have hbound : k.natAbs ≤ 2 ^ 53 := hk
  rw [canonicalNumber_int hk]
  exact .int (by omega) (by omega)

/-! ## Bodies -/

/-- The bytes of a text are read as the characters of the text. -/
theorem parseBytes?_encode (cs : List Char) :
    Json.parseBytes? (Text.Utf8.encode cs) = Json.parseChars? cs := by
  unfold Json.parseBytes?
  rw [Text.Utf8.decode?_encode, Option.bind_some]

/-- Bytes that are read as a document are there. -/
theorem isEmpty_of_parse {bytes : List UInt8} {v : Json} (h : Json.parseBytes? bytes = some v) :
    bytes.isEmpty = false := by
  cases bytes with
  | nil =>
    have hnil : Json.parseBytes? [] = none := parseBytes?_encode []
    rw [hnil] at h
    exact absurd h (by simp)
  | cons b bs => rfl

/-- A body that is read as an object is fingerprinted as this object. -/
theorem ofBody_of_parse {bytes : List UInt8} {members : List (String × Json)}
    (h : Json.parseBytes? bytes = some (.obj members)) : ofBody bytes = ofValue (.obj members) := by
  unfold ofBody
  rw [isEmpty_of_parse h, h]
  rfl

theorem shuffled_obj {members : List (String × Json)} {v w : Json} (h : Shuffled v w)
    (hv : v = .obj members) : ∃ ns, w = .obj ns := by
  induction h generalizing members with
  | refl => exact ⟨members, hv⟩
  | trans _ _ ih₁ ih₂ =>
    obtain ⟨ns, hns⟩ := ih₁ hv
    exact ih₂ hns
  | @perm ms ns _ => exact ⟨ns, rfl⟩
  | item => exact absurd hv (by simp)
  | @member _ w pre name post _ _ => exact ⟨pre ++ (name, w) :: post, rfl⟩

/-- All shufflings of an object have one fingerprint. -/
theorem ofValue_shuffled {members : List (String × Json)} {w : Json}
    (h : Distinct (.obj members)) (hw : Shuffled (.obj members) w) :
    ofValue w = ofValue (.obj members) := by
  obtain ⟨ns, rfl⟩ := shuffled_obj hw rfl
  exact congrArg ofText (canonicalText_shuffled h hw)

/-- **A body that spells an object has the fingerprint of the object.** -/
theorem ofBody_isText {members : List (String × Json)} (h : Exact (.obj members))
    {cs : List Char} (hcs : IsText (.obj members) cs) :
    ofBody (Text.Utf8.encode cs) = ofValue (.obj members) := by
  -- the body is read as a shuffling of the object, not as the object
  obtain ⟨w, hw, hread⟩ := Json.parseChars?_of_isText h.depth hcs
  obtain ⟨ns, rfl⟩ := shuffled_obj hw rfl
  rw [← parseBytes?_encode] at hread
  rw [ofBody_of_parse hread, ofValue_shuffled h.distinct hw]

/-- **The two ways to a fingerprint agree.**  For an object of at most 127 levels whose numbers
are integers of magnitude at most `2^53`: every text of it, with the members in any order at every
depth and blanks between any two tokens, has the fingerprint of the object; the canonical text is
such a text, so it is read back and canonicalized into itself; and all shufflings of the object
have the same fingerprint. -/
theorem fingerprint_of_texts (members : List (String × Json)) (h : Exact (.obj members)) :
    (∀ cs, IsText (.obj members) cs →
      ofBody (Text.Utf8.encode cs) = ofValue (.obj members)) ∧
    (IsText (.obj members) (canonicalText (.obj members)).toList ∧
      ofBody (Text.Utf8.ofString (canonicalText (.obj members))) = ofValue (.obj members)) ∧
    (∃ w, Json.parse? (canonicalText (.obj members)) = some w ∧
      canonicalText w = canonicalText (.obj members)) ∧
    (∀ w, Shuffled (.obj members) w → ofValue w = ofValue (.obj members)) := by
  have hcanonical := isText_canonicalText h
  refine ⟨fun cs hcs => ofBody_isText h hcs, ⟨hcanonical, ofBody_isText h hcanonical⟩, ?_,
    fun w hw => ofValue_shuffled h.distinct hw⟩
  obtain ⟨w, hw, hread⟩ := Json.parseChars?_of_isText h.depth hcanonical
  exact ⟨w, hread, canonicalText_shuffled h.distinct hw⟩

/-- A text with the members in the other order and with blanks. -/
theorem fingerprint_of_reordered_text :
    ofBody (Text.Utf8.encode "\x7b \"a\":[true],\n\"b\":1 \x7d".toList)
      = ofValue (.obj [("b", .num (.int 1)), ("a", .arr [.bool true])]) := by
  have hexact : Exact (.obj [("b", .num (.int 1)), ("a", .arr [.bool true])]) := by
    refine ⟨⟨by decide, trivial, ⟨trivial, trivial⟩, trivial⟩, by decide, ?_⟩
    intro n hn
    exact ⟨1, List.mem_singleton.mp hn, by decide⟩
  have hspace : JsonToken.AllBlank [' '] := List.forall_mem_singleton.mpr rfl
  have hbreak : JsonToken.AllBlank ['\n'] := List.forall_mem_singleton.mpr rfl
  have htext : JsonToken.Text
      (Json.tokens (.obj [("a", .arr [.bool true]), ("b", .num (.int 1))]))
      "\x7b \"a\":[true],\n\"b\":1 \x7d".toList :=
    Json.text_cons .openObject <| .cons hspace (JsonToken.spelled_quote "a") <|
    Json.text_cons .colon <| Json.text_cons .openArray <| Json.text_cons (.bool true) <|
    Json.text_cons .closeArray <| Json.text_cons .comma <|
    .cons hbreak (JsonToken.spelled_quote "b") <| Json.text_cons .colon <|
    Json.text_cons (.int (by decide) (by decide)) <| .cons hspace .closeObject <|
    .nil (b := []) (by simp [JsonToken.AllBlank])
  exact (fingerprint_of_texts _ hexact).1 _ ⟨_, .perm (.swap _ _ _), htext⟩

end MockServer.Fingerprint
