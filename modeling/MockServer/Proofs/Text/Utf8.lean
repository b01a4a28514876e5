/-
  MockServer.Proofs.Text.Utf8 — reading text back from its bytes.

  A character is written in one to four bytes.  One step of the reader
  takes exactly those bytes off the front, whatever follows, so both
  readers give back every text they are handed the bytes of.

  Main results:
    * `step_encodeChar` — one step reads one written character;
    * `decode?_encode`, `decodeLossy_encode` — the strict and the
      lenient reader give back what was written.
-/
import MockServer.Text.Utf8

namespace MockServer.Text.Utf8

/-! ## Steps by the length of the character -/

theorem within_eq_true {low high b : UInt8} :
    within low high b = true ↔ low.toNat ≤ b.toNat ∧ b.toNat ≤ high.toNat := by
  unfold within
  rw [Bool.and_eq_true, decide_eq_true_eq, decide_eq_true_eq, UInt8.le_iff_toNat_le,
    UInt8.le_iff_toNat_le]

theorem within_eq_false {low high b : UInt8} :
    within low high b = false ↔ b.toNat < low.toNat ∨ high.toNat < b.toNat := by
  rw [← Bool.not_eq_true, within_eq_true]
  omega

theorem isTail_ofNat (n : Nat) : isTail (UInt8.ofNat (n % 0x40 + 0x80)) = true := by
  unfold isTail
  rw [within_eq_true, UInt8.toNat_ofNat']
  show 128 ≤ _ ∧ _ ≤ 191
  omega

theorem payload_ofNat (n : Nat) : payload (UInt8.ofNat (n % 0x40 + 0x80)) = n % 64 := by
  unfold payload
  rw [UInt8.toNat_ofNat']
  omega

/-- The second byte of a longer character is in the range that its first byte asks for. -/
theorem second_eq_true {lead c : UInt8} (htail : isTail c = true)
    (hE0 : lead.toNat = 0xE0 → 0xA0 ≤ c.toNat) (hED : lead.toNat = 0xED → c.toNat ≤ 0x9F)
    (hF0 : lead.toNat = 0xF0 → 0x90 ≤ c.toNat) (hF4 : lead.toNat = 0xF4 → c.toNat ≤ 0x8F) :
    second lead c = true := by
  -- four leading bytes narrow the range, each on one side
  have hc : 128 ≤ c.toNat ∧ c.toNat ≤ 191 := within_eq_true.mp htail
  unfold second
  split
  next h => exact within_eq_true.mpr ⟨hE0 (by rw [h]; rfl), hc.2⟩
  next =>
    split
    next h => exact within_eq_true.mpr ⟨hc.1, hED (by rw [h]; rfl)⟩
    next =>
      split
      next h => exact within_eq_true.mpr ⟨hF0 (by rw [h]; rfl), hc.2⟩
      next =>
        split
        next h => exact within_eq_true.mpr ⟨hc.1, hF4 (by rw [h]; rfl)⟩
        next => exact htail

theorem step_one (b : UInt8) (rest : List UInt8) (hb : b.toNat < 0x80) :
    step b rest = (some (Char.ofNat b.toNat), rest) := by
  unfold step
  rw [if_pos (UInt8.lt_iff_toNat_lt.mpr hb)]

theorem not_lt_of_le {b : UInt8} (hb : 0x80 ≤ b.toNat) : ¬ b < 0x80 := by
  rw [UInt8.lt_iff_toNat_lt]
  show ¬ b.toNat < 128
  omega

theorem step_two (b c : UInt8) (rest : List UInt8) (hb : 0xC2 ≤ b.toNat ∧ b.toNat ≤ 0xDF)
    (hc : isTail c = true) :
    step b (c :: rest) = (some (Char.ofNat (b.toNat % 32 * 64 + payload c)), rest) := by
  have h2 : within 0xC2 0xDF b = true := within_eq_true.mpr hb
  unfold step
  rw [if_neg (not_lt_of_le (by omega)), if_pos h2]
  simp only [hc, if_true]

theorem step_three (b c d : UInt8) (rest : List UInt8) (hb : 0xE0 ≤ b.toNat ∧ b.toNat ≤ 0xEF)
    (hc : second b c = true) (hd : isTail d = true) :
    step b (c :: d :: rest) =
      (some (Char.ofNat (b.toNat % 16 * 4096 + payload c * 64 + payload d)), rest) := by
  have h2 : within 0xC2 0xDF b = false := within_eq_false.mpr (Or.inr (by show 223 < _; omega))
  have h3 : within 0xE0 0xEF b = true := within_eq_true.mpr hb
  unfold step
  rw [if_neg (not_lt_of_le (by omega)), h2, if_neg (by decide), if_pos h3]
  simp only [hc, hd, if_true]

theorem step_four (b c d e : UInt8) (rest : List UInt8) (hb : 0xF0 ≤ b.toNat ∧ b.toNat ≤ 0xF4)
    (hc : second b c = true) (hd : isTail d = true) (he : isTail e = true) :
    step b (c :: d :: e :: rest) =
      (some (Char.ofNat
        (b.toNat % 8 * 262144 + payload c * 4096 + payload d * 64 + payload e)), rest) := by
  have h2 : within 0xC2 0xDF b = false := within_eq_false.mpr (Or.inr (by show 223 < _; omega))
  have h3 : within 0xE0 0xEF b = false := within_eq_false.mpr (Or.inr (by show 239 < _; omega))
  have h4 : within 0xF0 0xF4 b = true := within_eq_true.mpr hb
  unfold step
  rw [if_neg (not_lt_of_le (by omega)), h2, if_neg (by decide), h3, if_neg (by decide),
    if_pos h4]
  simp only [hc, hd, he, if_true]

/-! ## One character -/

theorem toNat_isScalar (c : Char) : c.toNat < 0xD800 ∨ 0xDFFF < c.toNat ∧ c.toNat < 0x110000 :=
  c.valid

theorem encodeChar_one {c : Char} (h : c.toNat ≤ 0x7f) :
    String.utf8EncodeChar c = [UInt8.ofNat c.toNat] :=
  if_pos h

theorem encodeChar_two {c : Char} (h : 0x7f < c.toNat ∧ c.toNat ≤ 0x7ff) :
    String.utf8EncodeChar c =
      [UInt8.ofNat (c.toNat / 64 % 0x20 + 0xc0), UInt8.ofNat (c.toNat % 0x40 + 0x80)] :=
  (if_neg (show ¬ c.toNat ≤ 0x7f by omega)).trans (if_pos h.2)

theorem encodeChar_three {c : Char} (h : 0x7ff < c.toNat ∧ c.toNat ≤ 0xffff) :
    String.utf8EncodeChar c =
      [UInt8.ofNat (c.toNat / 4096 % 0x10 + 0xe0), UInt8.ofNat (c.toNat / 64 % 0x40 + 0x80),
        UInt8.ofNat (c.toNat % 0x40 + 0x80)] :=
  (if_neg (show ¬ c.toNat ≤ 0x7f by omega)).trans
    ((if_neg (show ¬ c.toNat ≤ 0x7ff by omega)).trans (if_pos h.2))

theorem encodeChar_four {c : Char} (h : 0xffff < c.toNat) :
    String.utf8EncodeChar c =
      [UInt8.ofNat (c.toNat / 262144 % 0x08 + 0xf0), UInt8.ofNat (c.toNat / 4096 % 0x40 + 0x80),
        UInt8.ofNat (c.toNat / 64 % 0x40 + 0x80), UInt8.ofNat (c.toNat % 0x40 + 0x80)] :=
  (if_neg (show ¬ c.toNat ≤ 0x7f by omega)).trans
    ((if_neg (show ¬ c.toNat ≤ 0x7ff by omega)).trans
      (if_neg (show ¬ c.toNat ≤ 0xffff by omega)))

/-- A byte holds every number below 256 as it is. -/
theorem toNat_ofNat_lt {n : Nat} (h : n < 256) : (UInt8.ofNat n).toNat = n := by
  rw [UInt8.toNat_ofNat']
  omega

/-- All bytes of a character that is not ASCII are beyond ASCII. -/
theorem le_of_mem_encodeChar {c : Char} (h : 0x7f < c.toNat) {b : UInt8}
    (hb : b ∈ String.utf8EncodeChar c) : 0x80 ≤ b.toNat := by
  have hbyte : ∀ {n : Nat}, 0x80 ≤ n → n < 256 → 0x80 ≤ (UInt8.ofNat n).toNat := by
    intro n hlow hhigh
    rwa [toNat_ofNat_lt hhigh]
  by_cases h2 : c.toNat ≤ 0x7ff
  · rw [encodeChar_two ⟨h, h2⟩] at hb
    simp only [List.mem_cons, List.not_mem_nil, or_false] at hb
    rcases hb with rfl | rfl <;> exact hbyte (by omega) (by omega)
  by_cases h3 : c.toNat ≤ 0xffff
  · rw [encodeChar_three ⟨by omega, h3⟩] at hb
    simp only [List.mem_cons, List.not_mem_nil, or_false] at hb
    rcases hb with rfl | rfl | rfl <;> exact hbyte (by omega) (by omega)
  · rw [encodeChar_four (by omega)] at hb
    simp only [List.mem_cons, List.not_mem_nil, or_false] at hb
    rcases hb with rfl | rfl | rfl | rfl <;> exact hbyte (by omega) (by omega)

/-- **One step of the reader takes one written character off the front.** -/
theorem step_encodeChar (c : Char) (rest : List UInt8) :
    ∃ b bs, String.utf8EncodeChar c = b :: bs ∧ step b (bs ++ rest) = (some c, rest) := by
  have hscalar := toNat_isScalar c
  have hof : Char.ofNat c.toNat = c := Char.ofNat_toNat c
  -- the number of bytes is decided by the code point alone
  by_cases h1 : c.toNat ≤ 0x7f
  · refine ⟨_, _, encodeChar_one h1, ?_⟩
    have hb := toNat_ofNat_lt (n := c.toNat) (by omega)
    rw [List.nil_append, step_one _ _ (by omega), hb, hof]
  by_cases h2 : c.toNat ≤ 0x7ff
  · refine ⟨_, _, encodeChar_two ⟨by omega, h2⟩, ?_⟩
    have hb := toNat_ofNat_lt (n := c.toNat / 64 % 0x20 + 0xc0) (by omega)
    rw [List.cons_append, List.nil_append, step_two _ _ _ (by omega) (isTail_ofNat _),
      payload_ofNat, hb,
      show (c.toNat / 64 % 0x20 + 0xc0) % 32 * 64 + c.toNat % 64 = c.toNat by omega, hof]
  by_cases h3 : c.toNat ≤ 0xffff
  · refine ⟨_, _, encodeChar_three ⟨by omega, h3⟩, ?_⟩
    have hb := toNat_ofNat_lt (n := c.toNat / 4096 % 0x10 + 0xe0) (by omega)
    have hc := toNat_ofNat_lt (n := c.toNat / 64 % 0x40 + 0x80) (by omega)
    have hsecond : second (UInt8.ofNat (c.toNat / 4096 % 0x10 + 0xe0))
        (UInt8.ofNat (c.toNat / 64 % 0x40 + 0x80)) = true := by
      apply second_eq_true (isTail_ofNat _) <;> rw [hb, hc] <;> omega
    rw [List.cons_append, List.cons_append, List.nil_append,
      step_three _ _ _ _ (by omega) hsecond (isTail_ofNat _), payload_ofNat, payload_ofNat, hb,
      show (c.toNat / 4096 % 0x10 + 0xe0) % 16 * 4096 + c.toNat / 64 % 64 * 64 + c.toNat % 64
        = c.toNat by omega, hof]
  · refine ⟨_, _, encodeChar_four (by omega), ?_⟩
    have hb := toNat_ofNat_lt (n := c.toNat / 262144 % 0x08 + 0xf0) (by omega)
    have hc := toNat_ofNat_lt (n := c.toNat / 4096 % 0x40 + 0x80) (by omega)
    have hsecond : second (UInt8.ofNat (c.toNat / 262144 % 0x08 + 0xf0))
        (UInt8.ofNat (c.toNat / 4096 % 0x40 + 0x80)) = true := by
      apply second_eq_true (isTail_ofNat _) <;> rw [hb, hc] <;> omega
    rw [List.cons_append, List.cons_append, List.cons_append, List.nil_append,
      step_four _ _ _ _ _ (by omega) hsecond (isTail_ofNat _) (isTail_ofNat _),
      payload_ofNat, payload_ofNat, payload_ofNat, hb,
      show (c.toNat / 262144 % 0x08 + 0xf0) % 8 * 262144 + c.toNat / 4096 % 64 * 4096
        + c.toNat / 64 % 64 * 64 + c.toNat % 64 = c.toNat by omega, hof]

/-! ## Whole texts -/

@[simp] theorem encode_cons (c : Char) (cs : List Char) :
    encode (c :: cs) = String.utf8EncodeChar c ++ encode cs := rfl

/-- An ASCII character is written as its one byte. -/
theorem encode_ascii {c : Char} (h : c.toNat ≤ 0x7f) (cs : List Char) :
    encode (c :: cs) = UInt8.ofNat c.toNat :: encode cs := by
  rw [encode_cons, encodeChar_one h]
  rfl

/-- The characters of an ASCII text are written as one byte each. -/
theorem encode_of_ascii {cs : List Char} (h : ∀ c ∈ cs, c.toNat ≤ 0x7f) :
    encode cs = cs.map fun c => UInt8.ofNat c.toNat := by
  induction cs with
  | nil => rfl
  | cons c cs ih =>
    rw [List.forall_mem_cons] at h
    rw [encode_ascii h.1, ih h.2, List.map_cons]

/-- **The strict reader gives back every text.** -/
theorem decode?_encode (cs : List Char) : decode? (encode cs) = some cs := by
  induction cs with
  | nil => rw [show encode [] = [] from rfl, decode?]
  | cons c cs ih =>
    -- the step does not depend on what follows the character
    obtain ⟨b, bs, henc, hstep⟩ := step_encodeChar c (encode cs)
    rw [encode_cons, henc, List.cons_append, decode?, hstep]
    show (decode? (encode cs)).map (c :: ·) = _
    rw [ih]
    rfl

/-- How many bytes a character takes at most, by its number. -/
theorem length_encodeChar_le (c : Char) :
    (String.utf8EncodeChar c).length ≤ 4 ∧
    (c.toNat ≤ 0xffff → (String.utf8EncodeChar c).length ≤ 3) ∧
    (c.toNat ≤ 0x7ff → (String.utf8EncodeChar c).length ≤ 2) ∧
    (c.toNat ≤ 0x7f → (String.utf8EncodeChar c).length ≤ 1) := by
  by_cases h1 : c.toNat ≤ 0x7f
  · rw [encodeChar_one h1]
    simp
  by_cases h2 : c.toNat ≤ 0x7ff
  · rw [encodeChar_two ⟨by omega, h2⟩]
    simp [h1]
  by_cases h3 : c.toNat ≤ 0xffff
  · rw [encodeChar_three ⟨by omega, h3⟩]
    simp [h1, h2]
  · rw [encodeChar_four (by omega)]
    simp [h1, h2, h3]

theorem toNat_ofNat_le (n : Nat) : (Char.ofNat n).toNat ≤ n := by
  unfold Char.ofNat
  by_cases hvalid : n.isValidChar
  · rw [dif_pos hvalid]
    exact Nat.le_refl n
  · rw [dif_neg hvalid]
    exact Nat.zero_le n

/-- A character is written with no more bytes than it was read from. -/
theorem length_of_step {b : UInt8} {rest : List UInt8} {c : Char} (h : (step b rest).1 = some c) :
    (String.utf8EncodeChar c).length + (step b rest).2.length ≤ rest.length + 1 := by
  obtain ⟨h4, h3, h2, h1⟩ := length_encodeChar_le c
  revert h
  fun_cases step b rest <;> intro h
  case case1 hb =>
    -- one byte
    obtain rfl := Option.some.inj h
    have hle := toNat_ofNat_le b.toNat
    have hlt : b.toNat < 0x80 := hb
    have hlength := h1 (by omega)
    simp only
    omega
  case case2 c _ _ =>
    obtain rfl := Option.some.inj h
    have hle := toNat_ofNat_le (b.toNat % 32 * 64 + payload c)
    have hc : payload c < 64 := Nat.mod_lt _ (by decide)
    have hlength := h2 (by omega)
    simp only [List.length_cons]
    omega
  case case5 _ _ c _ d _ _ =>
    obtain rfl := Option.some.inj h
    have hle := toNat_ofNat_le (b.toNat % 16 * 4096 + payload c * 64 + payload d)
    have hc : payload c < 64 := Nat.mod_lt _ (by decide)
    have hd : payload d < 64 := Nat.mod_lt _ (by decide)
    have hlength := h3 (by omega)
    simp only [List.length_cons]
    omega
  case case10 =>
    simp only [List.length_cons]
    omega
  -- the other cases read no character
  all_goals cases h

/-- **A text is written with no more bytes than it was read from.** -/
theorem length_encode_of_decode? {bs : List UInt8} {cs : List Char} (h : decode? bs = some cs) :
    (encode cs).length ≤ bs.length := by
  fun_induction decode? bs generalizing cs with
  | case1 =>
    obtain rfl := Option.some.inj h
    exact Nat.le_refl 0
  | case2 b rest c hstep ih =>
    obtain ⟨tail, htail, rfl⟩ := Option.map_eq_some_iff.mp h
    have hfirst := length_of_step hstep
    have hrest := ih htail
    rw [encode_cons, List.length_append, List.length_cons]
    omega
  | case3 => cases h

/-- **So does the lenient one**: it finds nothing malformed to replace. -/
theorem decodeLossy_encode (cs : List Char) : decodeLossy (encode cs) = cs := by
  induction cs with
  | nil => rw [show encode [] = [] from rfl, decodeLossy]
  | cons c cs ih =>
    obtain ⟨b, bs, henc, hstep⟩ := step_encodeChar c (encode cs)
    rw [encode_cons, henc, List.cons_append, decodeLossy, hstep]
    show c :: decodeLossy (encode cs) = _
    rw [ih]

end MockServer.Text.Utf8
