/-
  MockServer.Proofs.Url.Percent — which texts percent decoding changes.

  Decoding puts one byte for each escape, which has three, and leaves
  all other bytes.  So a text without escapes stays as it is, and one
  with an escape becomes shorter.

  Main definition:
    * `HasEscape` — is there a percent sign with two digits behind it?

  Main results:
    * `percentDecode_of_plain` — a text without escapes stays;
    * `length_percentDecode_lt` — one with an escape becomes shorter.
-/
import Mathlib.Data.List.Infix
import MockServer.Proofs.Url.Form

namespace MockServer.Url

open Text (Hex.value?)
open Text.Utf8 (encode)

/-! ## Escapes -/

/-- Does a text start with a percent sign and two hexadecimal digits? -/
def StartsEscape : List Char → Prop
  | p :: h :: l :: _ => p = '%' ∧ (Hex.value? h).isSome ∧ (Hex.value? l).isSome
  | _ => False

/-- Is there a percent sign with two hexadecimal digits behind it? -/
def HasEscape (cs : List Char) : Prop := ∃ rest, rest <:+ cs ∧ StartsEscape rest

instance : DecidablePred StartsEscape
  | [] | [_] | [_, _] => isFalse id
  | p :: h :: l :: _ =>
    inferInstanceAs (Decidable (p = '%' ∧ (Hex.value? h).isSome ∧ (Hex.value? l).isSome))

theorem not_startsEscape {c : Char} {cs : List Char} (h : c ≠ '%') : ¬ StartsEscape (c :: cs) := by
  match cs with
  | [] => exact id
  | [_] => exact id
  | _ :: _ :: _ => exact fun hstarts => h hstarts.1

theorem not_hasEscape_nil : ¬ HasEscape [] := by
  rintro ⟨rest, hrest, hstarts⟩
  rw [List.suffix_nil.mp hrest] at hstarts
  exact hstarts

theorem hasEscape_cons {c : Char} {cs : List Char} :
    HasEscape (c :: cs) ↔ StartsEscape (c :: cs) ∨ HasEscape cs := by
  constructor
  · rintro ⟨rest, hrest, hstarts⟩
    rcases List.suffix_cons_iff.mp hrest with rfl | hrest
    · exact Or.inl hstarts
    · exact Or.inr ⟨rest, hrest, hstarts⟩
  · rintro (hstarts | ⟨rest, hrest, hstarts⟩)
    · exact ⟨c :: cs, List.suffix_refl _, hstarts⟩
    · exact ⟨rest, hrest.trans (List.suffix_cons c cs), hstarts⟩

instance (cs : List Char) : Decidable (HasEscape cs) :=
  decidable_of_iff (∃ rest ∈ cs.tails, StartsEscape rest) (by simp only [HasEscape, List.mem_tails])

/-! ## Bytes -/

/-- Bytes without a percent sign are passed over. -/
theorem percentDecode_append {bs : List UInt8} (h : ∀ b ∈ bs, b ≠ 0x25) (rest : List UInt8) :
    percentDecode (bs ++ rest) = bs ++ percentDecode rest := by
  induction bs with
  | nil => rfl
  | cons b bs ih =>
    rw [List.forall_mem_cons] at h
    rw [List.cons_append, percentDecode_cons h.1, ih h.2, List.cons_append]

/-- A percent sign without two digits behind it is passed over, too. -/
theorem percentDecode_sign {bs : List UInt8}
    (h : ∀ x y rest, bs = x :: y :: rest → hexByte? x = none ∨ hexByte? y = none) :
    percentDecode (0x25 :: bs) = 0x25 :: percentDecode bs := by
  match bs with
  | [] => rfl
  | [_] => rfl
  | x :: y :: rest =>
    rw [percentDecode, if_pos rfl]
    rcases h x y rest rfl with hx | hy
    · rw [hx]
    · cases hexByte? x <;> simp only [hy]

theorem length_percentDecode_le (bs : List UInt8) : (percentDecode bs).length ≤ bs.length := by
  fun_induction percentDecode bs with
  | case1 => exact Nat.le_refl _
  | case2 b => exact Nat.le_refl _
  | case3 b c => exact Nat.le_refl _
  | case4 => simp only [List.length_cons]; omega
  | case5 => simp only [List.length_cons] at *; omega
  | case6 => simp only [List.length_cons] at *; omega

/-- The digits are ASCII. -/
theorem ascii_of_hexByte? {b : UInt8} (h : (hexByte? b).isSome) : b.toNat < 0x80 := by
  have hdigits : ∀ n < 256, (Hex.value? (Char.ofNat n)).isSome → n < 0x80 := by
    decide +kernel
  exact hdigits b.toNat b.toNat_lt h

/-! ## Characters -/

theorem ascii_of_value? {c : Char} (h : (Hex.value? c).isSome) : c.toNat ≤ 0x7f := by
  unfold Hex.value? at h
  split_ifs at h with h1 h2 h3
  · exact Nat.le_trans h1.2 (by decide)
  · exact Nat.le_trans h2.2 (by decide)
  · exact Nat.le_trans h3.2 (by decide)
  · cases h

/-- The byte of a digit is this digit. -/
theorem hexByte?_ofNat {c : Char} (h : (Hex.value? c).isSome) :
    hexByte? (UInt8.ofNat c.toNat) = Hex.value? c := by
  have hascii := ascii_of_value? h
  unfold hexByte?
  rw [Text.Utf8.toNat_ofNat_lt (by omega), Char.ofNat_toNat]

/-- Only an ASCII character is written with an ASCII byte at the front. -/
theorem ascii_of_encode {cs : List Char} {b : UInt8} {bs : List UInt8} (h : encode cs = b :: bs)
    (hb : b.toNat < 0x80) : ∃ rest, cs = Char.ofNat b.toNat :: rest ∧ encode rest = bs := by
  cases cs with
  | nil => cases h
  | cons c rest =>
    by_cases hc : c.toNat ≤ 0x7f
    · rw [Text.Utf8.encode_ascii hc, List.cons.injEq] at h
      refine ⟨rest, ?_, h.2⟩
      rw [← h.1, Text.Utf8.toNat_ofNat_lt (by omega), Char.ofNat_toNat]
    · obtain ⟨lead, tail, hchar, -⟩ := Text.Utf8.step_encodeChar c []
      rw [Text.Utf8.encode_cons, hchar, List.cons_append, List.cons.injEq] at h
      have hlead := Text.Utf8.le_of_mem_encodeChar (c := c) (b := lead) (by omega) (by simp [hchar])
      rw [h.1] at hlead
      omega

/-- A character that does not start an escape is passed over. -/
theorem percentDecode_encode_cons {c : Char} {cs : List Char} (h : ¬ StartsEscape (c :: cs)) :
    percentDecode (encode (c :: cs)) = String.utf8EncodeChar c ++ percentDecode (encode cs) := by
  by_cases hc : c = '%'
  · subst hc
    refine percentDecode_sign ?_
    intro x y rest hcs
    -- two digits would be ASCII characters, and the sign would start an escape
    by_contra hdigits
    rw [not_or, ← Ne, ← Ne, ← Option.isSome_iff_ne_none, ← Option.isSome_iff_ne_none] at hdigits
    obtain ⟨cs', rfl, hcs'⟩ := ascii_of_encode hcs (ascii_of_hexByte? hdigits.1)
    obtain ⟨cs'', rfl, -⟩ := ascii_of_encode hcs' (ascii_of_hexByte? hdigits.2)
    exact h ⟨rfl, hdigits⟩
  · refine percentDecode_append ?_ _
    rintro b hb rfl
    by_cases hascii : c.toNat ≤ 0x7f
    · rw [Text.Utf8.encodeChar_one hascii, List.mem_singleton] at hb
      have hnat := congrArg UInt8.toNat hb
      rw [Text.Utf8.toNat_ofNat_lt (by omega)] at hnat
      exact hc (by rw [← Char.ofNat_toNat c, ← hnat]; rfl)
    · have := Text.Utf8.le_of_mem_encodeChar (by omega) hb
      exact absurd this (by decide)

/-! ## Texts -/

/-- **A text without escapes stays as it is.** -/
theorem percentDecode_of_plain {cs : List Char} (h : ¬ HasEscape cs) :
    percentDecode (encode cs) = encode cs := by
  induction cs with
  | nil => rfl
  | cons c cs ih =>
    rw [hasEscape_cons, not_or] at h
    rw [percentDecode_encode_cons h.1, ih h.2, Text.Utf8.encode_cons]

theorem decodeText?_of_plain {cs : List Char} (h : ¬ HasEscape cs) : decodeText? cs = some cs := by
  unfold decodeText?
  rw [percentDecode_of_plain h, Text.Utf8.decode?_encode]

/-- An escape becomes one byte. -/
theorem length_percentDecode_escape {cs : List Char} (h : StartsEscape cs) :
    (percentDecode (encode cs)).length < (encode cs).length := by
  match cs, h with
  | p :: x :: y :: rest, h =>
    obtain ⟨rfl, hx, hy⟩ := h
    obtain ⟨high, hhigh⟩ := Option.isSome_iff_exists.mp hx
    obtain ⟨low, hlow⟩ := Option.isSome_iff_exists.mp hy
    have hbytes : encode ('%' :: x :: y :: rest)
        = 0x25 :: UInt8.ofNat x.toNat :: UInt8.ofNat y.toNat :: encode rest := by
      rw [Text.Utf8.encode_ascii (by decide), Text.Utf8.encode_ascii (ascii_of_value? hx),
        Text.Utf8.encode_ascii (ascii_of_value? hy)]
      rfl
    rw [hbytes, percentDecode_escape ((hexByte?_ofNat hx).trans hhigh)
      ((hexByte?_ofNat hy).trans hlow)]
    have hrest := length_percentDecode_le (encode rest)
    simp only [List.length_cons]
    omega

/-- **A text with an escape becomes shorter.** -/
theorem length_percentDecode_lt {cs : List Char} (h : HasEscape cs) :
    (percentDecode (encode cs)).length < (encode cs).length := by
  induction cs with
  | nil => exact absurd h not_hasEscape_nil
  | cons c cs ih =>
    by_cases hstarts : StartsEscape (c :: cs)
    · exact length_percentDecode_escape hstarts
    · have hlt := ih ((hasEscape_cons.mp h).resolve_left hstarts)
      rw [percentDecode_encode_cons hstarts, Text.Utf8.encode_cons, List.length_append,
        List.length_append]
      omega

end MockServer.Url
