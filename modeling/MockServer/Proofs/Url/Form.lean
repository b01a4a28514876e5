/-
  MockServer.Proofs.Url.Form — pairs read back from their query string.

  A written byte is itself, a plus sign for a blank, or a percent sign
  with two digits; none of these holds an ampersand or an equals sign.
  So the separators of a written query are where they were put, and
  every piece between them decodes to what it was written from.

  Main results:
    * `decode_encode` — a name or a value is read back;
    * `parse_serialize` — a list of pairs is read back.
-/
import MockServer.Proofs.Text.Split
import MockServer.Proofs.Text.Utf8
import MockServer.Url.Form

namespace MockServer.Url

/-! ## Percent escapes -/

theorem percentDecode_cons {b : UInt8} (hb : b ≠ 0x25) (rest : List UInt8) :
    percentDecode (b :: rest) = b :: percentDecode rest := by
  match rest with
  | [] => rfl
  | [_] => rfl
  | _ :: _ :: _ => rw [percentDecode, if_neg hb]

theorem percentDecode_escape {h l : UInt8} {high low : Nat} (hh : hexByte? h = some high)
    (hl : hexByte? l = some low) (rest : List UInt8) :
    percentDecode (0x25 :: h :: l :: rest) =
      UInt8.ofNat (high * 16 + low) :: percentDecode rest := by
  rw [percentDecode, if_pos rfl, hh, hl]

namespace Form

/-! ## Written bytes -/

/-- Plus signs are blanks. -/
def spaced (bytes : List UInt8) : List UInt8 := bytes.map fun b => if b = 0x2B then 0x20 else b

/-- The bytes of a written byte. -/
def written (b : UInt8) : List UInt8 := Text.Utf8.encode (encodeByte b)

/-- The byte of an upper-case digit. -/
def digitByte (n : Nat) : UInt8 := UInt8.ofNat (Text.Hex.upperDigit n).toNat

theorem encode_append (xs ys : List Char) :
    Text.Utf8.encode (xs ++ ys) = Text.Utf8.encode xs ++ Text.Utf8.encode ys :=
  List.flatMap_append

/-- A written byte is read as itself or as an escape of itself, and holds no separator. -/
theorem written_ofNat : ∀ n < 256,
    (spaced (written (UInt8.ofNat n)) = [UInt8.ofNat n] ∧ UInt8.ofNat n ≠ 0x25 ∨
      spaced (written (UInt8.ofNat n)) = [0x25, digitByte (n / 16), digitByte (n % 16)]) ∧
    (0x26 : UInt8) ∉ written (UInt8.ofNat n) ∧ (0x3D : UInt8) ∉ written (UInt8.ofNat n) := by
  decide +kernel

theorem hexByte?_digitByte : ∀ n < 16, hexByte? (digitByte n) = some n := by
  decide

theorem percentDecode_written (b : UInt8) (rest : List UInt8) :
    percentDecode (spaced (written b) ++ rest) = b :: percentDecode rest := by
  have hlt : b.toNat < 256 := b.toNat_lt_size
  have hb : UInt8.ofNat b.toNat = b := UInt8.ofNat_toNat
  obtain ⟨hread, -, -⟩ := written_ofNat b.toNat hlt
  rw [hb] at hread
  -- a byte other than the percent sign stands for itself, an escape for its two digits
  rcases hread with ⟨hsame, hne⟩ | hescape
  · rw [hsame, List.singleton_append, percentDecode_cons hne]
  · rw [hescape]
    show percentDecode (0x25 :: digitByte (b.toNat / 16) :: digitByte (b.toNat % 16) :: rest) = _
    rw [percentDecode_escape (hexByte?_digitByte _ (by omega)) (hexByte?_digitByte _ (by omega)),
      Nat.div_add_mod', hb]

/-- The bytes of a written name or value. -/
theorem bytes_encode (s : String) :
    Text.Utf8.encode (encode s) = (Text.Utf8.ofString s).flatMap written := by
  unfold encode written Text.Utf8.encode
  rw [List.flatMap_assoc]

theorem percentDecode_flatMap_written (bytes : List UInt8) :
    percentDecode (spaced (bytes.flatMap written)) = bytes := by
  induction bytes with
  | nil => rfl
  | cons b bytes ih =>
    rw [List.flatMap_cons]
    show percentDecode (List.map _ (written b ++ bytes.flatMap written)) = _
    rw [List.map_append]
    show percentDecode (spaced (written b) ++ spaced (bytes.flatMap written)) = _
    rw [percentDecode_written, ih]

/-- **A name or a value is read back.** -/
theorem decode_encode (s : String) : decode (Text.Utf8.encode (encode s)) = s := by
  rw [bytes_encode]
  show String.ofList (Text.Utf8.decodeLossy
    (percentDecode (spaced ((Text.Utf8.ofString s).flatMap written)))) = s
  rw [percentDecode_flatMap_written]
  show String.ofList (Text.Utf8.decodeLossy (Text.Utf8.encode s.toList)) = s
  rw [Text.Utf8.decodeLossy_encode, String.ofList_toList]

theorem separators_not_mem (s : String) :
    (0x26 : UInt8) ∉ Text.Utf8.encode (encode s) ∧
      (0x3D : UInt8) ∉ Text.Utf8.encode (encode s) := by
  have hbyte : ∀ b : UInt8, (0x26 : UInt8) ∉ written b ∧ (0x3D : UInt8) ∉ written b := by
    intro b
    have hb : UInt8.ofNat b.toNat = b := UInt8.ofNat_toNat
    have hseparators := (written_ofNat b.toNat b.toNat_lt_size).2
    rwa [hb] at hseparators
  rw [bytes_encode, List.mem_flatMap, List.mem_flatMap]
  constructor
  · rintro ⟨b, -, hmem⟩
    exact (hbyte b).1 hmem
  · rintro ⟨b, -, hmem⟩
    exact (hbyte b).2 hmem

/-! ## Pairs -/

/-- The bytes of a written pair. -/
def pairBytes (p : String × String) : List UInt8 := Text.Utf8.encode (encodePair p)

theorem pairBytes_eq (p : String × String) :
    pairBytes p = Text.Utf8.encode (encode p.1) ++ 0x3D :: Text.Utf8.encode (encode p.2) := by
  unfold pairBytes encodePair
  rw [encode_append]
  rfl

theorem pair_pairBytes (p : String × String) : pair (pairBytes p) = p := by
  unfold pair
  rw [pairBytes_eq, Text.splitFirst_append (separators_not_mem p.1).2]
  show (decode _, decode _) = p
  rw [decode_encode, decode_encode]

theorem ampersand_not_mem (p : String × String) : (0x26 : UInt8) ∉ pairBytes p := by
  rw [pairBytes_eq, List.mem_append, List.mem_cons, not_or, not_or]
  exact ⟨(separators_not_mem p.1).1, by decide, (separators_not_mem p.2).1⟩

theorem pairBytes_isEmpty (p : String × String) : (pairBytes p).isEmpty = false := by
  rw [pairBytes_eq, List.isEmpty_eq_false_iff]
  exact List.append_ne_nil_of_right_ne_nil _ (List.cons_ne_nil _ _)

theorem splitOn_serialize (p : String × String) (rest : List (String × String)) :
    Text.splitOn (0x26 : UInt8) (Text.Utf8.encode (serialize (p :: rest)))
      = (p :: rest).map pairBytes := by
  induction rest generalizing p with
  | nil => exact Text.splitOn_of_not_mem (ampersand_not_mem p)
  | cons q rest ih =>
    have hserialize : serialize (p :: q :: rest) =
        encodePair p ++ '&' :: serialize (q :: rest) := rfl
    rw [hserialize, encode_append]
    show Text.splitOn 0x26 (pairBytes p ++ 0x26 :: Text.Utf8.encode (serialize (q :: rest))) = _
    rw [Text.splitOn_append (ampersand_not_mem p), ih]
    rfl

/-- **Pairs are read back from their text.** -/
theorem parse_serialize (pairs : List (String × String)) :
    parse (String.ofList (serialize pairs)) = pairs := by
  unfold parse Text.Utf8.ofString
  rw [String.toList_ofList]
  cases pairs with
  | nil => rfl
  | cons p rest =>
    show (List.filter _ (Text.splitOn 0x26 _)).map pair = _
    -- no written pair is empty, so no piece is dropped
    rw [splitOn_serialize, List.filter_eq_self.mpr, List.map_map]
    · rw [show pair ∘ pairBytes = id from funext pair_pairBytes, List.map_id]
    · intro piece hpiece
      obtain ⟨q, -, rfl⟩ := List.mem_map.mp hpiece
      rw [pairBytes_isEmpty]
      rfl

theorem serialize_inj {ps qs : List (String × String)} (h : serialize ps = serialize qs) :
    ps = qs := by
  rw [← parse_serialize ps, h, parse_serialize]

end Form

end MockServer.Url
