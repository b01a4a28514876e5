/-
  MockServer.Proofs.Text.Case — texts up to the case of their letters.

  An ASCII text in upper case is the same text up to the case of its
  letters, and so is any text in lower case.
-/
import MockServer.Text.Case

namespace MockServer.Text

theorem sameFold_iff {a b : String} : sameFold a b = true ↔ lower a = lower b :=
  beq_iff_eq

theorem sameFold_comm (a b : String) : sameFold a b = sameFold b a :=
  BEq.comm

theorem sameFold_congr_left {a b : String} (h : sameFold a b = true) (c : String) :
    sameFold a c = sameFold b c := by
  unfold sameFold
  rw [sameFold_iff.mp h]

/-! ## Lower case -/

/-- What holds of ASCII characters and of all others holds of every character. -/
theorem ascii_cases {p : Char → Prop} (hascii : ∀ n < 128, p (Char.ofNat n))
    (hother : ∀ c : Char, 128 ≤ c.toNat → p c) (c : Char) : p c := by
  rcases Nat.lt_or_ge c.toNat 128 with h | h
  · have hc := hascii c.toNat h
    rwa [Char.ofNat_toNat] at hc
  · exact hother c h

theorem lowerChar_of_le {c : Char} (h : 128 ≤ c.toNat) : lowerChar c = c := by
  unfold lowerChar Char.toLower
  rw [dif_neg]
  rintro ⟨-, hle⟩
  have hz : c.toNat ≤ 90 := hle
  omega

theorem lowerChar_lowerChar (c : Char) : lowerChar (lowerChar c) = lowerChar c := by
  refine ascii_cases (p := fun c => lowerChar (lowerChar c) = lowerChar c) (by decide) ?_ c
  intro c h
  rw [lowerChar_of_le h, lowerChar_of_le h]

/-- **A text in lower case is the text up to case.** -/
theorem sameFold_lower_left (a b : String) : sameFold (lower a) b = sameFold a b := by
  refine sameFold_congr_left (sameFold_iff.mpr ?_) b
  unfold lower
  rw [String.toList_ofList, List.map_map]
  exact congrArg String.ofList (List.map_congr_left fun c _ => lowerChar_lowerChar c)

/-! ## Upper case -/

theorem toLower_toUpper_ofNat : ∀ n < 128,
    (Char.ofNat n).toUpper.toLower = (Char.ofNat n).toLower := by
  decide

theorem map_lowerChar_upperChar {c : Char} (h : c.toNat < 128) :
    (upperChar c).map lowerChar = [lowerChar c] := by
  have hc := toLower_toUpper_ofNat c.toNat h
  rw [Char.ofNat_toNat] at hc
  unfold upperChar lowerChar
  rw [if_pos h, List.map_singleton, hc]

/-- A character that is no lower-case ASCII letter. -/
def IsRaised (c : Char) : Prop := c.toNat < 97 ∨ 122 < c.toNat

theorem isRaised_ofNat {n : Nat} (h : n < 97 ∨ 122 < n) : IsRaised (Char.ofNat n) := by
  unfold IsRaised Char.ofNat
  by_cases hvalid : n.isValidChar
  · rw [dif_pos hvalid]
    exact h
  · rw [dif_neg hvalid]
    exact Or.inl (by decide)

/-- No character has a lower-case ASCII letter in its upper case. -/
theorem isRaised_of_mem_upperChar {c d : Char} (h : d ∈ upperChar c) : IsRaised d := by
  have hascii : ∀ n < 128, IsRaised (Char.ofNat n).toUpper := by
    unfold IsRaised
    decide
  have hruns : ∀ run ∈ UpperTable.runs,
      (run.2.1 : Int) + run.2.2.2 < 97 ∨ 122 < (run.1 : Int) + run.2.2.2 := by
    decide +kernel
  have hexpansions : ∀ e ∈ UpperTable.expansions, ∀ n ∈ e.2, n < 97 ∨ 122 < n := by
    decide +kernel
  unfold upperChar at h
  split at h
  next hc =>
    rw [List.mem_singleton.mp h]
    have hup := hascii c.toNat hc
    rwa [Char.ofNat_toNat] at hup
  next hc =>
    split at h
    next ns hlookup =>
      obtain ⟨before, after, htable, -⟩ := List.lookup_eq_some_iff.mp hlookup
      obtain ⟨n, hn, rfl⟩ := List.mem_map.mp h
      exact isRaised_ofNat (hexpansions (c.toNat, ns) (by simp [htable]) n hn)
    next =>
      split at h
      next run hrun =>
        rw [List.mem_singleton.mp h]
        have hin := List.find?_some hrun
        simp only [inRun, Bool.and_eq_true, decide_eq_true_eq] at hin
        have hbounds := hruns run (List.mem_of_find?_eq_some hrun)
        exact isRaised_ofNat (by omega)
      next =>
        rw [List.mem_singleton.mp h]
        exact Or.inr (by omega)

/-- Lower case tells characters apart that are no lower-case ASCII letters. -/
theorem lowerChar_inj {c d : Char} (hc : IsRaised c) (hd : IsRaised d)
    (h : lowerChar c = lowerChar d) : c = d := by
  have hnat : ∀ c : Char,
      (lowerChar c).toNat = if 65 ≤ c.toNat ∧ c.toNat ≤ 90 then c.toNat + 32 else c.toNat := by
    intro c
    refine ascii_cases (p := fun c => (lowerChar c).toNat
      = if 65 ≤ c.toNat ∧ c.toNat ≤ 90 then c.toNat + 32 else c.toNat) (by decide) ?_ c
    intro c h
    rw [lowerChar_of_le h, if_neg (by omega)]
  have heq := congrArg Char.toNat h
  rw [hnat, hnat] at heq
  unfold IsRaised at hc hd
  apply Char.toNat_inj.mp
  split at heq <;> split at heq <;> omega

/-- **Texts in upper case are the same if they are the same up to case.** -/
theorem upper_eq_iff {s t : String} : lower (upper s) = lower (upper t) ↔ upper s = upper t := by
  have hraised : ∀ s : String, ∀ c ∈ (upper s).toList, IsRaised c := by
    intro s c hc
    rw [upper, String.toList_ofList, List.mem_flatMap] at hc
    obtain ⟨d, -, hmem⟩ := hc
    exact isRaised_of_mem_upperChar hmem
  have hmap : ∀ xs ys : List Char, (∀ c ∈ xs, IsRaised c) → (∀ c ∈ ys, IsRaised c) →
      xs.map lowerChar = ys.map lowerChar → xs = ys := by
    intro xs
    induction xs with
    | nil =>
      intro ys _ _ h
      exact (List.map_eq_nil_iff.mp h.symm).symm
    | cons x xs ih =>
      intro ys hxs hys h
      cases ys with
      | nil => cases h
      | cons y ys =>
        rw [List.forall_mem_cons] at hxs hys
        rw [List.map_cons, List.map_cons, List.cons.injEq] at h
        rw [lowerChar_inj hxs.1 hys.1 h.1, ih ys hxs.2 hys.2 h.2]
  constructor
  · intro h
    unfold lower at h
    exact String.toList_injective
      (hmap _ _ (hraised s) (hraised t) (String.ofList_injective h))
  · intro h
    rw [h]

/-- **Upper case changes nothing but the case of an ASCII text.** -/
theorem lower_upper {s : String} (h : ∀ c ∈ s.toList, c.toNat < 128) :
    lower (upper s) = lower s := by
  have hmap : ∀ cs : List Char, (∀ c ∈ cs, c.toNat < 128) →
      (cs.flatMap upperChar).map lowerChar = cs.map lowerChar := by
    intro cs hcs
    induction cs with
    | nil => rfl
    | cons c cs ih =>
      rw [List.forall_mem_cons] at hcs
      rw [List.flatMap_cons, List.map_append, map_lowerChar_upperChar hcs.1, ih hcs.2]
      rfl
  unfold lower upper
  rw [String.toList_ofList, hmap s.toList h]

end MockServer.Text
