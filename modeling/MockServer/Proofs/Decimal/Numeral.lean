/-
  MockServer.Proofs.Decimal.Numeral — decimal digits of a natural
  number.

  The digits written for a number read back as that number, and only
  zero is written with a leading zero.
-/
import MockServer.Decimal.Numeral

namespace MockServer.Decimal

theorem isDigit_of_mem_toDigits {n : Nat} {c : Char} (h : c ∈ Nat.toDigits 10 n) :
    c.isDigit = true :=
  Nat.isDigit_of_mem_toDigits (by decide) (by decide) h

theorem foldl_digitValue (ds : List Char) (acc : Nat) (h : ∀ c ∈ ds, c.isDigit = true) :
    ds.foldl (fun acc c => acc * 10 + digitValue c) acc = Nat.ofDigitChars 10 ds acc := by
  induction ds generalizing acc with
  | nil => rfl
  | cons c ds ih =>
    have hc : digitValue c = c.toNat - 48 := if_pos (h c List.mem_cons_self)
    rw [List.foldl_cons, ih _ (fun d hd => h d (List.mem_cons_of_mem _ hd)), Nat.ofDigitChars_cons,
      hc, Nat.mul_comm acc]
    rfl

/-- **The digits of a number read back as the number.** -/
theorem natOfDigits_toDigits (n : Nat) : natOfDigits (Nat.toDigits 10 n) = n := by
  unfold natOfDigits
  rw [foldl_digitValue _ _ (fun _ => isDigit_of_mem_toDigits), Nat.ofDigitChars_ten_toDigits]

/-- The digits of a positive number do not start with a zero. -/
theorem toDigits_eq_cons {n : Nat} (hn : 0 < n) :
    ∃ d ds, Nat.toDigits 10 n = d :: ds ∧ d ≠ '0' := by
  induction n using Nat.strongRecOn with
  | ind n ih =>
    rw [Nat.toDigits_eq_if (by decide)]
    by_cases hlt : n < 10
    · rw [if_pos hlt]
      refine ⟨_, [], rfl, ?_⟩
      intro hzero
      have hval := Nat.toNat_digitChar_sub_48_of_lt_ten hlt
      rw [hzero] at hval
      exact absurd hval (by show ¬ 0 = n; omega)
    · rw [if_neg hlt]
      obtain ⟨d, ds, heq, hd⟩ := ih (n / 10) (by omega) (by omega)
      exact ⟨d, ds ++ [Nat.digitChar (n % 10)], by rw [heq]; rfl, hd⟩

end MockServer.Decimal
