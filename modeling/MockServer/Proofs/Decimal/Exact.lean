/-
  MockServer.Proofs.Decimal.Exact — the integers that are doubles.

  Up to `2^53` every integer is a double, so nothing is rounded there:
  an integer taken as a double and viewed as an integer again is the
  same integer.

  Main definition:
    * `value` — the value of a double as a rational number.

  Main results:
    * `ofRatio?_one` — a magnitude of at most 53 bits keeps all its bits;
    * `toInt?_ofInt` — an integer of magnitude at most `2^53` comes back;
    * `toInt?_eq_some_iff` — the integer view is the value.
-/
import Mathlib
import MockServer.Decimal.Binary64

namespace MockServer.Decimal.Binary64

/-! ## The grid of an integer -/

theorem scale_neg (num k : Nat) : scale num 1 (-(k : Int)) = (num * 2 ^ k, 1) := by
  unfold scale
  by_cases hk : k = 0
  · subst hk
    simp
  · rw [if_neg (by omega)]
    have htoNat : (-(-(k : Int))).toNat = k := by omega
    rw [htoNat]
    rfl

theorem roundEven_one (n : Nat) : roundEven n 1 = n := by
  unfold roundEven
  have hmod : n % 1 = 0 := Nat.mod_one n
  simp only [Nat.div_one, hmod]
  exact if_neg (by omega)

/-- The grid of a magnitude of `l + 1` bits makes it 53 bits long. -/
theorem gridExp_one {m l : Nat} (hlow : 2 ^ l ≤ m) (hhigh : m < 2 ^ (l + 1)) (hl : l ≤ 52) :
    gridExp m 1 = -((52 - l : Nat) : Int) := by
  have hpos : m ≠ 0 := by
    have := Nat.two_pow_pos l
    omega
  have hlog : Nat.log2 m = l := (Nat.log2_eq_iff hpos).mpr ⟨hlow, hhigh⟩
  -- the guess takes one bit too many, and the quotient shows it
  have hguess : max (-1074 : Int) ((Nat.log2 m : Int) - (Nat.log2 1 : Int) - 53)
      = -((53 - l : Nat) : Int) := by
    rw [hlog, show Nat.log2 1 = 0 from rfl]
    omega
  have hfull : ¬ m * 2 ^ (53 - l) < Nat.pow 2 53 := by
    rw [Nat.pow_eq]
    have hsplit : 2 ^ l * 2 ^ (53 - l) = 2 ^ 53 := by
      rw [← Nat.pow_add, Nat.add_sub_cancel' (by omega)]
    have := Nat.mul_le_mul_right (2 ^ (53 - l)) hlow
    omega
  unfold gridExp
  simp only [hguess, scale_neg, Nat.div_one, if_neg hfull]
  omega

/-- **A magnitude of at most 53 bits keeps all its bits.** -/
theorem ofRatio?_one (neg : Bool) {m l : Nat} (hlow : 2 ^ l ≤ m) (hhigh : m < 2 ^ (l + 1))
    (hl : l ≤ 52) :
    ofRatio? neg m 1 = some ⟨neg, m * 2 ^ (52 - l), -((52 - l : Nat) : Int)⟩ := by
  have hpos : m ≠ 0 := by
    have := Nat.two_pow_pos l
    omega
  have hfits : m * 2 ^ (52 - l) < Nat.pow 2 53 := by
    rw [Nat.pow_eq]
    have hsplit : 2 ^ (l + 1) * 2 ^ (52 - l) = 2 ^ 53 := by
      rw [← Nat.pow_add]
      congr 1
      omega
    have := Nat.mul_lt_mul_of_pos_right hhigh (Nat.two_pow_pos (52 - l))
    omega
  have hexp : ¬ (971 : Int) < -((52 - l : Nat) : Int) := by omega
  unfold ofRatio?
  simp only [if_neg hpos, gridExp_one hlow hhigh hl, scale_neg, roundEven_one,
    if_neg (Nat.ne_of_lt hfits), if_neg hexp]

/-! ## Back to an integer -/

theorem toInt?_shift (neg : Bool) (m k : Nat) :
    toInt? ⟨neg, m * 2 ^ k, -(k : Int)⟩ = some (if neg then -(m : Int) else m) := by
  have hratio : ratio ⟨neg, m * 2 ^ k, -(k : Int)⟩ = (m * 2 ^ k, 2 ^ k) := by
    unfold ratio
    by_cases hk : k = 0
    · subst hk
      simp
    · have htoNat : (-(-(k : Int))).toNat = k := by omega
      simp only [if_neg (show ¬ (0 : Int) ≤ -(k : Int) by omega), htoNat]
      rfl
  unfold toInt?
  simp only [hratio, Nat.mul_mod_left, if_true, Nat.mul_div_cancel m (Nat.two_pow_pos k)]

/-- **An integer of magnitude at most `2^53` is a double.** -/
theorem toInt?_ofInt {n : Int} (h : n.natAbs ≤ 2 ^ 53) : (ofInt n).toInt? = some n := by
  have hsign : (if decide (n < 0) = true then -(n.natAbs : Int) else n.natAbs) = n := by
    by_cases hneg : n < 0
    · simp only [hneg, decide_true, if_true]
      omega
    · simp only [hneg, decide_false, Bool.false_eq_true, if_false]
      omega
  by_cases hzero : n = 0
  · subst hzero
    decide +kernel
  by_cases hmax : n.natAbs = 2 ^ 53
  · -- the one magnitude of 54 bits; its last bit is zero
    have hcases : n = 2 ^ 53 ∨ n = -2 ^ 53 := by omega
    rcases hcases with rfl | rfl <;> decide +kernel
  · have hpos : n.natAbs ≠ 0 := by omega
    obtain ⟨hlow, hhigh⟩ := (Nat.log2_eq_iff hpos).mp rfl
    have hl : Nat.log2 n.natAbs ≤ 52 := by
      have hlt : n.natAbs < 2 ^ 53 := by omega
      have := (Nat.log2_lt hpos).mpr hlt
      omega
    unfold ofInt
    rw [ofRatio?_one _ hlow hhigh hl, Option.getD_some, toInt?_shift, hsign]

/-! ## The value -/

/-- The value of a double as a rational number; both zeros have the value zero. -/
def value (x : Binary64) : ℚ := (if x.neg then -1 else 1) * (x.mant * 2 ^ x.exp)

theorem ratio_pos (x : Binary64) : 0 < x.ratio.2 := by
  unfold ratio
  split
  · exact Nat.one_pos
  · exact Nat.two_pow_pos _

theorem ratio_eq_value (x : Binary64) : (x.ratio.1 : ℚ) / x.ratio.2 = x.mant * 2 ^ x.exp := by
  unfold ratio
  by_cases hexp : 0 ≤ x.exp
  · have hpow : (2 : ℚ) ^ x.exp = 2 ^ x.exp.toNat := by
      rw [← zpow_natCast, Int.toNat_of_nonneg hexp]
    simp [if_pos hexp, hpow]
  · have hpow : (2 : ℚ) ^ x.exp = (2 ^ (-x.exp).toNat)⁻¹ := by
      rw [← zpow_natCast, Int.toNat_of_nonneg (by omega), zpow_neg, inv_inv]
    simp [if_neg hexp, hpow, div_eq_mul_inv]

/-- A quotient of naturals is a natural exactly when nothing remains. -/
theorem div_eq_iff_mod_eq_zero {n d m : Nat} (hd : 0 < d) :
    (n : ℚ) / d = m ↔ n % d = 0 ∧ n / d = m := by
  have hd' : (d : ℚ) ≠ 0 := Nat.cast_ne_zero.mpr (Nat.pos_iff_ne_zero.mp hd)
  rw [div_eq_iff hd', ← Nat.cast_mul, Nat.cast_inj]
  constructor
  · rintro rfl
    exact ⟨Nat.mul_mod_left m d, Nat.mul_div_cancel m hd⟩
  · rintro ⟨hmod, rfl⟩
    exact (Nat.div_mul_cancel (Nat.dvd_of_mod_eq_zero hmod)).symm

/-- **A double is viewed as an integer exactly when it has an integer value.** -/
theorem toInt?_eq_some_iff (x : Binary64) (k : Int) : x.toInt? = some k ↔ x.value = k := by
  have hpos := ratio_pos x
  have hnonneg : (0 : ℚ) ≤ (x.ratio.1 : ℚ) / x.ratio.2 := by positivity
  have htoInt : x.toInt? = if x.ratio.1 % x.ratio.2 = 0 then
      some (if x.neg then -((x.ratio.1 / x.ratio.2 : Nat) : Int) else (x.ratio.1 / x.ratio.2 : Nat))
      else none := rfl
  unfold value
  rw [htoInt, ← ratio_eq_value]
  constructor
  · intro h
    by_cases hmod : x.ratio.1 % x.ratio.2 = 0
    · have hdiv := (div_eq_iff_mod_eq_zero hpos).mpr ⟨hmod, rfl⟩
      rw [if_pos hmod, Option.some_inj] at h
      rw [hdiv, ← h]
      generalize x.ratio.1 / x.ratio.2 = q
      split <;> simp
    · rw [if_neg hmod] at h
      exact absurd h nofun
  · intro h
    have hmag : (x.ratio.1 : ℚ) / x.ratio.2 = (k.natAbs : ℚ) := by
      rw [Nat.cast_natAbs, Int.cast_abs, ← h, abs_mul, abs_of_nonneg hnonneg]
      split <;> simp
    obtain ⟨hmod, hdiv⟩ := (div_eq_iff_mod_eq_zero hpos).mp hmag
    rw [hmag] at h
    rw [if_pos hmod, hdiv, Option.some_inj]
    -- the sign is kept, also with the magnitude zero
    have hsigned : (((if x.neg then -(k.natAbs : Int) else k.natAbs) : Int) : ℚ) = k := by
      rw [← h]
      split <;> simp
    exact Int.cast_inj.mp hsigned

/-- The integers of magnitude at most `2^53` are values of doubles. -/
theorem value_ofInt {n : Int} (h : n.natAbs ≤ 2 ^ 53) : (ofInt n).value = n :=
  (toInt?_eq_some_iff _ n).mp (toInt?_ofInt h)

end MockServer.Decimal.Binary64
