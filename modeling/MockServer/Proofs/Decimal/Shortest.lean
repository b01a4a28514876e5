/-
  MockServer.Proofs.Decimal.Shortest — the shortest digits round back.

  Digits are looked for on one decimal grid after the other until a
  neighbour of the value lies in the rounding interval.  With seventeen
  digits the grid is finer than the doubles are, so one of the two
  neighbours does, and below a power of two, where the interval is
  short on one side, it is the upper one.  Zeros at the end change
  nothing of the value.

  Main results:
    * `readsBack_iff` — the test is that for the rounding interval;
    * `onGrid_seventeen` — seventeen digits suffice;
    * `digits_within` — the digits of a double round back to it.
-/
import MockServer.Proofs.Decimal.Rounding

namespace MockServer.Decimal.Shortest

open Binary64

theorem power_pos (u : Int) : (0 : ℚ) < 10 ^ u := zpow_pos (by decide) u

/-! ## Powers of ten -/

/-- A quotient of naturals times a power of ten. -/
theorem withPower_spec (a : Nat) (k : Int) {b : Nat} (hb : 0 < b) :
    0 < (withPower a k b).2 ∧
      ((withPower a k b).1 : ℚ) / (withPower a k b).2 = a * 10 ^ k / b := by
  unfold withPower
  by_cases hk : 0 ≤ k
  · have hpow : (10 : ℚ) ^ k = (Nat.pow 10 k.toNat : Nat) := zpow_of_nonneg 10 hk
    rw [if_pos hk]
    exact ⟨hb, by rw [hpow, Nat.cast_mul]⟩
  · have hpow : (10 : ℚ) ^ k = ((Nat.pow 10 (-k).toNat : Nat) : ℚ)⁻¹ := zpow_of_neg 10 hk
    rw [if_neg hk]
    refine ⟨Nat.mul_pos hb (Nat.pow_pos (by decide)), ?_⟩
    rw [hpow, Nat.cast_mul, ← div_eq_mul_inv, div_div, mul_comm (b : ℚ)]

theorem lt_pow_width (n : Nat) : n < 10 ^ width n :=
  (Nat.length_toDigits_le_iff (by decide) Nat.length_toDigits_pos).mp (Nat.le_refl _)

theorem pow_width_le {n : Nat} (hn : 0 < n) : 10 ^ (width n - 1) ≤ n := by
  rcases Nat.eq_zero_or_pos (width n - 1) with hone | hmore
  · rw [hone]
    exact hn
  · rw [← Nat.not_lt, ← Nat.length_toDigits_le_iff (by decide) hmore]
    have hwidth : width n = (Nat.toDigits 10 n).length := rfl
    omega

theorem width_pos (n : Nat) : 0 < width n := Nat.length_toDigits_pos

/-- How many digits a scaled quotient has tells where the quotient begins. -/
theorem width_scaled {num den shift : Nat} {lead : Int} (hden : 0 < den)
    (hlead : lead = (width (num * Nat.pow 10 shift / den) : Int) - (shift + 1))
    (hsmall : 1 ≤ (num : ℚ) / den * 10 ^ shift) :
    (10 : ℚ) ^ lead ≤ num / den ∧ (num : ℚ) / den < 10 ^ (lead + 1) := by
  rw [Nat.pow_eq] at hlead
  have hden' : (0 : ℚ) < den := Nat.cast_pos.mpr hden
  have hscaled : (num : ℚ) / den * 10 ^ shift = ((num * 10 ^ shift : Nat) : ℚ) / den := by
    push_cast
    rw [div_mul_eq_mul_div]
  set whole := num * 10 ^ shift / den with hwhole
  have hpos : 0 < whole := by
    rw [hscaled, le_div_iff₀ hden', one_mul] at hsmall
    exact Nat.div_pos (Nat.cast_le.mp hsmall) hden
  have hlow : (whole : ℚ) ≤ num / den * 10 ^ shift := by
    rw [hscaled, le_div_iff₀ hden']
    exact_mod_cast Nat.div_mul_le_self (num * 10 ^ shift) den
  have hhigh : (num : ℚ) / den * 10 ^ shift < (whole + 1 : Nat) := by
    rw [hscaled, div_lt_iff₀ hden']
    exact_mod_cast Nat.lt_mul_of_div_lt (Nat.lt_succ_self whole) hden
  have hfirst : (10 : ℚ) ^ (width whole - 1) ≤ whole := by
    exact_mod_cast pow_width_le hpos
  have hlast : ((whole + 1 : Nat) : ℚ) ≤ 10 ^ width whole := by
    exact_mod_cast lt_pow_width whole
  have hshift : ∀ k : Nat, (10 : ℚ) ^ ((k : Int) - shift) = 10 ^ k / 10 ^ shift := by
    intro k
    rw [zpow_sub₀ (by decide), zpow_natCast, zpow_natCast]
  have hwidth := width_pos whole
  have hthis : lead = ((width whole - 1 : Nat) : Int) - shift := by omega
  have hnext : lead + 1 = ((width whole : Nat) : Int) - shift := by omega
  rw [hnext, hthis, hshift, hshift, div_le_iff₀ (by positivity), lt_div_iff₀ (by positivity)]
  exact ⟨hfirst.trans hlow, hhigh.trans_le hlast⟩

theorem leading_eq (num den : Nat) :
    leading num den = (width (num * Nat.pow 10 330 / den) : Int) - ((330 : Nat) + 1) := rfl

/-- The least unit of the doubles is not too small for `leading`. -/
theorem least_unit : (1 : ℚ) ≤ 2 ^ (-1074 : Int) * 10 ^ 330 := by
  have hnat : 2 ^ 1074 ≤ 10 ^ 330 := by decide +kernel
  rw [zpow_neg, zpow_ofNat, ← div_eq_inv_mul, le_div_iff₀ (by positivity), one_mul]
  exact_mod_cast hnat

/-- **The exponent of the first digit of a double.** -/
theorem leading_spec {x : Binary64} (hx : Canonical x) (hmant : 0 < x.mant) :
    (10 : ℚ) ^ leading x.ratio.1 x.ratio.2 ≤ x.mant * 2 ^ x.exp ∧
      (x.mant : ℚ) * 2 ^ x.exp < 10 ^ (leading x.ratio.1 x.ratio.2 + 1) := by
  have hsmall : 1 ≤ (x.ratio.1 : ℚ) / x.ratio.2 * 10 ^ 330 := by
    have hone : (1 : ℚ) ≤ x.mant := Nat.one_le_cast.mpr hmant
    have hunit := unit_mono hx.least
    have hprod : (2 : ℚ) ^ (-1074 : Int) ≤ x.mant * 2 ^ x.exp := by
      nlinarith [unit_pos x.exp]
    rw [ratio_eq_value]
    exact least_unit.trans (mul_le_mul_of_nonneg_right hprod (by positivity))
  rw [← ratio_eq_value]
  exact width_scaled x.ratio_pos (leading_eq _ _) hsmall

/-! ## Reading back -/

theorem interval_fst {x : Binary64} (hmant : 0 < x.mant) :
    ((interval x).1 : ℚ) = 4 * lowEnd x := by
  unfold lowEnd
  by_cases hedge : IsEdge x
  · have hlow : (interval x).1 = 4 * x.mant - 1 := if_pos hedge
    rw [if_pos hedge, hlow, Nat.cast_sub (by omega)]
    push_cast
    ring
  · have hlow : (interval x).1 = 4 * x.mant - 2 := if_neg hedge
    rw [if_neg hedge, hlow, Nat.cast_sub (by omega)]
    push_cast
    ring

theorem interval_snd (x : Binary64) : ((interval x).2 : ℚ) = 4 * (x.mant + 1 / 2) := by
  have hhigh : (interval x).2 = 4 * x.mant + 2 := rfl
  rw [hhigh]
  push_cast
  ring

/-- The test compares two products of naturals, the second in quarters of the unit of the double. -/
theorem readsBack_eq (x : Binary64) (d : Nat) (u : Int) :
    ∃ value unit : Nat, 0 < unit ∧ (value : ℚ) / unit = d * 10 ^ u / 2 ^ (x.exp - 2) ∧
      readsBack x d u =
        if x.mant % 2 = 0 then
          decide ((interval x).1 * unit ≤ value) && decide (value ≤ (interval x).2 * unit)
        else decide ((interval x).1 * unit < value) && decide (value < (interval x).2 * unit) := by
  obtain ⟨hpos, hpower⟩ := withPower_spec d u Nat.one_pos
  rw [Nat.cast_one, div_one] at hpower
  by_cases hexp : 0 ≤ x.exp - 2
  · have hpow : (2 : ℚ) ^ (x.exp - 2) = (Nat.pow 2 (x.exp - 2).natAbs : Nat) := by
      rw [show (x.exp - 2).natAbs = (x.exp - 2).toNat by omega]
      exact zpow_of_nonneg 2 hexp
    refine ⟨(withPower d u 1).1, (withPower d u 1).2 * Nat.pow 2 (x.exp - 2).natAbs,
      Nat.mul_pos hpos (Nat.two_pow_pos _), ?_, ?_⟩
    · rw [hpow, ← hpower, Nat.cast_mul, div_div]
    · unfold readsBack
      simp only [if_pos hexp]
  · have hpow : (2 : ℚ) ^ (x.exp - 2) = ((Nat.pow 2 (x.exp - 2).natAbs : Nat) : ℚ)⁻¹ := by
      rw [show (x.exp - 2).natAbs = (-(x.exp - 2)).toNat by omega]
      exact zpow_of_neg 2 hexp
    refine ⟨(withPower d u 1).1 * Nat.pow 2 (x.exp - 2).natAbs, (withPower d u 1).2, hpos, ?_, ?_⟩
    · rw [hpow, ← hpower, Nat.cast_mul, div_inv_eq_mul]
      exact mul_div_right_comm _ _ _
    · unfold readsBack
      simp only [if_neg hexp]

/-- **The test is that for the rounding interval.** -/
theorem readsBack_iff {x : Binary64} (hmant : 0 < x.mant) (d : Nat) (u : Int) :
    readsBack x d u = true ↔ Within x (d * 10 ^ u) := by
  obtain ⟨value, unit, hunit, hvalue, htest⟩ := readsBack_eq x d u
  have hunit' : (0 : ℚ) < unit := Nat.cast_pos.mpr hunit
  have hexp := unit_pos x.exp
  generalize (d : ℚ) * 10 ^ u = q at hvalue ⊢
  -- both sides of the comparisons are scaled by the same factor
  obtain ⟨s, hs, hright, hleft⟩ : ∃ s : ℚ, 0 < s ∧ (value : ℚ) = q * s ∧
      ∀ (k : Nat) (c : ℚ), (k : ℚ) = 4 * c → ((k * unit : Nat) : ℚ) = c * 2 ^ x.exp * s := by
    refine ⟨4 * unit / 2 ^ x.exp, by positivity, ?_, fun k c hk => ?_⟩
    · rw [zpow_sub₀ (by decide), div_eq_iff hunit'.ne'] at hvalue
      rw [hvalue]
      field_simp
      norm_num
    · rw [Nat.cast_mul, hk]
      field_simp
  have hlow := hleft _ _ (interval_fst hmant)
  have hhigh := hleft _ _ (interval_snd x)
  have hle : (interval x).1 * unit ≤ value ↔ lowEnd x * 2 ^ x.exp ≤ q := by
    rw [← Nat.cast_le (α := ℚ), hlow, hright, mul_le_mul_iff_left₀ hs]
  have hge : value ≤ (interval x).2 * unit ↔ q ≤ (x.mant + 1 / 2) * 2 ^ x.exp := by
    rw [← Nat.cast_le (α := ℚ), hhigh, hright, mul_le_mul_iff_left₀ hs]
  have hlt : (interval x).1 * unit < value ↔ lowEnd x * 2 ^ x.exp < q := by
    rw [← Nat.cast_lt (α := ℚ), hlow, hright, mul_lt_mul_iff_left₀ hs]
  have hgt : value < (interval x).2 * unit ↔ q < (x.mant + 1 / 2) * 2 ^ x.exp := by
    rw [← Nat.cast_lt (α := ℚ), hhigh, hright, mul_lt_mul_iff_left₀ hs]
  rw [htest]
  by_cases heven : x.mant % 2 = 0
  · rw [if_pos heven, Bool.and_eq_true, decide_eq_true_eq, decide_eq_true_eq, hle, hge]
    exact ⟨fun h => ⟨h.1, h.2, by omega⟩, fun h => ⟨h.low, h.high⟩⟩
  · rw [if_neg heven, Bool.and_eq_true, decide_eq_true_eq, decide_eq_true_eq, hlt, hgt]
    exact ⟨fun h => ⟨h.1.le, h.2.le, fun _ => h⟩, fun h => h.inside (by omega)⟩

/-! ## Grids -/

/-- **A value lies between its neighbours on a grid.** -/
theorem neighbours_spec {x : Binary64} (hmant : 0 < x.mant) (u : Int) :
    (neighbours x u).2.1 = (neighbours x u).1 + 1 ∧
      ((neighbours x u).1 : ℚ) * 10 ^ u ≤ x.mant * 2 ^ x.exp ∧
      (x.mant : ℚ) * 2 ^ x.exp < ((neighbours x u).1 + 1) * 10 ^ u := by
  have hpower := power_pos u
  have hden := x.ratio_pos
  have hvalue := ratio_eq_value x
  have hpos : (0 : ℚ) < x.mant * 2 ^ x.exp := mul_pos (Nat.cast_pos.mpr hmant) (unit_pos _)
  have hdef : (neighbours x u).1
      = (withPower x.ratio.2 u x.ratio.1).2 / (withPower x.ratio.2 u x.ratio.1).1 := rfl
  refine ⟨rfl, ?_⟩
  generalize (neighbours x u).1 = q at hdef ⊢
  generalize (x.mant : ℚ) * 2 ^ x.exp = v at hvalue hpos ⊢
  generalize x.ratio.1 = num at hdef hvalue
  generalize x.ratio.2 = den at hdef hvalue hden
  have hden' : (0 : ℚ) < den := Nat.cast_pos.mpr hden
  have hnum : 0 < num := by
    rw [← hvalue, div_pos_iff_of_pos_right hden'] at hpos
    exact Nat.cast_pos.mp hpos
  obtain ⟨hn, hscaled⟩ := withPower_spec den u hnum
  generalize (withPower den u num).2 = n at hdef hn hscaled
  generalize (withPower den u num).1 = d at hdef hscaled
  have hn' : (0 : ℚ) < n := Nat.cast_pos.mpr hn
  have hd' : (0 : ℚ) < d := by
    have hquotient : (0 : ℚ) < d / n := by
      rw [hscaled]
      positivity
    exact (div_pos_iff_of_pos_right hn').mp hquotient
  have hd : 0 < d := Nat.cast_pos.mp hd'
  have hmeasure : v = n / d * 10 ^ u := by
    have hnum' : (0 : ℚ) < num := Nat.cast_pos.mpr hnum
    rw [div_eq_div_iff hn'.ne' hnum'.ne'] at hscaled
    rw [← hvalue, div_mul_eq_mul_div, div_eq_div_iff hden'.ne' hd'.ne']
    linarith
  rw [hmeasure, mul_le_mul_iff_left₀ hpower, mul_lt_mul_iff_left₀ hpower, hdef]
  exact ⟨Nat.cast_div_le, (div_lt_iff₀ hd').mpr
    (by exact_mod_cast Nat.lt_mul_of_div_lt (Nat.lt_succ_self (n / d)) hd)⟩

/-- The digits found on a grid round back. -/
theorem readsBack_of_onGrid {x : Binary64} {lead : Int} {n : Nat} {d : Digits}
    (h : onGrid x lead n = some d) : readsBack x d.digits d.exp = true := by
  unfold onGrid at h
  dsimp only at h
  split at h
  · next hlow =>
    rw [Bool.and_eq_true] at hlow
    rw [← Option.some.inj h]
    exact hlow.1
  · split at h
    · next hhigh =>
      rw [← Option.some.inj h]
      exact hhigh
    · exact absurd h nofun

/-- A neighbour that rounds back is found. -/
theorem onGrid_isSome {x : Binary64} {lead : Int} {n : Nat}
    (h : let u := lead - n + 1
      readsBack x (neighbours x u).1 u = true ∨ readsBack x ((neighbours x u).1 + 1) u = true) :
    (onGrid x lead n).isSome = true := by
  have hnext : (neighbours x (lead - n + 1)).2.1 = (neighbours x (lead - n + 1)).1 + 1 := rfl
  unfold onGrid
  dsimp only at h ⊢
  rw [hnext]
  generalize neighbours x (lead - n + 1) = near at h ⊢
  cases hhigh : readsBack x (near.1 + 1) (lead - n + 1) with
  | true =>
    split
    · rfl
    · rfl
  | false =>
    rw [hhigh, or_iff_left Bool.false_ne_true] at h
    rw [h, Bool.not_false, Bool.or_true, Bool.and_self]
    rfl

/-- **Seventeen digits suffice.** -/
theorem onGrid_seventeen {x : Binary64} (hx : Canonical x) (hmant : 0 < x.mant) {lead : Int}
    (hlead : (10 : ℚ) ^ lead ≤ x.mant * 2 ^ x.exp) : (onGrid x lead 17).isSome = true := by
  apply onGrid_isSome
  intro u
  have hfits : (x.mant : ℚ) ≤ 2 ^ 53 - 1 := by
    have := hx.fits
    exact_mod_cast show (x.mant : ℤ) ≤ 2 ^ 53 - 1 by omega
  have hunit := unit_pos x.exp
  -- the grid has seventeen digits in front of the value, so it is finer than the doubles
  have hgrid : 10 ^ 16 * (10 : ℚ) ^ u ≤ x.mant * 2 ^ x.exp := by
    have hsplit : (10 : ℚ) ^ lead = 10 ^ 16 * 10 ^ u := by
      rw [← zpow_natCast, ← zpow_add₀ (by decide)]
      congr 1
      show lead = 16 + (lead - 17 + 1)
      omega
    rw [← hsplit]
    exact hlead
  have hpower := power_pos u
  obtain ⟨-, hlow, hhigh⟩ := neighbours_spec hmant u
  rw [readsBack_iff hmant, readsBack_iff hmant]
  push_cast
  generalize (neighbours x u).1 = near at hlow hhigh ⊢
  rcases Nat.lt_or_ge (2 ^ 52) x.mant with hmore | hless
  · have hend : lowEnd x = x.mant - 1 / 2 := by
      rw [lowEnd, if_neg fun hedge => Nat.ne_of_gt hmore hedge.1]
    rcases lt_or_ge (x.mant * 2 ^ x.exp - near * 10 ^ u : ℚ) (2 ^ x.exp / 2) with hnear | hfar
    · exact .inl (within_of_inside (by rw [hend]; linarith) (by linarith))
    · exact .inr (within_of_inside (by rw [hend]; linarith) (by nlinarith))
  · -- where the interval may be short below, the grid is fine enough for its upper half
    have hsmall : (x.mant : ℚ) ≤ 2 ^ 52 := by exact_mod_cast hless
    have hend := lowEnd_le_quarter x
    exact .inr (within_of_inside (by nlinarith) (by nlinarith))

/-! ## Digits -/

/-- **The search ends with digits that round back.** -/
theorem readsBack_search {x : Binary64} {lead : Int} (hlast : (onGrid x lead 17).isSome = true)
    {n fuel : Nat} (hn : n ≤ 17) (hfuel : 17 < n + fuel) :
    readsBack x (search x lead n fuel).digits (search x lead n fuel).exp = true := by
  induction fuel generalizing n with
  | zero => omega
  | succ fuel ih =>
    rw [search]
    cases hgrid : onGrid x lead n with
    | some d => exact readsBack_of_onGrid hgrid
    | none =>
      have hne : n ≠ 17 := by
        rintro rfl
        rw [hgrid] at hlast
        exact absurd hlast Bool.false_ne_true
      exact ih (by omega) (by omega)

/-- Zeros at the end change nothing of the value. -/
theorem trim_value (d : Digits) (fuel : Nat) :
    ((trim d fuel).digits : ℚ) * 10 ^ (trim d fuel).exp = d.digits * 10 ^ d.exp := by
  induction fuel generalizing d with
  | zero => rfl
  | succ fuel ih =>
    rw [trim]
    split
    · next hzero =>
      have htimes : (d.digits : ℚ) = 10 * (d.digits / 10 : Nat) := by
        exact_mod_cast show d.digits = 10 * (d.digits / 10) by omega
      rw [ih, htimes, zpow_add_one₀ (by decide)]
      ring
    · rfl

/-- **The digits of a double round back to it.** -/
theorem digits_within {x : Binary64} (hx : Canonical x) (hmant : 0 < x.mant) :
    Within x ((digits x).digits * 10 ^ (digits x).exp) := by
  have hlead := (leading_spec hx hmant).1
  have hdef : digits x = trim (search x (leading x.ratio.1 x.ratio.2) 1 17) 20 :=
    if_neg (Nat.pos_iff_ne_zero.mp hmant)
  rw [hdef, trim_value, ← readsBack_iff hmant]
  exact readsBack_search (onGrid_seventeen hx hmant hlead) (by decide) (by decide)

end MockServer.Decimal.Shortest
