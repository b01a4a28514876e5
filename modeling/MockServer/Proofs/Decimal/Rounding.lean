/-
  MockServer.Proofs.Decimal.Rounding — which quotients round to a
  double.

  A quotient is rounded on the grid on which its whole units fit 53
  bits.  That grid is unique, so the rounding of a quotient is known as
  soon as one grid is found for it.  The quotients that round to a
  double are those of its rounding interval: half a unit up and half a
  unit down, a quarter below a power of two, where the doubles are
  twice as dense; the ends belong to it for an even significand.

  Main definitions:
    * `Canonical` — the doubles as they are kept;
    * `IsGrid` — the unit in which a quotient is rounded;
    * `Within` — the rounding interval of a double.

  Main results:
    * `gridExp_isGrid` — the grid that is taken for a quotient;
    * `ofRatio?_of_within` — what rounds to a double;
    * `canonical_of_ofRatio?` — rounding gives doubles as they are kept;
    * `eq_of_value_eq` — a value other than zero is kept in one way.
-/
import MockServer.Decimal.Shortest
import MockServer.Proofs.Decimal.Exact

namespace MockServer.Decimal.Binary64

/-- A double as it is kept: a significand of 53 bits, or a shorter one with the least exponent. -/
structure Canonical (x : Binary64) : Prop where
  fits : x.mant < 2 ^ 53
  full : 2 ^ 52 ≤ x.mant ∨ x.exp = -1074
  least : -1074 ≤ x.exp
  greatest : x.exp ≤ 971

/-! ## Powers -/

theorem zpow_of_nonneg (b : Nat) {e : Int} (h : 0 ≤ e) :
    (b : ℚ) ^ e = (Nat.pow b e.toNat : Nat) := by
  rw [Nat.pow_eq, Nat.cast_pow, ← zpow_natCast, Int.toNat_of_nonneg h]

theorem zpow_of_neg (b : Nat) {e : Int} (h : ¬ 0 ≤ e) :
    (b : ℚ) ^ e = ((Nat.pow b (-e).toNat : Nat) : ℚ)⁻¹ := by
  rw [Nat.pow_eq, Nat.cast_pow, ← zpow_natCast, Int.toNat_of_nonneg (by omega), zpow_neg, inv_inv]

theorem unit_pos (e : Int) : (0 : ℚ) < 2 ^ e := zpow_pos (by decide) e

theorem unit_succ (e : Int) : (2 : ℚ) ^ (e + 1) = 2 * 2 ^ e := by
  rw [zpow_add_one₀ (by decide), mul_comm]

theorem unit_mono {e f : Int} (h : e ≤ f) : (2 : ℚ) ^ e ≤ 2 ^ f :=
  zpow_le_zpow_right₀ (by decide) h

/-! ## Grids -/

/-- Is `2^e` the unit in which a quotient is rounded? -/
structure IsGrid (q : ℚ) (e : Int) : Prop where
  least : -1074 ≤ e
  fits : q < 2 ^ 53 * 2 ^ e
  full : e = -1074 ∨ 2 ^ 52 * 2 ^ e ≤ q

theorem IsGrid.le {q : ℚ} {e f : Int} (he : IsGrid q e) (hf : IsGrid q f) : e ≤ f := by
  by_contra hlt
  have hfull : 2 ^ 52 * 2 ^ e ≤ q := he.full.resolve_left (by have := hf.least; omega)
  have hmono : 2 * (2 : ℚ) ^ f ≤ 2 ^ e := by
    rw [← unit_succ]
    exact unit_mono (by omega)
  have hfits := hf.fits
  linarith

/-- **A quotient is rounded on one grid.** -/
theorem IsGrid.unique {q : ℚ} {e f : Int} (he : IsGrid q e) (hf : IsGrid q f) : e = f :=
  le_antisymm (he.le hf) (hf.le he)

/-- A quotient in units of `2^e`. -/
theorem scale_spec (num : Nat) {den : Nat} (hden : 0 < den) (e : Int) :
    0 < (scale num den e).2 ∧
      ((scale num den e).1 : ℚ) / (scale num den e).2 = num / den / 2 ^ e := by
  unfold scale
  by_cases he : 0 ≤ e
  · have hpow : (2 : ℚ) ^ e = (Nat.pow 2 e.toNat : Nat) := zpow_of_nonneg 2 he
    rw [if_pos he]
    exact ⟨Nat.mul_pos hden (Nat.two_pow_pos _), by rw [hpow, Nat.cast_mul, div_div]⟩
  · have hpow : (2 : ℚ) ^ e = ((Nat.pow 2 (-e).toNat : Nat) : ℚ)⁻¹ := zpow_of_neg 2 he
    rw [if_neg he]
    refine ⟨hden, ?_⟩
    rw [hpow, div_inv_eq_mul, Nat.cast_mul]
    exact mul_div_right_comm _ _ _

theorem floor_lt_iff {n d k : Nat} (hd : 0 < d) : n / d < k ↔ (n : ℚ) / d < k := by
  rw [Nat.div_lt_iff_lt_mul hd, div_lt_iff₀ (Nat.cast_pos.mpr hd)]
  exact_mod_cast Iff.rfl

/-- The binary lengths of a quotient's parts tell its size up to one bit. -/
theorem quotient_bounds {num den : Nat} (hnum : 0 < num) (hden : 0 < den) :
    (2 : ℚ) ^ ((Nat.log2 num : Int) - Nat.log2 den - 1) < num / den ∧
      (num : ℚ) / den < 2 ^ ((Nat.log2 num : Int) - Nat.log2 den + 1) := by
  have hden' : (0 : ℚ) < den := Nat.cast_pos.mpr hden
  have hcast : ∀ k : Nat, (2 : ℚ) ^ (k : Int) = ((2 ^ k : Nat) : ℚ) := by
    intro k
    rw [zpow_natCast, Nat.cast_pow, Nat.cast_ofNat]
  have hnumLow : (2 : ℚ) ^ (Nat.log2 num : Int) ≤ num := by
    rw [hcast]
    exact Nat.cast_le.mpr (Nat.log2_self_le (Nat.pos_iff_ne_zero.mp hnum))
  have hnumHigh : (num : ℚ) < 2 * 2 ^ (Nat.log2 num : Int) := by
    rw [← unit_succ, ← Nat.cast_succ, hcast]
    exact Nat.cast_lt.mpr Nat.lt_log2_self
  have hdenLow : (2 : ℚ) ^ (Nat.log2 den : Int) ≤ den := by
    rw [hcast]
    exact Nat.cast_le.mpr (Nat.log2_self_le (Nat.pos_iff_ne_zero.mp hden))
  have hdenHigh : (den : ℚ) < 2 * 2 ^ (Nat.log2 den : Int) := by
    rw [← unit_succ, ← Nat.cast_succ, hcast]
    exact Nat.cast_lt.mpr Nat.lt_log2_self
  have ha := unit_pos (Nat.log2 num)
  have hb := unit_pos (Nat.log2 den)
  rw [unit_succ, zpow_sub_one₀ (by decide), zpow_sub₀ (by decide)]
  generalize (2 : ℚ) ^ (Nat.log2 num : Int) = a at *
  generalize (2 : ℚ) ^ (Nat.log2 den : Int) = b at *
  constructor
  · rw [lt_div_iff₀ hden', ← div_eq_mul_inv, div_div, div_mul_eq_mul_div, div_lt_iff₀ (by positivity)]
    nlinarith
  · rw [div_lt_iff₀ hden', mul_div_assoc', div_mul_eq_mul_div, lt_div_iff₀ hb]
    nlinarith

/-- **The grid that is taken for a quotient.** -/
theorem gridExp_isGrid {num den : Nat} (hnum : 0 < num) (hden : 0 < den) :
    IsGrid ((num : ℚ) / den) (gridExp num den) := by
  obtain ⟨hlow, hhigh⟩ := quotient_bounds hnum hden
  set bits : Int := (Nat.log2 num : Int) - Nat.log2 den with hbits
  set guess : Int := max (-1074) (bits - 53) with hguess
  obtain ⟨hpos, hscale⟩ := scale_spec num hden guess
  have hunit := unit_pos guess
  have hdef : gridExp num den
      = if (scale num den guess).1 / (scale num den guess).2 < Nat.pow 2 53 then guess
        else guess + 1 := rfl
  have htest : (scale num den guess).1 / (scale num den guess).2 < Nat.pow 2 53 ↔
      (num : ℚ) / den < 2 ^ 53 * 2 ^ guess := by
    rw [floor_lt_iff hpos, hscale, div_lt_iff₀ hunit, Nat.pow_eq]
    norm_num
  rw [hdef]
  by_cases hfits : (num : ℚ) / den < 2 ^ 53 * 2 ^ guess
  · rw [if_pos (htest.mpr hfits)]
    refine ⟨le_max_left _ _, hfits, ?_⟩
    rcases le_total (bits - 53) (-1074) with hleast | hleast
    · exact .inl (max_eq_left hleast)
    · right
      have hpow : (2 : ℚ) ^ (bits - 1) = 2 ^ 52 * 2 ^ guess := by
        rw [hguess, max_eq_right hleast, ← zpow_natCast, ← zpow_add₀ (by decide)]
        congr 1
        omega
      rw [← hpow]
      exact hlow.le
  · rw [if_neg fun h => hfits (htest.mp h)]
    have hpow : (2 : ℚ) ^ (bits + 1) ≤ 2 ^ 54 * 2 ^ guess := by
      rw [← zpow_natCast, ← zpow_add₀ (by decide)]
      have := le_max_right (-1074) (bits - 53)
      exact unit_mono (by push_cast; omega)
    have hleast : (-1074 : Int) ≤ guess := le_max_left _ _
    refine ⟨by omega, ?_, .inr ?_⟩
    · rw [unit_succ]
      linarith
    · rw [unit_succ]
      linarith

/-! ## The nearest natural -/

theorem le_roundEven (n d : Nat) : n / d ≤ roundEven n d := by
  unfold roundEven
  dsimp only
  split
  · exact Nat.le_succ _
  · exact Nat.le_refl _

theorem roundEven_le (n d : Nat) : roundEven n d ≤ n / d + 1 := by
  unfold roundEven
  dsimp only
  split
  · exact Nat.le_refl _
  · exact Nat.le_succ _

/-- **What is at most one half away is the nearest natural**, at one half if it is even. -/
theorem roundEven_eq {n d m : Nat} (hd : 0 < d) (hlow : (m : ℚ) - 1 / 2 ≤ n / d)
    (hhigh : (n : ℚ) / d ≤ m + 1 / 2)
    (hodd : m % 2 = 1 → (m : ℚ) - 1 / 2 < n / d ∧ (n : ℚ) / d < m + 1 / 2) :
    roundEven n d = m := by
  have hd' : (0 : ℚ) < d := Nat.cast_pos.mpr hd
  have hlow' : 2 * (d * m) ≤ 2 * n + d := by
    rw [le_div_iff₀ hd'] at hlow
    exact_mod_cast show (2 * (d * m) : ℚ) ≤ 2 * n + d by linarith
  have hhigh' : 2 * n ≤ 2 * (d * m) + d := by
    rw [div_le_iff₀ hd'] at hhigh
    exact_mod_cast show (2 * n : ℚ) ≤ 2 * (d * m) + d by linarith
  have hodd' : m % 2 = 1 → 2 * (d * m) < 2 * n + d ∧ 2 * n < 2 * (d * m) + d := by
    intro h
    obtain ⟨hl, hh⟩ := hodd h
    rw [lt_div_iff₀ hd'] at hl
    rw [div_lt_iff₀ hd'] at hh
    exact ⟨by exact_mod_cast show (2 * (d * m) : ℚ) < 2 * n + d by linarith,
      by exact_mod_cast show (2 * n : ℚ) < 2 * (d * m) + d by linarith⟩
  have hdiv := Nat.div_add_mod n d
  have hmod := Nat.mod_lt n hd
  unfold roundEven
  dsimp only
  generalize n / d = q at hdiv ⊢
  generalize n % d = r at hdiv hmod ⊢
  -- the whole part is the natural or the one before it
  have hle : q ≤ m := by
    by_contra hlt
    have := Nat.mul_le_mul_left d (show m + 1 ≤ q by omega)
    rw [Nat.mul_succ] at this
    omega
  have hge : m ≤ q + 1 := by
    by_contra hlt
    have := Nat.mul_le_mul_left d (show q + 2 ≤ m by omega)
    rw [Nat.mul_add] at this
    omega
  rcases (show m = q ∨ m = q + 1 by omega) with rfl | rfl
  · rw [if_neg (by omega)]
  · rw [Nat.mul_succ] at hlow' hodd'
    rw [if_pos (by omega)]

/-! ## Rounding intervals -/

/-- Does a double begin a range in which the doubles are half as dense as below? -/
def IsEdge (x : Binary64) : Prop := x.mant = 2 ^ 52 ∧ -1074 < x.exp

instance (x : Binary64) : Decidable (IsEdge x) := inferInstanceAs (Decidable (_ ∧ _))

/-- The lower end of the rounding interval of a double, in its units. -/
def lowEnd (x : Binary64) : ℚ := x.mant - if IsEdge x then 1 / 4 else 1 / 2

/-- Is a quotient in the rounding interval of a double?  The ends belong to it for an even
significand. -/
structure Within (x : Binary64) (q : ℚ) : Prop where
  low : lowEnd x * 2 ^ x.exp ≤ q
  high : q ≤ (x.mant + 1 / 2) * 2 ^ x.exp
  inside : x.mant % 2 = 1 → lowEnd x * 2 ^ x.exp < q ∧ q < (x.mant + 1 / 2) * 2 ^ x.exp

theorem within_of_inside {x : Binary64} {q : ℚ} (hlow : lowEnd x * 2 ^ x.exp < q)
    (hhigh : q < (x.mant + 1 / 2) * 2 ^ x.exp) : Within x q :=
  ⟨hlow.le, hhigh.le, fun _ => ⟨hlow, hhigh⟩⟩

theorem half_le_lowEnd (x : Binary64) : (x.mant : ℚ) - 1 / 2 ≤ lowEnd x := by
  unfold lowEnd
  split <;> linarith

theorem lowEnd_le_quarter (x : Binary64) : lowEnd x ≤ x.mant - 1 / 4 := by
  unfold lowEnd
  split <;> linarith

/-- A double is in its own interval. -/
theorem within_self (x : Binary64) : Within x (x.mant * 2 ^ x.exp) := by
  have hunit := unit_pos x.exp
  have hend := lowEnd_le_quarter x
  exact within_of_inside (mul_lt_mul_of_pos_right (by linarith) hunit)
    (mul_lt_mul_of_pos_right (by linarith) hunit)

theorem Within.pos {x : Binary64} {q : ℚ} (h : Within x q) (hmant : 0 < x.mant) : 0 < q := by
  have hlow := half_le_lowEnd x
  have hone : (1 : ℚ) ≤ x.mant := Nat.one_le_cast.mpr hmant
  exact lt_of_lt_of_le (mul_pos (by linarith) (unit_pos x.exp)) h.low

/-- What is rounded, by the grid it is rounded on. -/
theorem ofRatio?_of_isGrid {num den : Nat} (hnum : 0 < num) (hden : 0 < den) {e : Int}
    (he : IsGrid ((num : ℚ) / den) e) (neg : Bool) :
    ∃ n d : Nat, 0 < d ∧ (n : ℚ) / d = num / den / 2 ^ e ∧
      ofRatio? neg num den =
        if roundEven n d = 2 ^ 53 then
          if 971 < e + 1 then none else some ⟨neg, 2 ^ 52, e + 1⟩
        else if 971 < e then none else some ⟨neg, roundEven n d, e⟩ := by
  obtain ⟨hpos, hscale⟩ := scale_spec num hden e
  refine ⟨_, _, hpos, hscale, ?_⟩
  unfold ofRatio?
  rw [if_neg (Nat.pos_iff_ne_zero.mp hnum), (gridExp_isGrid hnum hden).unique he]
  dsimp only
  generalize roundEven (scale num den e).1 (scale num den e).2 = m
  by_cases hm : m = 2 ^ 53
  · subst hm
    rfl
  · simp only [Nat.pow_eq, if_neg hm]

/-- **A quotient in the rounding interval of a double rounds to the double.** -/
theorem ofRatio?_of_within {x : Binary64} (hx : Canonical x) (hmant : 0 < x.mant) {num den : Nat}
    (hden : 0 < den) (h : Within x ((num : ℚ) / den)) : ofRatio? x.neg num den = some x := by
  have hpos := h.pos hmant
  have hnum : 0 < num := by
    rw [div_pos_iff_of_pos_right (Nat.cast_pos.mpr hden)] at hpos
    exact Nat.cast_pos.mp hpos
  have hunit := unit_pos x.exp
  have hfits : (x.mant : ℚ) ≤ 2 ^ 53 - 1 := by
    have := hx.fits
    exact_mod_cast show (x.mant : ℤ) ≤ 2 ^ 53 - 1 by omega
  obtain ⟨hlow, hhigh, hinside⟩ := h
  have hgreatest := hx.greatest
  have hleast := hx.least
  by_cases hbelow : IsEdge x ∧ (num : ℚ) / den < 2 ^ 52 * 2 ^ x.exp
  · -- below the edge the grid is finer, and the double is reached by rounding up
    obtain ⟨hedge, hbelow⟩ := hbelow
    have hend : lowEnd x = 2 ^ 52 - 1 / 4 := by
      rw [lowEnd, if_pos hedge, hedge.1]
      norm_num
    have hhalf : (2 : ℚ) ^ x.exp = 2 * 2 ^ (x.exp - 1) := by
      rw [← unit_succ, Int.sub_add_cancel]
    rw [hend] at hlow
    rw [hhalf] at hlow hbelow
    have hunit' := unit_pos (x.exp - 1)
    have hexp : -1074 < x.exp := hedge.2
    have hgrid : IsGrid ((num : ℚ) / den) (x.exp - 1) :=
      ⟨by omega, by linarith, .inr (by linarith)⟩
    obtain ⟨n, d, hd, hquotient, hround⟩ := ofRatio?_of_isGrid hnum hden hgrid x.neg
    have hmant' : roundEven n d = 2 ^ 53 := by
      refine roundEven_eq hd ?_ ?_ (by norm_num)
      · rw [hquotient, le_div_iff₀ hunit']
        push_cast
        linarith
      · rw [hquotient, div_le_iff₀ hunit']
        push_cast
        linarith
    rw [hround, if_pos hmant', Int.sub_add_cancel, if_neg (by omega), ← hedge.1]
  · have hgrid : IsGrid ((num : ℚ) / den) x.exp := by
      refine ⟨hleast, by nlinarith, ?_⟩
      rcases hx.full with hfull | hexp
      · by_cases hedge : IsEdge x
        · exact .inr (not_lt.mp fun hlt => hbelow ⟨hedge, hlt⟩)
        · rw [IsEdge, not_and_or] at hedge
          rcases hedge with hne | hexp
          · have hmore : (2 : ℚ) ^ 52 + 1 ≤ x.mant := by
              exact_mod_cast show 2 ^ 52 + 1 ≤ x.mant by omega
            have hend := half_le_lowEnd x
            exact .inr (by nlinarith)
          · exact .inl (by omega)
      · exact .inl hexp
    obtain ⟨n, d, hd, hquotient, hround⟩ := ofRatio?_of_isGrid hnum hden hgrid x.neg
    have hend := half_le_lowEnd x
    have hmant' : roundEven n d = x.mant := by
      refine roundEven_eq hd ?_ ?_ fun hodd => ?_
      · rw [hquotient, le_div_iff₀ hunit]
        nlinarith
      · rw [hquotient, div_le_iff₀ hunit]
        exact hhigh
      · obtain ⟨hl, hh⟩ := hinside hodd
        rw [hquotient, lt_div_iff₀ hunit, div_lt_iff₀ hunit]
        exact ⟨by nlinarith, hh⟩
    have hne : x.mant ≠ 2 ^ 53 := Nat.ne_of_lt hx.fits
    rw [hround, hmant', if_neg hne, if_neg (by omega)]

/-! ## Doubles as they are kept -/

theorem canonical_zero (neg : Bool) : Canonical ⟨neg, 0, -1074⟩ :=
  ⟨Nat.two_pow_pos 53, .inr rfl, le_refl _, show (-1074 : Int) ≤ 971 by decide⟩

/-- **What comes of rounding is a double as it is kept**, with the sign that was given and on the
grid of the quotient or the next one. -/
theorem canonical_of_ofRatio? {neg : Bool} {num den : Nat} (hden : 0 < den) {x : Binary64}
    (h : ofRatio? neg num den = some x) :
    Canonical x ∧ x.neg = neg ∧ (0 < num → gridExp num den ≤ x.exp) := by
  rcases Nat.eq_zero_or_pos num with rfl | hnum
  · have hzero : ofRatio? neg 0 den = some ⟨neg, 0, -1074⟩ := if_pos rfl
    rw [hzero] at h
    obtain rfl := Option.some.inj h
    exact ⟨canonical_zero neg, rfl, fun hpos => absurd hpos (Nat.lt_irrefl 0)⟩
  have hgrid := gridExp_isGrid hnum hden
  generalize gridExp num den = e at hgrid ⊢
  have hunit := unit_pos e
  have hleast := hgrid.least
  obtain ⟨n, d, hd, hquotient, hround⟩ := ofRatio?_of_isGrid hnum hden hgrid neg
  rw [hround] at h
  by_cases hcarry : roundEven n d = 2 ^ 53
  · rw [if_pos hcarry] at h
    by_cases hbig : 971 < e + 1
    · rw [if_pos hbig] at h
      exact absurd h nofun
    · rw [if_neg hbig] at h
      obtain rfl := Option.some.inj h
      exact ⟨⟨show 2 ^ 52 < 2 ^ 53 by decide, .inl (le_refl _), show -1074 ≤ e + 1 by omega,
        show e + 1 ≤ 971 by omega⟩, rfl, fun _ => show e ≤ e + 1 by omega⟩
  · rw [if_neg hcarry] at h
    by_cases hbig : 971 < e
    · rw [if_pos hbig] at h
      exact absurd h nofun
    · rw [if_neg hbig] at h
      obtain rfl := Option.some.inj h
      have hfloor : n / d < 2 ^ 53 := by
        rw [floor_lt_iff hd, hquotient, div_lt_iff₀ hunit]
        push_cast
        exact hgrid.fits
      have hupper := roundEven_le n d
      refine ⟨⟨show roundEven n d < 2 ^ 53 by omega, hgrid.full.symm.imp_left fun hfull => ?_,
        hleast, show e ≤ 971 by omega⟩, rfl, fun _ => le_refl e⟩
      have hwhole : ¬ n / d < 2 ^ 52 := by
        rw [floor_lt_iff hd, hquotient, div_lt_iff₀ hunit, not_lt]
        push_cast
        exact hfull
      exact le_trans (Nat.not_lt.mp hwhole) (le_roundEven n d)

/-- An integer taken as a double is one as it is kept. -/
theorem canonical_ofInt (n : Int) : Canonical (ofInt n) := by
  unfold ofInt
  cases h : ofRatio? (n < 0) n.natAbs 1 with
  | none => exact canonical_zero false
  | some x => exact (canonical_of_ofRatio? Nat.one_pos h).1

/-- A double lies on its own grid. -/
theorem Canonical.isGrid {x : Binary64} (hx : Canonical x) : IsGrid (x.mant * 2 ^ x.exp) x.exp := by
  have hunit := unit_pos x.exp
  refine ⟨hx.least, ?_, hx.full.symm.imp_right fun hfull => ?_⟩
  · exact mul_lt_mul_of_pos_right (by exact_mod_cast hx.fits) hunit
  · exact mul_le_mul_of_nonneg_right (by exact_mod_cast hfull) hunit.le

theorem abs_value (x : Binary64) : |x.value| = x.mant * 2 ^ x.exp := by
  have hnonneg : (0 : ℚ) ≤ x.mant * 2 ^ x.exp :=
    mul_nonneg (Nat.cast_nonneg _) (unit_pos _).le
  unfold value
  rw [abs_mul, abs_of_nonneg hnonneg]
  split <;> simp

theorem value_lt_zero_iff {x : Binary64} (hmant : 0 < x.mant) : x.value < 0 ↔ x.neg = true := by
  have hpos : (0 : ℚ) < x.mant * 2 ^ x.exp := mul_pos (Nat.cast_pos.mpr hmant) (unit_pos _)
  unfold value
  cases x.neg with
  | true => simpa using hpos
  | false => simpa using hpos.le

theorem value_eq_zero_iff (x : Binary64) : x.value = 0 ↔ x.mant = 0 := by
  rw [← abs_eq_zero, abs_value, mul_eq_zero, or_iff_left (unit_pos _).ne', Nat.cast_eq_zero]

/-- **A value other than zero is kept in one way.** -/
theorem eq_of_value_eq {x y : Binary64} (hx : Canonical x) (hy : Canonical y)
    (h : x.value = y.value) (hne : x.value ≠ 0) : x = y := by
  have hxmant : 0 < x.mant := Nat.pos_of_ne_zero fun h0 => hne ((value_eq_zero_iff x).mpr h0)
  have hymant : 0 < y.mant :=
    Nat.pos_of_ne_zero fun h0 => hne (h.trans ((value_eq_zero_iff y).mpr h0))
  have habs : (x.mant : ℚ) * 2 ^ x.exp = y.mant * 2 ^ y.exp := by
    rw [← abs_value, ← abs_value, h]
  have hexp : x.exp = y.exp := hx.isGrid.unique (habs ▸ hy.isGrid)
  have hmant : x.mant = y.mant := by
    rw [hexp] at habs
    exact_mod_cast mul_right_cancel₀ (unit_pos y.exp).ne' habs
  have hneg : x.neg = y.neg := by
    rw [Bool.eq_iff_iff, ← value_lt_zero_iff hxmant, ← value_lt_zero_iff hymant, h]
  calc x = ⟨x.neg, x.mant, x.exp⟩ := rfl
    _ = y := by rw [hneg, hmant, hexp]

/-! ## Integers -/

/-- An integer beyond `2^53` is not rounded to less. -/
theorem le_abs_value_ofInt {n : Int} (hlow : 2 ^ 53 ≤ n.natAbs) (hhigh : n.natAbs < 2 ^ 64) :
    2 ^ 53 ≤ |(ofInt n).value| := by
  have hnum : 0 < n.natAbs := by omega
  have hgrid := gridExp_isGrid hnum Nat.one_pos
  rw [Nat.cast_one, div_one] at hgrid
  have hlow' : (2 : ℚ) ^ 53 ≤ n.natAbs := by exact_mod_cast hlow
  have hhigh' : (n.natAbs : ℚ) < 2 ^ 64 := by exact_mod_cast hhigh
  -- the grid has units of two at least, and is far from the largest
  have hpos : 0 < gridExp n.natAbs 1 := by
    by_contra hle
    have hunit : (2 : ℚ) ^ gridExp n.natAbs 1 ≤ 2 ^ (0 : Int) := unit_mono (by omega)
    have hfits := hgrid.fits
    rw [zpow_zero] at hunit
    linarith
  have hbound : gridExp n.natAbs 1 < 12 := by
    by_contra hge
    have hunit : (2 : ℚ) ^ (12 : Int) ≤ 2 ^ gridExp n.natAbs 1 := unit_mono (by omega)
    have hfull := hgrid.full.resolve_left (by omega)
    rw [zpow_ofNat] at hunit
    linarith
  obtain ⟨x, hx⟩ : ∃ x, ofRatio? (n < 0) n.natAbs 1 = some x := by
    obtain ⟨m, d, hd, -, hround⟩ := ofRatio?_of_isGrid hnum Nat.one_pos (gridExp_isGrid hnum
      Nat.one_pos) (n < 0)
    have hfits : ¬ 971 < gridExp n.natAbs 1 := by omega
    have hnext : ¬ 971 < gridExp n.natAbs 1 + 1 := by omega
    rw [hround, if_neg hfits, if_neg hnext]
    split
    · exact ⟨_, rfl⟩
    · exact ⟨_, rfl⟩
  obtain ⟨hcanonical, -, hexp⟩ := canonical_of_ofRatio? Nat.one_pos hx
  have hexp' := hexp hnum
  have hmant : (2 : ℚ) ^ 52 ≤ x.mant := by
    exact_mod_cast hcanonical.full.resolve_right (by omega)
  have hunit : (2 : ℚ) ^ (1 : Int) ≤ 2 ^ x.exp := unit_mono (by omega)
  have hvalue : ofInt n = x := by
    unfold ofInt
    rw [hx, Option.getD_some]
  rw [hvalue, abs_value]
  calc (2 : ℚ) ^ 53 = 2 ^ 52 * 2 ^ (1 : Int) := by norm_num
    _ ≤ (x.mant : ℚ) * 2 ^ x.exp := mul_le_mul hmant hunit (unit_pos _).le (Nat.cast_nonneg _)

/-- **An integer of magnitude below `2^53` has a value of its own**, also among the integers of 64
bits that are no doubles. -/
theorem value_ofInt_eq_iff {m n : Int} (hm : m.natAbs < 2 ^ 53) (hn : n.natAbs < 2 ^ 64) :
    (ofInt m).value = (ofInt n).value ↔ m = n := by
  refine ⟨fun h => ?_, fun h => h ▸ rfl⟩
  rw [value_ofInt hm.le] at h
  rcases Nat.lt_or_ge n.natAbs (2 ^ 53) with hsmall | hlarge
  · rw [value_ofInt hsmall.le] at h
    exact Int.cast_inj.mp h
  · have hvalue := le_abs_value_ofInt hlarge hn
    have hmag : |(m : ℚ)| < 2 ^ 53 := by
      rw [← Int.cast_abs, ← Nat.cast_natAbs]
      exact_mod_cast hm
    rw [← h] at hvalue
    exact absurd hmag (not_lt.mpr hvalue)

end MockServer.Decimal.Binary64
