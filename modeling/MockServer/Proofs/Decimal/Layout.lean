/-
  MockServer.Proofs.Decimal.Layout — what is written is read.

  A numeral is read as its digits and a power of ten, wherever the
  point stands and whether there is an exponent.  So the text of a
  double in any layout stands for its shortest digits, these are in its
  rounding interval, and reading the text gives the double again.

  Main definitions:
    * `Spells` — a text stands for a rational number.

  Main results:
    * `spells_positional`, `spells_scientific` — what the notations
      stand for;
    * `unsigned?_of_spells` — a text is read as the double it is within;
    * `read?_render` — the text of a double is read as the double.
-/
import MockServer.Decimal.Numeral
import MockServer.Proofs.Decimal.Numeral
import MockServer.Proofs.Decimal.Shortest
import MockServer.Proofs.Text.Split

namespace MockServer.Decimal

/-! ## Digits -/

/-- Are all characters digits? -/
def AllDigits (ds : List Char) : Prop := ∀ c ∈ ds, c.isDigit = true

theorem AllDigits.append {ds es : List Char} (hds : AllDigits ds) (hes : AllDigits es) :
    AllDigits (ds ++ es) :=
  List.forall_mem_append.mpr ⟨hds, hes⟩

theorem allDigits_zeros (n : Nat) : AllDigits (List.replicate n '0') := by
  intro c hc
  rw [List.eq_of_mem_replicate hc]
  rfl

theorem allDigits_zero : AllDigits ['0'] := allDigits_zeros 1

theorem allDigits_toDigits (n : Nat) : AllDigits (Nat.toDigits 10 n) :=
  fun _ => isDigit_of_mem_toDigits

theorem natOfDigits_append (ds es : List Char) :
    natOfDigits (ds ++ es) = natOfDigits ds * 10 ^ es.length + natOfDigits es := by
  induction es using List.reverseRecOn with
  | nil => simp [natOfDigits]
  | append_singleton es c ih =>
    have hlast : ∀ cs, natOfDigits (cs ++ [c]) = natOfDigits cs * 10 + digitValue c := by
      intro cs
      unfold natOfDigits
      rw [List.foldl_append]
      rfl
    rw [← List.append_assoc, hlast, hlast, ih, List.length_append, List.length_singleton,
      Nat.pow_succ]
    ring

theorem natOfDigits_zeros (n : Nat) : natOfDigits (List.replicate n '0') = 0 := by
  induction n with
  | zero => rfl
  | succ n ih =>
    rw [List.replicate_succ', natOfDigits_append, ih, Nat.zero_mul]
    rfl

theorem natOfDigits_lt {ds : List Char} (hds : AllDigits ds) :
    natOfDigits ds < 10 ^ ds.length := by
  induction ds using List.reverseRecOn with
  | nil => decide
  | append_singleton ds c ih =>
    have hdigit : natOfDigits [c] < 10 := by
      have hc : c.isDigit = true := hds c (List.mem_append_right _ (List.mem_singleton_self c))
      have hvalue : natOfDigits [c] = c.toNat - 48 := by
        unfold natOfDigits digitValue
        rw [List.foldl_cons, if_pos hc, Nat.zero_mul, Nat.zero_add]
        rfl
      rw [Char.isDigit, Bool.and_eq_true, decide_eq_true_eq, decide_eq_true_eq] at hc
      have hnine : c.toNat ≤ 57 := hc.2
      omega
    have hrest := ih fun d hd => hds d (List.mem_append_left _ hd)
    rw [natOfDigits_append, List.length_append, List.length_singleton, Nat.pow_succ]
    omega

/-! ## Reading numerals -/

/-- What digits with a power of ten are read as. -/
def rounded (neg : Bool) (ds : List Char) (exp : Int) : Real64 :=
  match ofScientific? neg (natOfDigits ds) ds.length exp with
  | some x => .finite x
  | none => .infinite neg

/-- The end of a numeral: nothing, or an exponent. -/
inductive Ending : List Char → Int → Prop where
  | none : Ending [] 0
  | exponent {cs : List Char} {e : Int} : Numeral.exponent? cs = some e → Ending ('e' :: cs) e

theorem Ending.head {cs : List Char} {e : Int} (h : Ending cs e) :
    ∀ c ∈ cs.head?, c.isDigit = false := by
  cases h with
  | none => exact fun c hc => absurd hc nofun
  | exponent =>
    rintro c ⟨⟩
    rfl

/-- A numeral without a point. -/
theorem unsigned?_whole {whole rest : List Char} {e : Int} (hwhole : AllDigits whole)
    (hne : whole ≠ []) (hrest : Ending rest e) (neg : Bool) :
    Numeral.unsigned? neg (whole ++ rest) = some (rounded neg whole e) := by
  obtain ⟨htake, hdrop⟩ := Text.takeWhile_append_stop hwhole hrest.head
  have hempty : whole.isEmpty = false := by rwa [List.isEmpty_eq_false_iff]
  unfold Numeral.unsigned?
  simp only [htake, hdrop]
  cases hrest with
  | none =>
    simp only [hempty, List.isEmpty_nil, Bool.and_true, Bool.false_eq_true, if_false,
      List.append_nil, List.length_nil, Nat.cast_zero, sub_self]
    rfl
  | exponent hexp =>
    simp only [hempty, List.cons.injEq, Char.reduceEq, false_and, imp_self, implies_true,
      List.isEmpty_nil, Bool.and_true, Bool.false_eq_true, ↓reduceIte, or_false, hexp,
      List.append_nil, List.length_nil, Nat.cast_zero, sub_zero, Option.bind_some]
    rfl

/-- A numeral with a point. -/
theorem unsigned?_point {whole frac rest : List Char} {e : Int} (hwhole : AllDigits whole)
    (hne : whole ≠ []) (hfrac : AllDigits frac) (hrest : Ending rest e) (neg : Bool) :
    Numeral.unsigned? neg (whole ++ '.' :: (frac ++ rest))
      = some (rounded neg (whole ++ frac) (e - frac.length)) := by
  have hpoint : ∀ c ∈ ('.' :: (frac ++ rest)).head?, c.isDigit = false := by
    rintro c ⟨⟩
    rfl
  obtain ⟨htake, hdrop⟩ := Text.takeWhile_append_stop hwhole hpoint
  obtain ⟨htake', hdrop'⟩ := Text.takeWhile_append_stop hfrac hrest.head
  have hempty : whole.isEmpty = false := by rwa [List.isEmpty_eq_false_iff]
  unfold Numeral.unsigned?
  simp only [htake, hdrop, htake', hdrop']
  cases hrest with
  | none =>
    simp only [hempty, Bool.false_and, Bool.false_eq_true, if_false]
    rfl
  | exponent hexp =>
    simp only [hempty, Bool.false_and, Bool.false_eq_true, ↓reduceIte, Char.reduceEq, or_false,
      hexp, Option.bind_some]
    rfl

/-- An exponent as it is written. -/
theorem exponent?_toDigits (k : Int) :
    Numeral.exponent? ((if k < 0 then '-' else '+') :: Nat.toDigits 10 k.natAbs) = some k := by
  have hempty : (Nat.toDigits 10 k.natAbs).isEmpty = false := by
    rw [List.isEmpty_eq_false_iff]
    exact Nat.toDigits_ne_nil
  have hall : (Nat.toDigits 10 k.natAbs).all Char.isDigit = true :=
    List.all_eq_true.mpr (allDigits_toDigits _)
  unfold Numeral.exponent?
  by_cases hk : k < 0
  · rw [if_pos hk]
    simp only [hempty, hall, natOfDigits_toDigits]
    show some (-(k.natAbs : Int)) = some k
    congr 1
    omega
  · rw [if_neg hk]
    simp only [hempty, hall, natOfDigits_toDigits]
    show some (k.natAbs : Int) = some k
    congr 1
    omega

/-! ## What texts stand for -/

/-- Does a text stand for a rational number?  It begins with a digit, and its digits with their
power of ten come to the number. -/
structure Spells (cs : List Char) (q : ℚ) : Prop where
  begins : ∃ c rest, cs = c :: rest ∧ c.isDigit = true
  reads : ∃ ds e, AllDigits ds ∧ (natOfDigits ds : ℚ) * 10 ^ e = q ∧
    ∀ neg, Numeral.unsigned? neg cs = some (rounded neg ds e)

theorem begins_of_digits {ds rest : List Char} (hds : AllDigits ds) (hne : ds ≠ []) :
    ∃ c more, ds ++ rest = c :: more ∧ c.isDigit = true := by
  obtain ⟨d, ds, rfl⟩ := List.exists_cons_of_ne_nil hne
  exact ⟨d, ds ++ rest, rfl, hds d List.mem_cons_self⟩

/-- Digits alone stand for their number. -/
theorem spells_digits {ds : List Char} (hds : AllDigits ds) (hne : ds ≠ []) :
    Spells ds (natOfDigits ds) := by
  have hwhole := unsigned?_whole hds hne .none
  rw [List.append_nil] at hwhole
  exact ⟨List.append_nil ds ▸ begins_of_digits hds hne, ds, 0, hds, by simp, hwhole⟩

/-- Digits with a point in them, or in front of them. -/
theorem spells_point {whole frac rest : List Char} {e : Int} (hwhole : AllDigits whole)
    (hne : whole ≠ []) (hfrac : AllDigits frac) (hrest : Ending rest e) :
    Spells (whole ++ '.' :: (frac ++ rest))
      (natOfDigits (whole ++ frac) * 10 ^ (e - frac.length)) :=
  ⟨begins_of_digits hwhole hne, whole ++ frac, e - frac.length, hwhole.append hfrac, rfl,
    unsigned?_point hwhole hne hfrac hrest⟩

/-- **Positional notation** stands for the digits with the point behind the given one. -/
theorem spells_positional (fraction : Bool) {ds : List Char} (hds : AllDigits ds) (hne : ds ≠ [])
    (point : Int) :
    Spells (Layout.positional fraction ds point) (natOfDigits ds * 10 ^ (point - ds.length)) := by
  unfold Layout.positional
  by_cases hpoint : point ≤ 0
  · -- zeros between the point and the digits
    rw [if_pos hpoint]
    have hspells := spells_point allDigits_zero (List.cons_ne_nil '0' [])
      ((allDigits_zeros (-point).toNat).append hds) .none
    have hvalue : natOfDigits (['0'] ++ (List.replicate (-point).toNat '0' ++ ds))
        = natOfDigits ds := by
      rw [← List.append_assoc, List.singleton_append, ← List.replicate_succ, natOfDigits_append,
        natOfDigits_zeros, Nat.zero_mul, Nat.zero_add]
    have hexp : (0 : Int) - (List.replicate (-point).toNat '0' ++ ds).length
        = point - ds.length := by
      rw [List.length_append, List.length_replicate]
      omega
    rw [hvalue, hexp, List.append_nil] at hspells
    exact hspells
  · rw [if_neg hpoint]
    dsimp only
    by_cases hlong : ds.length ≤ point.toNat
    · -- zeros between the digits and the point
      have hwhole := hds.append (allDigits_zeros (point.toNat - ds.length))
      have hne' : ds ++ List.replicate (point.toNat - ds.length) '0' ≠ [] :=
        List.append_ne_nil_of_left_ne_nil hne _
      have hexp : point - ds.length = ((point.toNat - ds.length : Nat) : Int) := by omega
      have hvalue : (natOfDigits (ds ++ List.replicate (point.toNat - ds.length) '0') : ℚ)
          = natOfDigits ds * 10 ^ (point - ds.length) := by
        rw [natOfDigits_append, natOfDigits_zeros, List.length_replicate, hexp, zpow_natCast]
        push_cast
        rw [add_zero]
      rw [if_pos hlong, ← hvalue]
      cases fraction with
      | false => exact (List.append_nil _).symm ▸ spells_digits hwhole hne'
      | true =>
        have hspells := spells_point hwhole hne' allDigits_zero .none
        have htenth : (natOfDigits (ds ++ List.replicate (point.toNat - ds.length) '0' ++ ['0']) : ℚ)
            * 10 ^ ((0 : Int) - (['0'] : List Char).length)
            = natOfDigits (ds ++ List.replicate (point.toNat - ds.length) '0') := by
          rw [natOfDigits_append _ ['0']]
          simp [natOfDigits, digitValue]
        rw [htenth] at hspells
        exact hspells
    · -- the point among the digits
      have hsplit := List.take_append_drop point.toNat ds
      have htake : AllDigits (ds.take point.toNat) := fun c hc => hds c (List.mem_of_mem_take hc)
      have hdrop : AllDigits (ds.drop point.toNat) := fun c hc => hds c (List.mem_of_mem_drop hc)
      have hne' : ds.take point.toNat ≠ [] := by
        rw [← List.length_pos_iff, List.length_take]
        omega
      have hspells := spells_point htake hne' hdrop .none
      have hexp : (0 : Int) - (ds.drop point.toNat).length = point - ds.length := by
        rw [List.length_drop]
        omega
      rw [hsplit, hexp, List.append_nil] at hspells
      rw [if_neg hlong]
      exact hspells

/-- **Scientific notation** stands for the digits with the point behind the first, times a power of
ten. -/
theorem spells_scientific {ds : List Char} (hds : AllDigits ds) (hne : ds ≠ []) (k : Int) :
    Spells (Layout.scientific ds k) (natOfDigits ds * 10 ^ (k + 1 - ds.length)) := by
  have hending := Ending.exponent (exponent?_toDigits k)
  obtain ⟨d, rest, rfl⟩ := List.exists_cons_of_ne_nil hne
  have hd : AllDigits [d] := List.forall_mem_singleton.mpr (hds d List.mem_cons_self)
  have hrest : AllDigits rest := fun c hc => hds c (List.mem_cons_of_mem d hc)
  cases rest with
  | nil =>
    refine ⟨begins_of_digits hd (List.cons_ne_nil d []), [d], k, hd, ?_,
      unsigned?_whole hd (List.cons_ne_nil d []) hending⟩
    rw [List.length_singleton, Nat.cast_one, add_sub_cancel_right]
  | cons d' rest =>
    have hspells := spells_point hd (List.cons_ne_nil d []) hrest hending
    have hexp : k - (d' :: rest).length = k + 1 - (d :: d' :: rest).length := by
      simp only [List.length_cons]
      omega
    rw [hexp] at hspells
    exact hspells

/-! ## Reading back -/

theorem greatest_unit : (2 ^ 53 : ℚ) * 2 ^ (971 : Int) ≤ 10 ^ (400 : Int) := by
  have hnat : 2 ^ 53 * 2 ^ 971 ≤ 10 ^ 400 := by decide +kernel
  rw [zpow_ofNat, zpow_ofNat]
  exact_mod_cast hnat

theorem half_least_unit : (10 : ℚ) ^ (-400 : Int) ≤ 1 / 2 * 2 ^ (-1074 : Int) := by
  have hnat : 2 * 2 ^ 1074 ≤ 10 ^ 400 := by decide +kernel
  have hrat : (2 : ℚ) * 2 ^ 1074 ≤ 10 ^ 400 := by exact_mod_cast hnat
  rw [zpow_neg, zpow_neg, zpow_ofNat, zpow_ofNat, one_div, ← mul_inv]
  exact inv_anti₀ (by positivity) hrat

open Binary64 in
/-- **Digits in the rounding interval of a double are read as the double.** -/
theorem ofScientific?_of_within {x : Binary64} (hx : Canonical x) (hmant : 0 < x.mant)
    {ds : List Char} (hds : AllDigits ds) {exp : Int}
    (h : Within x (natOfDigits ds * 10 ^ exp)) :
    ofScientific? x.neg (natOfDigits ds) ds.length exp = some x := by
  have hpower := Shortest.power_pos exp
  have hunit := unit_pos x.exp
  have hpos := h.pos hmant
  have hdigits : 0 < natOfDigits ds := by
    rw [mul_pos_iff_of_pos_right hpower] at hpos
    exact Nat.cast_pos.mp hpos
  -- the power of ten is neither too great nor too small to be built
  have hgreat : ¬ 400 < exp := by
    intro hexp
    have hone : (1 : ℚ) ≤ natOfDigits ds := Nat.one_le_cast.mpr hdigits
    have hfits : (x.mant : ℚ) + 1 / 2 ≤ 2 ^ 53 := by
      have hle : (x.mant : ℚ) + 1 ≤ 2 ^ 53 := by exact_mod_cast hx.fits
      linarith
    have hlarge : (10 : ℚ) ^ exp ≤ 10 ^ (400 : Int) :=
      calc (10 : ℚ) ^ exp ≤ natOfDigits ds * 10 ^ exp := le_mul_of_one_le_left hpower.le hone
        _ ≤ (x.mant + 1 / 2) * 2 ^ x.exp := h.high
        _ ≤ 2 ^ 53 * 2 ^ (971 : Int) :=
          mul_le_mul hfits (unit_mono hx.greatest) hunit.le (by norm_num)
        _ ≤ 10 ^ (400 : Int) := greatest_unit
    exact absurd hlarge (not_le.mpr (zpow_lt_zpow_right₀ (by norm_num) hexp))
  have hsmall : ¬ (ds.length : Int) + exp < -400 := by
    intro hexp
    have hone : (1 : ℚ) ≤ x.mant := Nat.one_le_cast.mpr hmant
    have hend : 1 / 2 ≤ lowEnd x := le_trans (by linarith) (half_le_lowEnd x)
    have hlt : (natOfDigits ds : ℚ) < 10 ^ (ds.length : Int) := by
      rw [zpow_natCast]
      exact_mod_cast natOfDigits_lt hds
    have hlarge : (10 : ℚ) ^ (-400 : Int) < 10 ^ ((ds.length : Int) + exp) :=
      calc (10 : ℚ) ^ (-400 : Int) ≤ 1 / 2 * 2 ^ (-1074 : Int) := half_least_unit
        _ ≤ lowEnd x * 2 ^ x.exp :=
          mul_le_mul hend (unit_mono hx.least) (unit_pos _).le (by linarith)
        _ ≤ natOfDigits ds * 10 ^ exp := h.low
        _ < 10 ^ (ds.length : Int) * 10 ^ exp := mul_lt_mul_of_pos_right hlt hpower
        _ = 10 ^ ((ds.length : Int) + exp) := (zpow_add₀ (by norm_num) _ _).symm
    exact absurd hlarge (not_lt.mpr (zpow_le_zpow_right₀ (by norm_num) hexp.le))
  unfold ofScientific?
  rw [if_neg (Nat.pos_iff_ne_zero.mp hdigits), if_neg hgreat, if_neg hsmall]
  by_cases hexp : 0 ≤ exp
  · have hpow : (10 : ℚ) ^ exp = (Nat.pow 10 exp.toNat : Nat) := zpow_of_nonneg 10 hexp
    rw [if_pos hexp]
    refine ofRatio?_of_within hx hmant Nat.one_pos ?_
    rw [Nat.cast_mul, ← hpow, Nat.cast_one, div_one]
    exact h
  · have hpow : (10 : ℚ) ^ exp = ((Nat.pow 10 (-exp).toNat : Nat) : ℚ)⁻¹ := zpow_of_neg 10 hexp
    rw [if_neg hexp]
    refine ofRatio?_of_within hx hmant (Nat.pow_pos (by decide)) ?_
    rw [div_eq_mul_inv, ← hpow]
    exact h

theorem toLower_of_isDigit {c : Char} (h : c.isDigit = true) : c.toLower = c := by
  rw [Char.isDigit, Bool.and_eq_true, decide_eq_true_eq, decide_eq_true_eq] at h
  refine dif_neg fun hupper => ?_
  have hletter : 65 ≤ c.toNat := hupper.1
  have hdigit : c.toNat ≤ 57 := h.2
  omega

/-- A text with a sign is read as its numeral, if that begins with a digit. -/
theorem read?_of_begins {cs : List Char} (h : ∃ c rest, cs = c :: rest ∧ c.isDigit = true)
    (neg : Bool) :
    Numeral.read? (if neg then '-' :: cs else cs) = Numeral.unsigned? neg cs := by
  obtain ⟨c, rest, rfl, hc⟩ := h
  have hword : ∀ word : String, (∀ d, word.toList.head? = some d → d.isDigit = false) →
      String.ofList ((c :: rest).map Char.toLower) ≠ word := by
    rintro word hhead rfl
    rw [String.toList_ofList, List.map_cons, List.head?_cons, toLower_of_isDigit hc] at hhead
    rw [hhead c rfl] at hc
    exact absurd hc Bool.false_ne_true
  have hinf := hword "inf" (by rintro d ⟨⟩; rfl)
  have hinfinity := hword "infinity" (by rintro d ⟨⟩; rfl)
  have hnan := hword "nan" (by rintro d ⟨⟩; rfl)
  cases neg with
  | true =>
    rw [if_pos rfl]
    unfold Numeral.read?
    simp only [hinf, hinfinity, hnan, or_self, if_false]
  | false =>
    have hminus : c ≠ '-' := by rintro rfl; exact absurd hc (by decide)
    have hplus : c ≠ '+' := by rintro rfl; exact absurd hc (by decide)
    rw [if_neg Bool.false_ne_true]
    unfold Numeral.read?
    simp only [List.cons.injEq, hminus, hplus, false_and, imp_self, implies_true]
    rw [if_neg (not_or.mpr ⟨hinf, hinfinity⟩), if_neg hnan]

/-- **A text is read as the double whose rounding interval it is in.** -/
theorem read?_of_spells {x : Binary64} (hx : x.Canonical) (hmant : 0 < x.mant) {cs : List Char}
    {q : ℚ} (hspells : Spells cs q) (h : x.Within q) :
    Numeral.read? (if x.neg then '-' :: cs else cs) = some (.finite x) := by
  obtain ⟨hbegins, ds, e, hds, hvalue, hread⟩ := hspells
  rw [← hvalue] at h
  rw [read?_of_begins hbegins, hread, rounded, ofScientific?_of_within hx hmant hds h]

/-- **The text of a double is read as the double**, in every layout. -/
theorem read?_render (layout : Layout) {x : Binary64} (hx : x.Canonical) :
    Numeral.read? (layout.render x) = some (.finite x) := by
  unfold Layout.render
  dsimp only
  by_cases hmant : x.mant = 0
  · have hexp : x.exp = -1074 := hx.full.resolve_left (by omega)
    obtain ⟨neg, mant, exp⟩ := x
    obtain rfl : mant = 0 := hmant
    obtain rfl : exp = -1074 := hexp
    rw [if_pos rfl]
    cases layout.fraction <;> cases neg <;> decide
  · rw [if_neg hmant]
    have hpos : 0 < x.mant := Nat.pos_of_ne_zero hmant
    have hwithin := Shortest.digits_within hx hpos
    generalize Shortest.digits x = d at hwithin ⊢
    have hds := allDigits_toDigits d.digits
    have hne : Nat.toDigits 10 d.digits ≠ [] := Nat.toDigits_ne_nil
    have hvalue := natOfDigits_toDigits d.digits
    generalize Nat.toDigits 10 d.digits = ds at hds hne hvalue ⊢
    have hexp : d.exp + ds.length - 1 + 1 - ds.length = d.exp := by omega
    refine read?_of_spells hx hpos ?_ hwithin
    rw [← hvalue]
    split
    · have hspells := spells_positional layout.fraction hds hne (d.exp + ds.length - 1 + 1)
      rwa [hexp] at hspells
    · have hspells := spells_scientific hds hne (d.exp + ds.length - 1)
      rwa [hexp] at hspells

end MockServer.Decimal
