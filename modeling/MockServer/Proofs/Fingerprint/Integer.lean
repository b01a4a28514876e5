/-
  MockServer.Proofs.Fingerprint.Integer — which integers are told
  apart.

  A number is spelled so that reading the spelling gives its value as a
  double.  So two numbers are spelled alike exactly when their doubles
  have one value, and so are documents and bodies that differ in this
  number only.  Up to `2^53` this tells all integers apart; beyond it
  integers share a double, and with it a spelling.

  Main results:
    * `read?_canonicalNumber` — what the spelling of a number is read as;
    * `canonicalNumber_eq_iff` — numbers that are spelled alike;
    * `integers_alike_iff` — integers, and documents and bodies with an
      integer at a place.
-/
import MockServer.Proofs.Decimal.Layout
import MockServer.Proofs.Fingerprint.Canonical
import MockServer.Proofs.Json.Place
import MockServer.Proofs.Json.Pretty

namespace MockServer.Fingerprint

open Decimal
open Json (Place)

/-! ## Numbers -/

/-- An integer with a double of its value is read as its value. -/
theorem read?_integer {x : Binary64} (hx : x.Canonical) {k : Int} (h : x.value = k) :
    ∃ y : Binary64, Numeral.read? (Json.integer k) = some (.finite y) ∧ y.value = k := by
  by_cases hzero : k = 0
  · subst hzero
    exact ⟨.zero, by decide, by simp [Binary64.value, Binary64.zero]⟩
  · have hmant : 0 < x.mant := by
      refine Nat.pos_of_ne_zero fun h0 => hzero ?_
      rw [(x.value_eq_zero_iff).mpr h0] at h
      exact_mod_cast h.symm
    have hsign : x.neg = true ↔ k < 0 := by
      rw [← Binary64.value_lt_zero_iff hmant, h, Int.cast_lt_zero]
    have htext : Json.integer k
        = if x.neg then '-' :: Nat.toDigits 10 k.natAbs else Nat.toDigits 10 k.natAbs := by
      unfold Json.integer
      exact if_congr hsign.symm rfl rfl
    have hspells := spells_digits (allDigits_toDigits k.natAbs) Nat.toDigits_ne_nil
    have hmag : (natOfDigits (Nat.toDigits 10 k.natAbs) : ℚ) = x.mant * 2 ^ x.exp := by
      rw [natOfDigits_toDigits, ← Binary64.abs_value, h, Nat.cast_natAbs, Int.cast_abs]
    rw [hmag] at hspells
    exact ⟨x, htext ▸ read?_of_spells hx hmant hspells x.within_self, h⟩

/-- **The spelling of a number is read as its value as a double.** -/
theorem read?_canonicalNumber {n : JsonNumber} (h : (double n).Canonical) :
    ∃ y : Binary64, Numeral.read? (canonicalNumber n) = some (.finite y) ∧
      y.value = (double n).value := by
  have hrender := read?_render Json.floatLayout h
  unfold canonicalNumber
  dsimp only
  cases hint : (double n).toInt? with
  | none => exact ⟨double n, hrender, rfl⟩
  | some k =>
    have hvalue := ((double n).toInt?_eq_some_iff k).mp hint
    dsimp only
    split
    · obtain ⟨y, hread, hy⟩ := read?_integer h hvalue
      exact ⟨y, hread, hy.trans hvalue.symm⟩
    · exact ⟨double n, hrender, rfl⟩

/-- **Numbers are spelled alike exactly when their doubles have one value.** -/
theorem canonicalNumber_eq_iff {a b : JsonNumber} (ha : (double a).Canonical)
    (hb : (double b).Canonical) :
    canonicalNumber a = canonicalNumber b ↔ (double a).value = (double b).value := by
  constructor
  · intro h
    obtain ⟨x, hx, hxvalue⟩ := read?_canonicalNumber ha
    obtain ⟨y, hy, hyvalue⟩ := read?_canonicalNumber hb
    rw [h, hy] at hx
    rw [← hxvalue, ← hyvalue, Real64.finite.inj (Option.some.inj hx)]
  · intro h
    by_cases hzero : (double a).value = 0
    · -- both zeros are spelled as the integer
      have hint : ∀ n : JsonNumber, (double n).value = 0 →
          canonicalNumber n = Json.integer 0 := by
        intro n hn
        have htoInt : (double n).toInt? = some 0 :=
          ((double n).toInt?_eq_some_iff 0).mpr (hn.trans Int.cast_zero.symm)
        unfold canonicalNumber
        simp only [htoInt]
        exact if_pos (Nat.zero_le _)
      rw [hint a hzero, hint b (h ▸ hzero)]
    · have hdouble := Binary64.eq_of_value_eq ha hb h hzero
      unfold canonicalNumber
      rw [hdouble]

/-! ## Documents and bodies -/

/-- Documents with a number at a place have one canonical text exactly when the number is spelled
alike. -/
theorem canonicalText_fill_iff {p : Place} (hp : p.Visible) (a b : JsonNumber) :
    canonicalText (p.fill (.num a)) = canonicalText (p.fill (.num b)) ↔
      canonicalNumber a = canonicalNumber b := by
  constructor
  · intro h
    have hwrite := congrArg String.toList h
    unfold canonicalText at hwrite
    rw [String.toList_ofList, String.toList_ofList] at hwrite
    have hsame := Json.same_of_settle (Json.same_of_write_eq spelling_canonicalNumber hwrite)
    cases (Place.same_fill_iff spelling_canonicalNumber hp).mp hsame with
    | num hnum => exact hnum
  · intro h
    have hsame := (Place.same_fill_iff spelling_canonicalNumber hp).mpr (.num h)
    exact congrArg String.ofList hsame.write_settle

/-- Is the digest of a text the fingerprint of a document, whether it is declared or received? -/
def IsDigestOf (t : String) (v : Json) : Prop :=
  ofValue v = ofText t ∧ ∀ bytes, Json.parseBytes? bytes = some v → ofBody bytes = ofText t

/-- The fingerprint of an object is the digest of its canonical text. -/
theorem isDigestOf_canonicalText {v : Json} (hv : v.isObject = true) :
    IsDigestOf (canonicalText v) v := by
  cases v with
  | obj members => exact ⟨rfl, fun bytes => ofBody_of_parse⟩
  | null | bool | num | str | arr => exact absurd hv Bool.false_ne_true

theorem isObject_fill {p : Place} {v : Json} (hv : v.isObject = false)
    (h : (p.fill v).isObject = true) (w : Json) : (p.fill w).isObject = true := by
  cases p with
  | member before name inner after => rfl
  | here =>
    rw [Place.fill, hv] at h
    exact absurd h Bool.false_ne_true
  | item => exact absurd h Bool.false_ne_true

/-! ## Main result -/

/-- **Integers of 64 bits are told apart exactly as far as their doubles are**: by their spelling,
by the canonical texts of documents with the one or the other at a place, and by the texts whose
digests are the fingerprints of such objects, declared or received.  Integers of magnitude up to
`2^53` are told apart from each other, and those below it from all integers. -/
theorem integers_alike_iff (m n : Int) (hn : n.natAbs < 2 ^ 64) :
    (canonicalNumber (.int m) = canonicalNumber (.int n) ↔
      (Binary64.ofInt m).value = (Binary64.ofInt n).value) ∧
    (m.natAbs < maxExact ∨ (m.natAbs ≤ maxExact ∧ n.natAbs ≤ maxExact) →
      (canonicalNumber (.int m) = canonicalNumber (.int n) ↔ m = n)) ∧
    ∀ p : Place, p.Visible →
      (canonicalText (p.fill (.num (.int m))) = canonicalText (p.fill (.num (.int n))) ↔
        (Binary64.ofInt m).value = (Binary64.ofInt n).value) ∧
      ((p.fill (.num (.int m))).isObject = true →
        IsDigestOf (canonicalText (p.fill (.num (.int m)))) (p.fill (.num (.int m))) ∧
        IsDigestOf (canonicalText (p.fill (.num (.int n)))) (p.fill (.num (.int n)))) := by
  have hspelled : canonicalNumber (.int m) = canonicalNumber (.int n) ↔
      (Binary64.ofInt m).value = (Binary64.ofInt n).value :=
    canonicalNumber_eq_iff (Binary64.canonical_ofInt m) (Binary64.canonical_ofInt n)
  refine ⟨hspelled, fun hexact => hspelled.trans ?_, fun p hp => ⟨?_, fun hobject => ⟨?_, ?_⟩⟩⟩
  · rcases hexact with hsmall | ⟨hm', hn'⟩
    · exact Binary64.value_ofInt_eq_iff hsmall hn
    · rw [Binary64.value_ofInt hm', Binary64.value_ofInt hn', Int.cast_inj]
  · exact (canonicalText_fill_iff hp _ _).trans hspelled
  · exact isDigestOf_canonicalText hobject
  · exact isDigestOf_canonicalText (isObject_fill rfl hobject _)

/-- The place of the number in an order. -/
def orderPlace : Place := .member [] "id" .here []

theorem visible_orderPlace : orderPlace.Visible := ⟨List.not_mem_nil, trivial⟩

/-- An order with its number. -/
def order (k : Int) : Json := orderPlace.fill (.num (.int k))

/-- The numbers on both sides of `2^53` are told apart. -/
theorem orders_told_apart :
    ∃ t u, IsDigestOf t (order 9007199254740991) ∧ IsDigestOf u (order 9007199254740993) ∧
      t ≠ u := by
  obtain ⟨hspelled, hexact, hplaces⟩ :=
    integers_alike_iff 9007199254740991 9007199254740993 (by decide)
  obtain ⟨halike, hdigests⟩ := hplaces orderPlace visible_orderPlace
  obtain ⟨hthis, hother⟩ := hdigests rfl
  refine ⟨_, _, hthis, hother, fun heq => ?_⟩
  exact absurd ((hexact (.inl (by decide))).mp (hspelled.mpr (halike.mp heq))) (by decide)

/-- The body of an order. -/
def orderBody (k : Int) : List UInt8 := Text.Utf8.ofString (order k).compact

theorem parse_orderBody {k : Int} (h : Json.IsWord (.int k)) :
    Json.parseBytes? (orderBody k) = some (order k) := by
  have hbounded : Json.Bounded Json.maxOpen (order k) :=
    ⟨show 1 ≤ Json.maxOpen by decide, fun n hn => List.mem_singleton.mp hn ▸ h⟩
  exact (parseBytes?_encode _).trans (Json.parse?_compact hbounded)

/-- **Two integers behind `2^53` with one spelling**: a request with the one has the fingerprint of
a declared input with the other. -/
theorem orders_not_told_apart :
    canonicalNumber (.int 9007199254740992) = canonicalNumber (.int 9007199254740993) ∧
      canonicalText (order 9007199254740992) = canonicalText (order 9007199254740993) ∧
      ofBody (orderBody 9007199254740993) = ofValue (order 9007199254740992) := by
  have hspelled : canonicalNumber (.int 9007199254740992)
      = canonicalNumber (.int 9007199254740993) := by decide +kernel
  have htext : canonicalText (order 9007199254740992) = canonicalText (order 9007199254740993) :=
    (canonicalText_fill_iff visible_orderPlace _ _).mpr hspelled
  obtain ⟨hdeclared, -⟩ := isDigestOf_canonicalText (v := order 9007199254740992) rfl
  obtain ⟨-, hreceived⟩ := isDigestOf_canonicalText (v := order 9007199254740993) rfl
  refine ⟨hspelled, htext, ?_⟩
  rw [hreceived _ (parse_orderBody ⟨by decide, by decide⟩), hdeclared, htext]

end MockServer.Fingerprint
