/-
  MockServer.Proofs.Url.NormalForm — composed paths as normal forms.

  A path with a query has many spellings: pairs in another order, other
  escapes, empty pieces between the pairs.  Composing brings the
  spellings that mean the same to one text and keeps all others apart,
  and this text is left alone wherever a path is made canonical again:
  when a mock is made for it, and when the mock is stored.

  Main results:
    * `addMock?_stored` — a mock with a canonical path is stored as it is;
    * `compose_normal_form` — composed paths are normal forms.
-/
import MockServer.Proofs.Store.Run
import MockServer.Proofs.Url.Lookup

namespace MockServer.Url.Lookup

/-! ## Stored paths -/

/-- A mock whose path is canonical is stored as it is. -/
theorem addMock?_stored {s after : Store} {m stored : Mock} (hpath : canonical m.path = m.path)
    (h : s.addMock? m = .ok (after, stored)) : stored = m := by
  obtain ⟨-, hstored, -⟩ := Store.addMock?_eq_ok h
  rw [hstored]
  show { m with path := canonical m.path } = m
  rw [hpath]

/-! ## Normal forms -/

/-- **Composed paths are normal forms.**  Two queries give one path exactly if every name has the
same values in the same order in both; and a composed path is canonical, so neither making nor
storing a mock changes it. -/
theorem compose_normal_form {path : String} (hpath : '?' ∉ path.toList) (q r : Option String) :
    (compose path q = compose path r ↔
      ∀ name, valuesOf name (Form.parse (q.getD "")) = valuesOf name (Form.parse (r.getD ""))) ∧
    canonical (compose path q) = compose path q ∧
    (∀ stamp feature scenario method input output,
      (Mock.new stamp feature scenario (compose path q) method input output).path
        = compose path q) ∧
    ∀ (s after : Store) (m stored : Mock), m.path = compose path q →
      s.addMock? m = .ok (after, stored) → stored = m := by
  have hcanonical := canonical_compose hpath q
  refine ⟨compose_eq_iff, hcanonical, ?_, ?_⟩
  · intro stamp feature scenario method input output
    rw [Mock.new, hcanonical]
  · intro s after m stored hm hadd
    exact addMock?_stored (by rw [hm, hcanonical]) hadd

/-- Two spellings of a query are composed to one path, and a third with two values exchanged is
not. -/
theorem compose_spellings :
    '?' ∉ "/orders".toList ∧
      compose "/orders" (some "to=2&by=a+b&&to=1")
        = compose "/orders" (some "by=a%20b&to=2&to=%31") ∧
      compose "/orders" (some "to=2&by=a+b&&to=1") ≠ compose "/orders" (some "by=a+b&to=1&to=2") ∧
      canonical (compose "/orders" (some "to=2&by=a+b&&to=1"))
        = compose "/orders" (some "to=2&by=a+b&&to=1") := by
  have hpath : '?' ∉ "/orders".toList := by decide
  have hfirst : Form.parse "to=2&by=a+b&&to=1" = [("to", "2"), ("by", "a b"), ("to", "1")] := by
    decide +kernel
  have hsame : Form.parse "by=a%20b&to=2&to=%31" = [("by", "a b"), ("to", "2"), ("to", "1")] := by
    decide +kernel
  have hother : Form.parse "by=a+b&to=1&to=2" = [("by", "a b"), ("to", "1"), ("to", "2")] := by
    decide +kernel
  refine ⟨hpath, (compose_normal_form hpath _ _).1.mpr fun name => ?_, fun h => ?_,
    (compose_normal_form hpath _ none).2.1⟩
  · rw [Option.getD_some, Option.getD_some, hfirst, hsame]
    -- a name is one of the two, or has no values at all
    by_cases hto : "to" = name
    · subst hto
      decide
    · by_cases hby : "by" = name
      · subst hby
        decide
      · simp [valuesOf, hto, hby]
  · have hto := (compose_normal_form hpath _ _).1.mp h "to"
    rw [Option.getD_some, Option.getD_some, hfirst, hother] at hto
    exact absurd hto (by decide)

end MockServer.Url.Lookup
