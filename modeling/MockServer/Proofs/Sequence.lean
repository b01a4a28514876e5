/-
  MockServer.Proofs.Sequence — calls in a row that may fail.

  The second of two calls is made with what the first one gives.  So the
  two succeed one after the other, or the first one that fails says why.
-/

namespace MockServer

variable {ε α β : Type} {x : Except ε α} {next : α → Except ε β}

/-- What succeeds succeeds call by call. -/
theorem bind_eq_ok {b : β} : x >>= next = .ok b ↔ ∃ a, x = .ok a ∧ next a = .ok b := by
  cases x with
  | error e => exact ⟨nofun, fun ⟨_, h, _⟩ => absurd h nofun⟩
  | ok a =>
    constructor
    · intro h
      exact ⟨a, rfl, h⟩
    · rintro ⟨a', ha, h⟩
      rw [Except.ok.inj ha]
      exact h

/-- What fails fails at one of the calls. -/
theorem bind_eq_error {e : ε} :
    x >>= next = .error e ↔ x = .error e ∨ ∃ a, x = .ok a ∧ next a = .error e := by
  cases x with
  | error e' =>
    constructor
    · intro h
      exact Or.inl (congrArg _ (Except.error.inj h))
    · rintro (h | ⟨a, ha, -⟩)
      · rw [Except.error.inj h]
        rfl
      · exact absurd ha nofun
  | ok a =>
    constructor
    · intro h
      exact Or.inr ⟨a, rfl, h⟩
    · rintro (h | ⟨a', ha, h⟩)
      · exact absurd h nofun
      · rw [Except.ok.inj ha]
        exact h

end MockServer
