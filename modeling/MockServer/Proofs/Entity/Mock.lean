/-
  MockServer.Proofs.Entity.Mock — which lookups a mock answers.

  A mock answers a lookup exactly when its own key is that lookup up to
  the case of the method.  So two mocks that answer one lookup answer
  the same lookups.
-/
import MockServer.Entity.Mock
import MockServer.Proofs.Text.Case

namespace MockServer

/-- The lookup without the case of its method. -/
def MockKey.folded (k : MockKey) : MockKey := { k with method := Text.lower k.method }

namespace Mock

/-- **A mock answers the lookups that are its own key up to the case of the method.** -/
theorem answers_iff {m : Mock} {k : MockKey} : m.answers k = true ↔ m.key.folded = k.folded := by
  unfold answers key MockKey.folded
  rw [Bool.and_eq_true, Bool.and_eq_true, Bool.and_eq_true, Bool.and_eq_true, Text.sameFold_iff,
    MockKey.mk.injEq]
  simp only [beq_iff_eq, and_assoc]

/-- A mock that answers a lookup of another one answers all of them. -/
theorem answers_key_of_answers {m n : Mock} {k : MockKey} (hm : m.answers k = true)
    (hn : n.answers k = true) : m.answers n.key = true := by
  rw [answers_iff] at hm hn ⊢
  rw [hm, hn]

end Mock

end MockServer
