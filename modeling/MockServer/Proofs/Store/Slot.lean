/-
  MockServer.Proofs.Store.Slot — activations by their slots.

  A slot is a feature with an account, or without one.  What a store
  finds in each slot after an operation on its activations is said by
  one equation for each operation; a removal counts what it finds, at
  most one activation to a slot.
-/
import MockServer.Proofs.Store.Consistent

namespace MockServer.Store

variable {s : Store} {featureName : String} {account : Option String}

/-! ## Lookups -/

theorem slot_of_findActivation {a : Activation}
    (h : s.findActivation featureName account = some a) : a.slot = (featureName, account) := by
  have hpred := List.find?_some h
  exact Activation.slot_eq_iff.mp hpred

/-- An activation for exactly the account that is asked for counts before the global one. -/
theorem activationFor_of_found {a : Activation}
    (h : s.findActivation featureName account = some a) :
    s.activationFor featureName account = some a := by
  cases account with
  | none => exact h
  | some account => rw [activationFor, h, Option.some_or]

/-! ## Removals -/

theorem findActivation_removeWhere_none {p : Activation → Bool}
    (hp : ∀ a, a.slot = (featureName, account) → p a = true) :
    (s.removeWhere p).1.findActivation featureName account = none := by
  unfold findActivation removeWhere
  rw [List.find?_eq_none]
  intro a ha hslot
  have hkept := (List.mem_filter.mp ha).2
  rw [hp a (Activation.slot_eq_iff.mp hslot)] at hkept
  exact absurd hkept (by decide)

theorem findActivation_removeWhere_same {p : Activation → Bool}
    (hp : ∀ a, a.slot = (featureName, account) → p a = false) :
    (s.removeWhere p).1.findActivation featureName account
      = s.findActivation featureName account := by
  unfold findActivation removeWhere
  rw [List.find?_filter]
  congr 1
  funext a
  by_cases hslot : (a.featureName == featureName && a.account == account) = true
  · simp [hp a (Activation.slot_eq_iff.mp hslot), hslot]
  · simp [hslot]

/-- Removing the overrides of a feature empties its slots of accounts, and no other slot. -/
theorem findActivation_removeOverrides (s : Store) (f featureName : String)
    (account : Option String) :
    (s.removeOverrides f).1.findActivation featureName account
      = if featureName = f ∧ account.isSome = true then none
        else s.findActivation featureName account := by
  by_cases h : featureName = f ∧ account.isSome = true
  · rw [if_pos h]
    apply findActivation_removeWhere_none
    intro a ha
    obtain ⟨hfeature, haccount⟩ := Prod.mk.inj ha
    simp [hfeature, haccount, h]
  · rw [if_neg h]
    apply findActivation_removeWhere_same
    intro a ha
    obtain ⟨hfeature, haccount⟩ := Prod.mk.inj ha
    simpa [hfeature, haccount] using h

/-- Removing an activation empties its slot, and no other one. -/
theorem findActivation_removeActivation (s : Store) (f featureName : String)
    (of account : Option String) :
    (s.removeActivation f of).1.findActivation featureName account
      = if (featureName, account) = (f, of) then none
        else s.findActivation featureName account := by
  by_cases h : (featureName, account) = (f, of)
  · rw [if_pos h]
    apply findActivation_removeWhere_none
    intro a ha
    rw [Activation.slot_eq_iff, ha, h]
  · rw [if_neg h]
    apply findActivation_removeWhere_same
    intro a ha
    rw [Bool.eq_false_iff, Ne, Activation.slot_eq_iff, ha]
    exact h

/-- A removal finds one activation in its slot, or none. -/
theorem removeActivation_snd (h : (s.activations.map Activation.slot).Nodup) (f : String)
    (of : Option String) :
    (s.removeActivation f of).2 = if (s.findActivation f of).isSome = true then 1 else 0 := by
  have hcount : (s.removeActivation f of).2
      = (s.activations.map Activation.slot).count (f, of) := by
    unfold removeActivation removeWhere List.count
    rw [List.countP_map]
    apply List.countP_congr
    intro a _
    rw [Activation.slot_eq_iff, Function.comp_apply, beq_iff_eq]
  rw [hcount, h.count]
  simp only [findActivation_isSome_iff]

/-! ## Additions -/

/-- An activation whose slot is free is let in. -/
theorem addActivation?_of_free {a : Activation}
    (h : s.findActivation a.featureName a.account = none) :
    s.addActivation? a = .ok { s with activations := s.activations ++ [a] } := by
  unfold addActivation?
  rw [h]
  rfl

theorem findActivation_append {a : Activation}
    (h : s.findActivation a.featureName a.account = none) (featureName : String)
    (account : Option String) :
    findActivation { s with activations := s.activations ++ [a] } featureName account
      = if (featureName, account) = a.slot then some a
        else s.findActivation featureName account := by
  unfold findActivation at h ⊢
  rw [List.find?_append]
  by_cases hslot : (featureName, account) = a.slot
  · obtain ⟨hfeature, haccount⟩ := Prod.mk.inj hslot
    rw [if_pos hslot, hfeature, haccount, h, Option.none_or, List.find?_singleton]
    exact if_pos (Activation.slot_eq_iff.mpr rfl)
  · rw [if_neg hslot, List.find?_singleton, if_neg, Option.or_none]
    intro hself
    exact hslot (Activation.slot_eq_iff.mp hself).symm

/-- **An activation in place of the one before it** changes what is found in its slot, and in no
other one. -/
theorem findActivation_replace (s : Store) (a : Activation) (featureName : String)
    (account : Option String) :
    findActivation { s with
        activations := (s.removeActivation a.featureName a.account).1.activations ++ [a] }
        featureName account
      = if (featureName, account) = a.slot then some a
        else s.findActivation featureName account := by
  have hfree : (s.removeActivation a.featureName a.account).1.findActivation
      a.featureName a.account = none := by
    rw [findActivation_removeActivation, if_pos rfl]
  refine (findActivation_append hfree featureName account).trans ?_
  rw [findActivation_removeActivation]
  by_cases hslot : (featureName, account) = a.slot
  · rw [if_pos hslot, if_pos hslot]
  · rw [if_neg hslot, if_neg hslot]
    exact if_neg hslot

end MockServer.Store
