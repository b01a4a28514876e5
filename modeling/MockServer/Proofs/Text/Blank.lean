/-
  MockServer.Proofs.Text.Blank — white space around a text.

  Trimming takes away whatever blanks are put around a text, and leaves
  a text alone whose ends are not blank.
-/
import Mathlib.Data.List.Induction
import Mathlib.Data.List.TakeWhile
import MockServer.Text.Blank

namespace MockServer.Text

/-- Are all characters white space? -/
def AllBlank (cs : List Char) : Prop := ∀ c ∈ cs, isBlank c = true

instance (cs : List Char) : Decidable (AllBlank cs) :=
  decidable_of_iff (cs.all isBlank = true) List.all_eq_true

theorem mem_of_mem_trimWhile {p : Char → Bool} {c : Char} {cs : List Char}
    (h : c ∈ trimWhile p cs) : c ∈ cs := by
  unfold trimWhile at h
  have hback := (List.dropWhile_sublist p).mem (List.mem_reverse.mp h)
  exact (List.dropWhile_sublist p).mem (List.mem_reverse.mp hback)

/-- **Trimming forgets what was put around the text.** -/
theorem trimWhile_append {p : Char → Bool} {before after : List Char}
    (hbefore : ∀ c ∈ before, p c = true) (hafter : ∀ c ∈ after, p c = true) (cs : List Char) :
    trimWhile p (before ++ cs ++ after) = trimWhile p cs := by
  have hnone : after.dropWhile p = [] := List.dropWhile_eq_nil_iff.mpr hafter
  unfold trimWhile
  rw [List.append_assoc, List.dropWhile_append_of_pos hbefore, List.dropWhile_append]
  by_cases hcs : (cs.dropWhile p).isEmpty = true
  · rw [if_pos hcs, hnone, List.isEmpty_iff.mp hcs]
  · rw [if_neg hcs, List.reverse_append, List.dropWhile_append_of_pos]
    intro c hc
    exact hafter c (List.mem_reverse.mp hc)

theorem trimChars_append {before after : List Char} (hbefore : AllBlank before)
    (hafter : AllBlank after) (cs : List Char) :
    trimChars (before ++ cs ++ after) = trimChars cs :=
  trimWhile_append hbefore hafter cs

/-- **A text whose ends are not trimmed stays as it is.** -/
theorem trimWhile_eq_self {p : Char → Bool} {cs : List Char} (hfirst : ∀ c ∈ cs.head?, p c = false)
    (hlast : ∀ c ∈ cs.getLast?, p c = false) : trimWhile p cs = cs := by
  have hdrop : ∀ ds : List Char, (∀ d ∈ ds.head?, p d = false) → ds.dropWhile p = ds := by
    intro ds hds
    cases ds with
    | nil => rfl
    | cons d ds =>
      exact List.dropWhile_cons_of_neg (by rw [hds d rfl]; exact Bool.false_ne_true)
  unfold trimWhile
  rw [hdrop cs hfirst, hdrop cs.reverse, List.reverse_reverse]
  rwa [List.head?_reverse]

/-- The blanks at the end of a text. -/
theorem exists_trimmed (cs : List Char) :
    ∃ kept blanks, cs = kept ++ blanks ∧ AllBlank blanks ∧
      ∀ c ∈ kept.getLast?, isBlank c = false := by
  induction cs using List.reverseRecOn with
  | nil => exact ⟨[], [], rfl, List.forall_mem_nil _, nofun⟩
  | append_singleton cs c ih =>
    cases hc : isBlank c with
    | true =>
      obtain ⟨kept, blanks, rfl, hblanks, hlast⟩ := ih
      refine ⟨kept, blanks ++ [c], List.append_assoc _ _ _, ?_, hlast⟩
      exact List.forall_mem_append.mpr ⟨hblanks, List.forall_mem_singleton.mpr hc⟩
    | false =>
      refine ⟨cs ++ [c], [], (List.append_nil _).symm, List.forall_mem_nil _, ?_⟩
      rw [List.getLast?_concat]
      rintro d ⟨⟩
      exact hc

/-- **Trimming takes away the blanks around a text**, up to characters that are not blank. -/
theorem trimChars_spec (cs : List Char) :
    ∃ before after, cs = before ++ trimChars cs ++ after ∧ AllBlank before ∧ AllBlank after ∧
      (∀ c ∈ (trimChars cs).head?, isBlank c = false) ∧
      ∀ c ∈ (trimChars cs).getLast?, isBlank c = false := by
  have hbefore : AllBlank (cs.takeWhile isBlank) := fun c hc => List.mem_takeWhile_imp hc
  obtain ⟨kept, after, hdrop, hafter, hlast⟩ := exists_trimmed (cs.dropWhile isBlank)
  have hcs : cs = cs.takeWhile isBlank ++ kept ++ after := by
    rw [List.append_assoc, ← hdrop, List.takeWhile_append_dropWhile]
  have hfirst : ∀ c ∈ kept.head?, isBlank c = false := by
    cases kept with
    | nil => nofun
    | cons d kept =>
      have hhead := List.head?_dropWhile_not isBlank cs
      rw [hdrop] at hhead
      rintro c ⟨⟩
      exact hhead
  have htrim : trimChars cs = kept := by
    rw [hcs, trimChars_append hbefore hafter]
    exact trimWhile_eq_self hfirst hlast
  rw [htrim]
  exact ⟨cs.takeWhile isBlank, after, hcs, hbefore, hafter, hfirst, hlast⟩

end MockServer.Text
