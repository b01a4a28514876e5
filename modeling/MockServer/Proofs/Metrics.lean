/-
  MockServer.Proofs.Metrics — counters that agree with each other.

  Every observation goes into one bucket, and every look-up under one
  label.  The labels are kept in the order of feature, scenario and
  status, which is that of their keys, so no label is there twice.

  Main definitions:
    * `LookupLabel.key` — what labels are ordered by;
    * `countOf` — the look-ups of one status;
    * `Metrics.Consistent` — buckets and labels that add up.

  Main results:
    * `Histogram.sum_observe` — an observation goes into one bucket;
    * `increasing_countLookup`, `countOf_countLookup` — a look-up goes
      under one label;
    * `Metrics.consistent_new`, `Metrics.Consistent.lookup`, … — every
      counter keeps the others in agreement.
-/
import Mathlib.Algebra.Ring.Nat
import Mathlib.Data.List.Basic
import Mathlib.Data.Prod.Lex
import Mathlib.Data.String.Basic
import MockServer.Metrics

namespace MockServer

/-! ## Histograms -/

namespace Histogram

theorem length_bump (counts : List Nat) (i : Nat) : (bump counts i).length = counts.length := by
  induction counts generalizing i with
  | nil => rfl
  | cons n rest ih =>
    cases i with
    | zero => rfl
    | succ i => exact congrArg (· + 1) (ih i)

theorem sum_bump {counts : List Nat} {i : Nat} (h : i < counts.length) :
    (bump counts i).sum = counts.sum + 1 := by
  induction counts generalizing i with
  | nil => exact absurd h (Nat.not_lt_zero i)
  | cons n rest ih =>
    cases i with
    | zero =>
      simp only [bump, List.sum_cons]
      omega
    | succ i =>
      simp only [bump, List.sum_cons, ih (Nat.lt_of_succ_lt_succ h)]
      omega

/-- A time beyond all boundaries has a bucket of its own, the last one. -/
theorem bucket_le (boundaries : List Decimal.Binary64) (d : Duration) :
    bucket boundaries d ≤ boundaries.length := by
  unfold bucket
  cases hfound : boundaries.findIdx? fun b => decide ((seconds d).units ≤ b.units) with
  | none => exact le_refl _
  | some i => exact le_of_lt (List.findIdx?_eq_some_iff_findIdx_eq.mp hfound).1

/-- Is there one bucket more than there are boundaries, and are all observations in buckets? -/
structure Consistent (h : Histogram) : Prop where
  length_eq : h.counts.length = h.boundaries.length + 1
  sum_eq : h.counts.sum = h.total

theorem consistent_new (boundaries : List Decimal.Binary64) : Consistent (new boundaries) :=
  ⟨List.length_replicate, by simp [new]⟩

/-- **An observation goes into one bucket.** -/
theorem Consistent.observe {h : Histogram} (hh : Consistent h) (d : Duration) :
    Consistent (h.observe d) := by
  have hbucket : bucket h.boundaries d < h.counts.length := by
    rw [hh.length_eq]
    exact Nat.lt_succ_of_le (bucket_le _ _)
  exact ⟨(length_bump _ _).trans hh.length_eq, (sum_bump hbucket).trans (congrArg (· + 1) hh.sum_eq)⟩

end Histogram

/-! ## Labels -/

namespace LookupLabel

/-- Feature, scenario and status, compared in this order. -/
def key (l : LookupLabel) : String ×ₗ String ×ₗ String :=
  toLex (l.feature, toLex (l.scenario, l.status))

theorem before_iff {a b : LookupLabel} : a.before b = true ↔ a.key < b.key := by
  simp only [before, key, Prod.Lex.toLex_lt_toLex, Bool.or_eq_true, Bool.and_eq_true,
    decide_eq_true_eq, beq_iff_eq]

/-- The status tells how the look-up ended. -/
theorem status_eq_iff {l : LookupLabel} :
    (l.status = "found" ↔ l.found = true) ∧ (l.status = "not_found" ↔ l.found = false) := by
  unfold status
  cases l.found <;> simp

theorem key_inj {a b : LookupLabel} (h : a.key = b.key) : a = b := by
  unfold key at h
  simp only [toLex_inj, Prod.mk.injEq] at h
  obtain ⟨hfeature, hscenario, hstatus⟩ := h
  have hfound : a.found = b.found := by
    rw [Bool.eq_iff_iff, ← status_eq_iff.1, hstatus, status_eq_iff.1]
  cases a
  cases b
  simp only at hfeature hscenario hfound
  rw [hfeature, hscenario, hfound]

end LookupLabel

/-- Do the labels increase? -/
def IncreasingLabels (es : List (LookupLabel × Nat)) : Prop :=
  es.Pairwise fun e f => e.1.key < f.1.key

/-- A counted look-up is under its label, and the others are where they were. -/
theorem mem_countLookup {l : LookupLabel} {es : List (LookupLabel × Nat)} {e : LookupLabel × Nat}
    (h : e ∈ countLookup l es) : (e.1 = l ∧ 0 < e.2) ∨ e ∈ es := by
  induction es with
  | nil =>
    rw [countLookup, List.mem_singleton] at h
    exact Or.inl (h ▸ ⟨rfl, Nat.one_pos⟩)
  | cons f rest ih =>
    obtain ⟨k, n⟩ := f
    rw [countLookup] at h
    split_ifs at h with hk hbefore
    · rcases List.mem_cons.mp h with rfl | hrest
      · exact Or.inl ⟨hk.symm, Nat.succ_pos n⟩
      · exact Or.inr (List.mem_cons_of_mem _ hrest)
    · rcases List.mem_cons.mp h with rfl | hrest
      · exact Or.inl ⟨rfl, Nat.one_pos⟩
      · exact Or.inr hrest
    · rcases List.mem_cons.mp h with rfl | hrest
      · exact Or.inr List.mem_cons_self
      · exact (ih hrest).imp id (List.mem_cons_of_mem _)

/-- **Labels are kept in order**, and so none is there twice. -/
theorem increasing_countLookup (l : LookupLabel) {es : List (LookupLabel × Nat)}
    (h : IncreasingLabels es) : IncreasingLabels (countLookup l es) := by
  unfold IncreasingLabels at h ⊢
  induction es with
  | nil => exact List.pairwise_singleton _ _
  | cons f rest ih =>
    obtain ⟨k, n⟩ := f
    have hrest := List.pairwise_cons.mp h
    rw [countLookup]
    split_ifs with hk hbefore
    · exact List.pairwise_cons.mpr hrest
    · have hlt := LookupLabel.before_iff.mp hbefore
      rw [List.pairwise_cons, List.forall_mem_cons]
      exact ⟨⟨hlt, fun e he => lt_trans hlt (hrest.1 e he)⟩, h⟩
    · have hlt : k.key < l.key := by
        rcases lt_trichotomy k.key l.key with hlt | heq | hgt
        · exact hlt
        · exact absurd (LookupLabel.key_inj heq).symm hk
        · exact absurd (LookupLabel.before_iff.mpr hgt) hbefore
      rw [List.pairwise_cons]
      refine ⟨fun e he => ?_, ih hrest.2⟩
      rcases mem_countLookup he with ⟨hl, -⟩ | hold
      · rw [hl]
        exact hlt
      · exact hrest.1 e hold

/-- The look-ups of a status, under all labels together. -/
def countOf (status : String) (es : List (LookupLabel × Nat)) : Nat :=
  ((es.filter fun e => e.1.status == status).map Prod.snd).sum

theorem countOf_cons (status : String) (e : LookupLabel × Nat) (es : List (LookupLabel × Nat)) :
    countOf status (e :: es) = (if e.1.status = status then e.2 else 0) + countOf status es := by
  unfold countOf
  rw [List.filter_cons]
  by_cases h : e.1.status = status
  · rw [if_pos (beq_iff_eq.mpr h), if_pos h, List.map_cons, List.sum_cons]
  · rw [if_neg (fun heq => h (beq_iff_eq.mp heq)), if_neg h, Nat.zero_add]

/-- **A look-up is counted once, with those of its status.** -/
theorem countOf_countLookup (status : String) (l : LookupLabel) (es : List (LookupLabel × Nat)) :
    countOf status (countLookup l es) = countOf status es + if l.status = status then 1 else 0 := by
  induction es with
  | nil =>
    rw [countLookup, countOf_cons]
    exact Nat.add_comm _ _
  | cons f rest ih =>
    obtain ⟨k, n⟩ := f
    rw [countLookup]
    by_cases hk : l = k
    · rw [if_pos hk, countOf_cons, countOf_cons, hk]
      split_ifs <;> omega
    · rw [if_neg hk]
      by_cases hbefore : l.before k = true
      · rw [if_pos hbefore, countOf_cons, Nat.add_comm]
      · rw [if_neg hbefore, countOf_cons, countOf_cons, ih, Nat.add_assoc]

/-! ## All counters -/

namespace Metrics

/-- Do buckets and labels add up to the other counters, with the labels in order? -/
structure Consistent (m : Metrics) : Prop where
  durations : m.durations.Consistent
  increasing : IncreasingLabels m.lookups
  positive : ∀ e ∈ m.lookups, 0 < e.2
  found : countOf "found" m.lookups = m.lookupsFound
  notFound : countOf "not_found" m.lookups = m.lookupsNotFound

theorem consistent_new : Consistent new :=
  ⟨Histogram.consistent_new _, List.Pairwise.nil, nofun, rfl, rfl⟩

variable {m : Metrics}

theorem Consistent.cacheHit (h : m.Consistent) : m.cacheHit.Consistent :=
  ⟨h.durations, h.increasing, h.positive, h.found, h.notFound⟩

theorem Consistent.cacheMiss (h : m.Consistent) : m.cacheMiss.Consistent :=
  ⟨h.durations, h.increasing, h.positive, h.found, h.notFound⟩

theorem Consistent.observe (h : m.Consistent) (d : Duration) : (m.observe d).Consistent :=
  ⟨h.durations.observe d, h.increasing, h.positive, h.found, h.notFound⟩

theorem Consistent.lookup (h : m.Consistent) (l : LookupLabel) : (m.lookup l).Consistent := by
  have hstatus : ∀ status, countOf status (m.lookup l).lookups
      = countOf status m.lookups + if l.status = status then 1 else 0 :=
    fun status => countOf_countLookup status l m.lookups
  refine ⟨h.durations, increasing_countLookup l h.increasing, fun e he => ?_, ?_, ?_⟩
  · exact (mem_countLookup he).elim And.right (h.positive e)
  · rw [hstatus, h.found]
    show _ = m.lookupsFound + if l.found then 1 else 0
    simp only [LookupLabel.status_eq_iff.1]
  · rw [hstatus, h.notFound]
    show _ = m.lookupsNotFound + if l.found then 0 else 1
    simp only [LookupLabel.status_eq_iff.2]
    cases l.found <;> rfl

end Metrics

end MockServer
