/-
  MockServer.Proofs.Cache.Basic — what the operations of a cache do.

  A cache that is on gives what it holds under a key, and counts whether
  that was anything.  An invalidation removes the keys that its pattern
  matches one after another; what this comes to is said here once, for
  all entries together: those that match are gone and counted, and the
  others stay.  A text that is no pattern is refused.

  Main definition:
    * `keep` — the entries that an invalidation leaves.

  Main results:
    * `removeAll_matching` — what is removed, and what is left;
    * `invalidate_of_parse`, `invalidate_of_refused` — the two ways an
      invalidation ends.
-/
import MockServer.Cache.Basic
import MockServer.Proofs.Dict

namespace MockServer.Cache

/-! ## Removing keys -/

/-- The entries whose key does not match a pattern. -/
def keep (pattern : List GlobToken) (entries : Dict String) : Dict String :=
  ⟨entries.entries.filter fun e => !Glob.isMatch pattern e.1.toList⟩

/-- Removing other keys leaves an entry in its place. -/
theorem removeAll_cons_of_not_mem {keys : List String} {e : String × String} (h : e.1 ∉ keys)
    (es : List (String × String)) :
    removeAll keys ⟨e :: es⟩
      = ((removeAll keys ⟨es⟩).1, ⟨e :: (removeAll keys ⟨es⟩).2.entries⟩) := by
  induction keys generalizing es with
  | nil => rfl
  | cons key keys ih =>
    obtain ⟨hne, hrest⟩ := not_or.mp (mt List.mem_cons.mpr h)
    rw [removeAll, removeAll, Dict.erase_cons_eq, if_neg hne, Dict.contains_cons_eq,
      if_neg (Ne.symm hne), ih hrest]

/-- **Of the keys that match a pattern each is removed and counted once**, and nothing else is. -/
theorem removeAll_matching (tokens : List GlobToken) (entries : Dict String) :
    removeAll (matching tokens entries) entries
      = (entries.entries.countP fun e => Glob.isMatch tokens e.1.toList, keep tokens entries) := by
  obtain ⟨es⟩ := entries
  unfold matching keep Dict.names
  induction es with
  | nil => rfl
  | cons e es ih =>
    simp only at ih ⊢
    rw [List.map_cons, List.filter_cons, List.countP_cons, List.filter_cons]
    by_cases hmatch : Glob.isMatch tokens e.1.toList = true
    · -- the first entry is removed first, and the rest is as before
      rw [if_pos hmatch, removeAll, Dict.erase_cons_eq, if_pos rfl, Dict.contains_cons_eq,
        if_pos rfl, ih, hmatch]
      rfl
    · have hnot : e.1 ∉ (es.map Prod.fst).filter fun key => Glob.isMatch tokens key.toList :=
        fun hmem => hmatch (List.mem_filter.mp hmem).2
      rw [if_neg hmatch, removeAll_cons_of_not_mem hnot, ih, Bool.eq_false_of_not_eq_true hmatch]
      rfl

/-- Every entry stays or matches. -/
theorem size_keep (tokens : List GlobToken) (entries : Dict String) :
    (keep tokens entries).size + entries.entries.countP (fun e => Glob.isMatch tokens e.1.toList)
      = entries.size := by
  have hparts := List.length_eq_length_filter_add (l := entries.entries)
    fun e : String × String => Glob.isMatch tokens e.1.toList
  rw [List.countP_eq_length_filter, Nat.add_comm]
  exact hparts.symm

/-! ## Operations -/

theorem get_eq {c : Cache} (h : c.isEnabled = true) (key : String) :
    c.get key = (c.entries.get? key,
      { c with counters :=
          if (c.entries.get? key).isSome then c.counters.hit else c.counters.miss }) := by
  unfold get
  rw [if_pos h]
  cases c.entries.get? key with
  | none => rfl
  | some body => rfl

theorem invalidate_of_parse {c : Cache} (h : c.isEnabled = true) {pattern : String}
    {tokens : List GlobToken} (hparse : Glob.parse? pattern = .ok tokens) :
    let removed := c.entries.entries.countP fun e => Glob.isMatch tokens e.1.toList
    c.invalidate pattern = .ok (removed,
      { c with entries := keep tokens c.entries, counters := c.counters.invalidate removed }) := by
  unfold invalidate
  rw [if_pos h, hparse]
  simp only [removeAll_matching]

theorem invalidate_of_refused {c : Cache} (h : c.isEnabled = true) {pattern : String}
    {e : GlobError} (hparse : Glob.parse? pattern = .error e) :
    c.invalidate pattern = .error (.invalidPattern pattern e) := by
  unfold invalidate
  rw [if_pos h, hparse]

theorem get?_keep (tokens : List GlobToken) (entries : Dict String) (key : String) :
    (keep tokens entries).get? key =
      if Glob.isMatch tokens key.toList then none else entries.get? key := by
  show (entries.entries.filter fun e => !Glob.isMatch tokens e.1.toList).lookup key = _
  rw [Dict.lookup_filter fun k => !Glob.isMatch tokens k.toList]
  cases Glob.isMatch tokens key.toList with
  | false => rfl
  | true => rfl

/-- **An invalidation takes entries away** and brings none in. -/
theorem invalidate_eq_ok {c c' : Cache} {pattern : String} {n : Nat}
    (h : c.invalidate pattern = .ok (n, c')) :
    c'.isEnabled = c.isEnabled ∧ ∀ e ∈ c'.entries.entries, e ∈ c.entries.entries := by
  by_cases henabled : c.isEnabled = true
  · cases hparse : Glob.parse? pattern with
    | error e =>
      rw [invalidate_of_refused henabled hparse] at h
      exact absurd h nofun
    | ok tokens =>
      rw [invalidate_of_parse henabled hparse, Except.ok.injEq, Prod.mk.injEq] at h
      rw [← h.2]
      exact ⟨rfl, fun e he => (List.mem_filter.mp he).1⟩
  · unfold invalidate at h
    rw [if_neg henabled, Except.ok.injEq, Prod.mk.injEq] at h
    rw [← h.2]
    exact ⟨rfl, fun e he => he⟩

end MockServer.Cache
