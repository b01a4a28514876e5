/-
  MockServer.Proofs.Url.Lookup — one lookup path for equivalent
  queries.

  Ordering the pairs of a query by name keeps, for every name, the
  sequence of its values, and an ordered list of pairs is determined by
  these sequences.  So two queries have one canonical form exactly when
  they agree name by name, and a canonical form is its own.

  Main definitions:
    * `valuesOf` — the values of a name in their order.

  Main results:
    * `order_eq_of_valuesOf` — the order of different names is lost;
    * `compose_eq_iff` — queries that give one path;
    * `canonical_canonical` — a canonical path stays as it is.
-/
import Mathlib.Data.String.Basic
import MockServer.Proofs.Url.Form
import MockServer.Url.Lookup

namespace MockServer.Url.Lookup

/-! ## Values by name -/

/-- The values of a name in their order. -/
def valuesOf (name : String) (pairs : List (String × String)) : List String :=
  (pairs.filter fun p => p.1 = name).map Prod.snd

/-- Are the pairs ordered by name? -/
def Ordered (pairs : List (String × String)) : Prop := pairs.Pairwise fun p q => p.1 ≤ q.1

theorem valuesOf_append (name : String) (ps qs : List (String × String)) :
    valuesOf name (ps ++ qs) = valuesOf name ps ++ valuesOf name qs := by
  unfold valuesOf
  rw [List.filter_append, List.map_append]

theorem valuesOf_cons (name : String) (p : String × String) (ps : List (String × String)) :
    valuesOf name (p :: ps) = valuesOf name [p] ++ valuesOf name ps :=
  valuesOf_append name [p] ps

theorem valuesOf_self (p : String × String) : valuesOf p.1 [p] = [p.2] := by
  simp [valuesOf]

theorem valuesOf_other {name : String} {p : String × String} (h : p.1 ≠ name) :
    valuesOf name [p] = [] := by
  simp [valuesOf, h]

theorem valuesOf_eq_nil {name : String} {ps : List (String × String)}
    (h : ∀ p ∈ ps, p.1 ≠ name) : valuesOf name ps = [] := by
  unfold valuesOf
  rw [List.map_eq_nil_iff, List.filter_eq_nil_iff]
  intro p hp
  rw [decide_eq_true_eq]
  exact h p hp

/-- A name with values has a pair. -/
theorem exists_of_valuesOf_ne_nil {name : String} {ps : List (String × String)}
    (h : valuesOf name ps ≠ []) : ∃ p ∈ ps, p.1 = name := by
  by_contra hnone
  rw [not_exists] at hnone
  exact h (valuesOf_eq_nil fun p hp heq => hnone p ⟨hp, heq⟩)

/-! ## Ordering -/

theorem mem_place {p q : String × String} {ps : List (String × String)} :
    q ∈ place p ps ↔ q = p ∨ q ∈ ps := by
  induction ps with
  | nil => rw [place, List.mem_singleton, or_iff_left List.not_mem_nil]
  | cons r rest ih =>
    rw [place]
    by_cases h : p.1 < r.1
    · rw [if_pos h, List.mem_cons]
    · rw [if_neg h, List.mem_cons, ih, List.mem_cons, or_left_comm]

theorem ordered_place (p : String × String) {ps : List (String × String)} (h : Ordered ps) :
    Ordered (place p ps) := by
  induction ps with
  | nil => exact List.pairwise_singleton _ _
  | cons q rest ih =>
    obtain ⟨hq, hrest⟩ := List.pairwise_cons.mp h
    rw [place]
    by_cases hlt : p.1 < q.1
    · rw [if_pos hlt]
      refine List.pairwise_cons.mpr ⟨?_, h⟩
      intro r hr
      rcases List.mem_cons.mp hr with rfl | hr
      · exact le_of_lt hlt
      · exact le_trans (le_of_lt hlt) (hq r hr)
    · rw [if_neg hlt]
      refine List.pairwise_cons.mpr ⟨?_, ih hrest⟩
      intro r hr
      rcases mem_place.mp hr with rfl | hr
      · exact not_lt.mp hlt
      · exact hq r hr

/-- A pair is placed behind the pairs of its name. -/
theorem valuesOf_place (name : String) (p : String × String) {ps : List (String × String)}
    (h : Ordered ps) : valuesOf name (place p ps) = valuesOf name ps ++ valuesOf name [p] := by
  induction ps with
  | nil => rfl
  | cons q rest ih =>
    obtain ⟨hq, hrest⟩ := List.pairwise_cons.mp h
    rw [place]
    by_cases hlt : p.1 < q.1
    · rw [if_pos hlt, valuesOf_cons]
      by_cases hname : p.1 = name
      · -- every pair that follows has a greater name
        have hlater : valuesOf name (q :: rest) = [] := by
          apply valuesOf_eq_nil
          intro r hr
          rw [← hname]
          rcases List.mem_cons.mp hr with rfl | hr
          · exact ne_of_gt hlt
          · exact ne_of_gt (lt_of_lt_of_le hlt (hq r hr))
        rw [hlater, List.append_nil, List.nil_append]
      · rw [valuesOf_other hname, List.append_nil, List.nil_append]
    · rw [if_neg hlt, valuesOf_cons, ih hrest, ← List.append_assoc, ← valuesOf_cons]

/-- Placing pair after pair keeps the order and every sequence of values. -/
theorem foldl_place (pairs : List (String × String)) {placed : List (String × String)}
    (h : Ordered placed) :
    Ordered (pairs.foldl (fun placed p => place p placed) placed) ∧
      ∀ name, valuesOf name (pairs.foldl (fun placed p => place p placed) placed)
        = valuesOf name placed ++ valuesOf name pairs := by
  induction pairs generalizing placed with
  | nil => exact ⟨h, fun name => (List.append_nil _).symm⟩
  | cons p pairs ih =>
    obtain ⟨hordered, hvalues⟩ := ih (ordered_place p h)
    refine ⟨hordered, fun name => ?_⟩
    rw [List.foldl_cons, hvalues, valuesOf_place name p h, valuesOf_cons name p pairs,
      List.append_assoc]

theorem ordered_order (pairs : List (String × String)) : Ordered (order pairs) :=
  (foldl_place pairs List.Pairwise.nil).1

theorem valuesOf_order (name : String) (pairs : List (String × String)) :
    valuesOf name (order pairs) = valuesOf name pairs :=
  (foldl_place pairs List.Pairwise.nil).2 name

/-- The first name of an ordered list is the least. -/
theorem head_le {p q : String × String} {ps : List (String × String)} (h : Ordered (p :: ps))
    (hq : q ∈ p :: ps) : p.1 ≤ q.1 := by
  rcases List.mem_cons.mp hq with rfl | hq
  · exact le_refl _
  · exact (List.pairwise_cons.mp h).1 q hq

/-- An ordered list of pairs is determined by the values of each name. -/
theorem eq_of_ordered {ps qs : List (String × String)} (hps : Ordered ps) (hqs : Ordered qs)
    (h : ∀ name, valuesOf name ps = valuesOf name qs) : ps = qs := by
  induction ps generalizing qs with
  | nil =>
    cases qs with
    | nil => rfl
    | cons q qs =>
      have hq := h q.1
      rw [valuesOf_cons, valuesOf_self] at hq
      exact absurd hq (by simp [valuesOf])
  | cons p ps ih =>
    have hp : valuesOf p.1 qs ≠ [] := by
      rw [← h p.1, valuesOf_cons, valuesOf_self]
      exact List.cons_ne_nil _ _
    cases qs with
    | nil => exact absurd rfl hp
    | cons q qs =>
      have hq : valuesOf q.1 (p :: ps) ≠ [] := by
        rw [h q.1, valuesOf_cons, valuesOf_self]
        exact List.cons_ne_nil _ _
      obtain ⟨r, hr, hrp⟩ := exists_of_valuesOf_ne_nil hp
      obtain ⟨r', hr', hrq⟩ := exists_of_valuesOf_ne_nil hq
      -- each first name is the least of its list and occurs in the other one
      have hname : p.1 = q.1 := le_antisymm (hrq ▸ head_le hps hr') (hrp ▸ head_le hqs hr)
      have hvalue := h p.1
      rw [valuesOf_cons, valuesOf_self, valuesOf_cons p.1 q, hname, valuesOf_self,
        List.singleton_append, List.singleton_append] at hvalue
      have hpq : p = q := Prod.ext hname (List.cons.inj hvalue).1
      rw [hpq, ih (List.pairwise_cons.mp hps).2 (List.pairwise_cons.mp hqs).2]
      intro name
      have hrest := h name
      rwa [valuesOf_cons, valuesOf_cons name q, hpq, List.append_cancel_left_eq] at hrest

/-- **The order of different names is lost.** -/
theorem order_eq_of_valuesOf {ps qs : List (String × String)}
    (h : ∀ name, valuesOf name ps = valuesOf name qs) : order ps = order qs := by
  apply eq_of_ordered (ordered_order ps) (ordered_order qs)
  intro name
  rw [valuesOf_order, valuesOf_order, h]

theorem order_order (pairs : List (String × String)) : order (order pairs) = order pairs :=
  order_eq_of_valuesOf fun name => valuesOf_order name pairs

/-! ## Paths -/

/-- **Queries that agree name by name give one path.** -/
theorem compose_eq_of_valuesOf (path : String) {q r : Option String}
    (h : ∀ name, valuesOf name (Form.parse (q.getD "")) = valuesOf name (Form.parse (r.getD ""))) :
    compose path q = compose path r := by
  unfold compose
  rw [order_eq_of_valuesOf h]

/-- A composed path shows the pairs of its query in their order. -/
theorem order_of_compose_eq {path : String} {q r : Option String}
    (h : compose path q = compose path r) :
    order (Form.parse (q.getD "")) = order (Form.parse (r.getD "")) := by
  have hlonger : ∀ pairs, path ≠ String.ofList (path.toList ++ '?' :: Form.serialize pairs) := by
    intro pairs heq
    have hlength := congrArg (fun s : String => s.toList.length) heq
    simp only [String.toList_ofList, List.length_append, List.length_cons] at hlength
    omega
  unfold compose at h
  simp only at h
  split at h <;> split at h
  next hq hr => rw [List.isEmpty_iff.mp hq, List.isEmpty_iff.mp hr]
  -- a path without pairs is shorter than one with pairs
  next => exact absurd h (hlonger _)
  next => exact absurd h.symm (hlonger _)
  next =>
    have htail := List.append_cancel_left (String.ofList_injective h)
    exact Form.serialize_inj (List.cons.inj htail).2

/-- **Queries give one path exactly if they agree name by name.** -/
theorem compose_eq_iff {path : String} {q r : Option String} :
    compose path q = compose path r ↔
      ∀ name, valuesOf name (Form.parse (q.getD "")) = valuesOf name (Form.parse (r.getD "")) := by
  refine ⟨fun h name => ?_, compose_eq_of_valuesOf path⟩
  rw [← valuesOf_order, order_of_compose_eq h, valuesOf_order]

/-- A path that carries its query. -/
def withQuery (path : String) (query : Option String) : String :=
  match query with
  | some q => String.ofList (path.toList ++ '?' :: q.toList)
  | none => path

theorem canonical_withQuery {path : String} (h : '?' ∉ path.toList) (query : Option String) :
    canonical (withQuery path query) = compose path query := by
  unfold canonical withQuery
  cases query with
  | none =>
    simp only [Text.splitFirst_of_not_mem h]
    rfl
  | some q =>
    simp only [String.toList_ofList, Text.splitFirst_append h, String.ofList_toList]

/-- A composed path is canonical. -/
theorem canonical_compose {path : String} (h : '?' ∉ path.toList) (query : Option String) :
    canonical (compose path query) = compose path query := by
  -- a composed path carries the ordered pairs as its query, or no query
  have hcompose : ∃ r, compose path query = withQuery path r ∧
      order (Form.parse (r.getD "")) = order (Form.parse (query.getD "")) := by
    unfold compose
    by_cases hnone : (order (Form.parse (query.getD ""))).isEmpty = true
    · refine ⟨none, if_pos hnone, ?_⟩
      rw [List.isEmpty_iff.mp hnone]
      rfl
    · refine ⟨some (String.ofList (Form.serialize (order (Form.parse (query.getD ""))))), ?_, ?_⟩
      · simp only [withQuery, String.toList_ofList, if_neg hnone]
      · rw [Option.getD_some, Form.parse_serialize, order_order]
  obtain ⟨r, hr, horder⟩ := hcompose
  rw [hr, canonical_withQuery h, ← hr]
  unfold compose
  rw [horder]

/-- **A canonical path stays as it is.** -/
theorem canonical_canonical (pathAndQuery : String) :
    canonical (canonical pathAndQuery) = canonical pathAndQuery := by
  cases hsplit : Text.splitFirst '?' pathAndQuery.toList with
  | none =>
    have hsame : canonical pathAndQuery = pathAndQuery := by
      unfold canonical
      rw [hsplit]
    rw [hsame, hsame]
  | some parts =>
    obtain ⟨path, query⟩ := parts
    -- what stands before the first question mark has none
    have hmem : '?' ∉ (String.ofList path).toList := by
      rw [String.toList_ofList]
      exact (Text.splitFirst_eq_some hsplit).1
    have hcanonical : canonical pathAndQuery
        = compose (String.ofList path) (some (String.ofList query)) := by
      unfold canonical
      rw [hsplit]
    rw [hcanonical, canonical_compose hmem]

end MockServer.Url.Lookup
