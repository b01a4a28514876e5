/-
  MockServer.Proofs.Dict — tables built from lists of entries.

  Putting two entries of different names into a table gives the same
  table in either order.  So a list of entries with distinct names can
  be put in any order first, and the table holds exactly the entries of
  the list.  When names repeat, the last entry for a name is found.  The
  entries of a table are increasing, so two tables are compared by
  looking up names.

  Main definition:
    * `Increasing` — entries in the strict order of their names.

  Main results:
    * `insertEntry_comm` — two entries in either order;
    * `get?_ofList` — the last entry for a name counts;
    * `forall₂_of_lookup` — equal look-ups, entry by entry;
    * `ofList_eq_of_perm` — the order of distinct entries is lost;
    * `entries_ofList_perm` — no entry of a distinct list is lost.
-/
import Mathlib.Data.List.Induction
import Mathlib.Data.List.Nodup
import Mathlib.Data.String.Basic
import MockServer.Dict

namespace MockServer.Dict

variable {α : Type}

theorem isEmpty_iff {d : Dict α} : d.isEmpty = true ↔ d = empty := by
  obtain ⟨entries⟩ := d
  unfold isEmpty empty
  rw [List.isEmpty_iff, mk.injEq]

/-! ## Order of insertion -/

theorem insertEntry_self (k : String) (v w : α) (rest : List (String × α)) :
    insertEntry k v ((k, w) :: rest) = (k, v) :: rest :=
  if_pos rfl

theorem insertEntry_lt {name k : String} (h : name < k) (v w : α) (rest : List (String × α)) :
    insertEntry name v ((k, w) :: rest) = (name, v) :: (k, w) :: rest :=
  (if_neg (ne_of_lt h)).trans (if_pos h)

theorem insertEntry_gt {name k : String} (h : k < name) (v w : α) (rest : List (String × α)) :
    insertEntry name v ((k, w) :: rest) = (k, w) :: insertEntry name v rest :=
  (if_neg (ne_of_gt h)).trans (if_neg (lt_asymm h))

/-- The two orders agree already when the smaller name is known. -/
theorem insertEntry_comm_of_lt {a b : String} (h : a < b) (v w : α) (es : List (String × α)) :
    insertEntry b w (insertEntry a v es) = insertEntry a v (insertEntry b w es) := by
  induction es with
  | nil =>
    show insertEntry b w [(a, v)] = insertEntry a v [(b, w)]
    rw [insertEntry_gt h, insertEntry_lt h]
    rfl
  | cons e rest ih =>
    obtain ⟨k, x⟩ := e
    rcases lt_trichotomy a k with hak | hak | hak
    · -- the smaller name goes to the front either way
      rw [insertEntry_lt hak, insertEntry_gt h]
      rcases lt_trichotomy b k with hbk | hbk | hbk
      · rw [insertEntry_lt hbk, insertEntry_lt h]
      · rw [hbk, insertEntry_self, insertEntry_lt hak]
      · rw [insertEntry_gt hbk, insertEntry_lt hak]
    · rw [← hak, insertEntry_self, insertEntry_gt h, insertEntry_gt h, insertEntry_self]
    · have hbk : k < b := lt_trans hak h
      rw [insertEntry_gt hak, insertEntry_gt hbk, insertEntry_gt hbk, insertEntry_gt hak, ih]

/-- **Entries of different names can be put in either order.** -/
theorem insertEntry_comm {a b : String} (h : a ≠ b) (v w : α) (es : List (String × α)) :
    insertEntry b w (insertEntry a v es) = insertEntry a v (insertEntry b w es) := by
  rcases lt_or_gt_of_ne h with hlt | hgt
  · exact insertEntry_comm_of_lt hlt v w es
  · exact (insertEntry_comm_of_lt hgt w v es).symm

/-! ## Entries -/

theorem mem_of_get? {d : Dict α} {name : String} {v : α} (h : d.get? name = some v) :
    (name, v) ∈ d.entries := by
  obtain ⟨before, after, heq, -⟩ := List.lookup_eq_some_iff.mp h
  rw [heq]
  exact List.mem_append_right _ List.mem_cons_self

theorem mem_insertEntry {name : String} {v : α} {e : String × α} {es : List (String × α)}
    (h : e ∈ insertEntry name v es) : e = (name, v) ∨ e ∈ es := by
  induction es with
  | nil => exact Or.inl (List.mem_singleton.mp h)
  | cons f rest ih =>
    obtain ⟨k, x⟩ := f
    rcases lt_trichotomy name k with hlt | heq | hgt
    · rw [insertEntry_lt hlt] at h
      exact List.mem_cons.mp h
    · rw [← heq, insertEntry_self] at h
      exact (List.mem_cons.mp h).imp id (List.mem_cons_of_mem _)
    · rw [insertEntry_gt hgt] at h
      rcases List.mem_cons.mp h with hhead | hrest
      · exact Or.inr (List.mem_cons.mpr (Or.inl hhead))
      · exact (ih hrest).imp id (List.mem_cons_of_mem _)

/-- A table after an insertion holds the new entry and old ones. -/
theorem mem_insert {d : Dict α} {name : String} {v : α} {e : String × α}
    (h : e ∈ (d.insert name v).entries) : e = (name, v) ∨ e ∈ d.entries :=
  mem_insertEntry h

/-- The entries of a table are among those it was built from. -/
theorem mem_ofList {e : String × α} {es : List (String × α)} (h : e ∈ (ofList es).entries) :
    e ∈ es := by
  induction es using List.reverseRecOn with
  | nil => exact absurd h List.not_mem_nil
  | append_singleton es f ih =>
    unfold ofList at ih h
    rw [List.foldl_append] at h
    rw [List.mem_append, List.mem_singleton]
    exact (mem_insert h).elim Or.inr fun hrest => Or.inl (ih hrest)

theorem insertEntry_map {β : Type} (f : α → β) (name : String) (v : α) (es : List (String × α)) :
    insertEntry name (f v) (es.map fun e => (e.1, f e.2))
      = (insertEntry name v es).map fun e => (e.1, f e.2) := by
  induction es with
  | nil => rfl
  | cons e rest ih =>
    obtain ⟨k, x⟩ := e
    rw [List.map_cons, insertEntry, insertEntry, ih]
    split_ifs <;> rfl

/-- **Where values go in a table does not depend on what they are.** -/
theorem entries_ofList_map {β : Type} (f : α → β) (es : List (String × α)) :
    (ofList (es.map fun e => (e.1, f e.2))).entries
      = (ofList es).entries.map fun e => (e.1, f e.2) := by
  induction es using List.reverseRecOn with
  | nil => rfl
  | append_singleton es e ih =>
    unfold ofList at ih ⊢
    rw [List.map_append, List.foldl_append, List.foldl_append]
    show insertEntry e.1 (f e.2) _ = _
    rw [ih, insertEntry_map]
    rfl

/-! ## Look-ups -/

theorem lookup_cons_eq (name k : String) (v : α) (es : List (String × α)) :
    ((k, v) :: es).lookup name = if name = k then some v else es.lookup name := by
  rw [List.lookup_cons]
  by_cases hname : name = k
  · rw [if_pos hname, beq_iff_eq.mpr hname]
  · rw [if_neg hname, beq_eq_false_iff_ne.mpr hname]

theorem erase_cons_eq (name : String) (e : String × α) (es : List (String × α)) :
    erase ⟨e :: es⟩ name = if e.1 = name then ⟨es⟩ else ⟨e :: (erase ⟨es⟩ name).entries⟩ := by
  unfold erase
  rw [List.eraseP_cons]
  by_cases hname : e.1 = name
  · rw [if_pos hname, beq_iff_eq.mpr hname]
    rfl
  · rw [if_neg hname, beq_eq_false_iff_ne.mpr hname]
    rfl

theorem contains_cons_eq (name : String) (e : String × α) (es : List (String × α)) :
    contains ⟨e :: es⟩ name = if name = e.1 then true else contains ⟨es⟩ name := by
  unfold contains get?
  rw [lookup_cons_eq]
  split
  · rfl
  · rfl

theorem lookup_map {β : Type} (f : α → β) (es : List (String × α)) (name : String) :
    (es.map fun e => (e.1, f e.2)).lookup name = (es.lookup name).map f := by
  induction es with
  | nil => rfl
  | cons e es ih =>
    rw [List.map_cons, lookup_cons_eq, lookup_cons_eq, ih]
    split <;> rfl

/-- A choice among names keeps the look-ups of the names it keeps. -/
theorem lookup_filter (p : String → Bool) (es : List (String × α)) (name : String) :
    (es.filter fun e => p e.1).lookup name = if p name then es.lookup name else none := by
  induction es with
  | nil => exact (ite_self none).symm
  | cons e es ih =>
    obtain ⟨k, v⟩ := e
    rw [List.filter_cons, lookup_cons_eq]
    by_cases hk : p k = true
    · rw [if_pos hk, lookup_cons_eq, ih]
      by_cases hname : name = k
      · rw [if_pos hname, if_pos hname, hname, if_pos hk]
      · rw [if_neg hname, if_neg hname]
    · rw [if_neg hk, ih]
      by_cases hname : name = k
      · rw [hname, if_neg hk, if_neg hk]
      · rw [if_neg hname]

theorem isSome_lookup_iff (es : List (String × α)) (name : String) :
    (es.lookup name).isSome ↔ name ∈ es.map Prod.fst := by
  induction es with
  | nil => exact ⟨nofun, nofun⟩
  | cons e es ih =>
    obtain ⟨k, v⟩ := e
    rw [lookup_cons_eq, List.map_cons, List.mem_cons, ← ih]
    by_cases hname : name = k
    · rw [if_pos hname]
      exact ⟨fun _ => Or.inl hname, fun _ => rfl⟩
    · rw [if_neg hname]
      exact ⟨Or.inr, fun h => h.resolve_left hname⟩

/-- Entries that agree one by one are found alike. -/
theorem rel_lookup {β : Type} {R : α → β → Prop} {es : List (String × α)} {fs : List (String × β)}
    (h : List.Forall₂ (fun e f => e.1 = f.1 ∧ R e.2 f.2) es fs) (name : String) :
    Option.Rel R (es.lookup name) (fs.lookup name) := by
  induction h with
  | nil => exact .none
  | cons hef _ ih =>
    rw [lookup_cons_eq, lookup_cons_eq, hef.1]
    split
    · exact .some hef.2
    · exact ih

theorem lookup_insertEntry (name k : String) (v : α) (es : List (String × α)) :
    (insertEntry k v es).lookup name = if name = k then some v else es.lookup name := by
  induction es with
  | nil => exact lookup_cons_eq name k v []
  | cons e rest ih =>
    obtain ⟨l, x⟩ := e
    rcases lt_trichotomy k l with hlt | heq | hgt
    · rw [insertEntry_lt hlt, lookup_cons_eq]
    · rw [← heq, insertEntry_self, lookup_cons_eq, lookup_cons_eq]
      split <;> rfl
    · rw [insertEntry_gt hgt, lookup_cons_eq, ih, lookup_cons_eq]
      -- the entry that is passed over has another name
      by_cases hname : name = l
      · rw [if_pos hname, if_pos hname, if_neg (hname ▸ ne_of_lt hgt)]
      · rw [if_neg hname, if_neg hname]

/-- **Of the entries for a name the last one counts.** -/
theorem get?_ofList (es : List (String × α)) (name : String) :
    (ofList es).get? name = es.reverse.lookup name := by
  induction es using List.reverseRecOn with
  | nil => rfl
  | append_singleton es e ih =>
    unfold ofList at ih ⊢
    rw [List.foldl_append, List.reverse_append]
    show (insertEntry e.1 e.2 _).lookup name = (e :: es.reverse).lookup name
    rw [lookup_insertEntry, lookup_cons_eq, ← ih]
    rfl

/-! ## Increasing names -/

/-- Do the entries have strictly increasing names? -/
def Increasing (es : List (String × α)) : Prop := es.Pairwise fun e f => e.1 < f.1

theorem increasing_insertEntry (k : String) (v : α) {es : List (String × α)}
    (h : Increasing es) : Increasing (insertEntry k v es) := by
  unfold Increasing at h ⊢
  induction es with
  | nil => exact List.pairwise_singleton _ _
  | cons e rest ih =>
    obtain ⟨l, x⟩ := e
    have hrest := List.pairwise_cons.mp h
    rcases lt_trichotomy k l with hlt | heq | hgt
    · rw [insertEntry_lt hlt, List.pairwise_cons, List.forall_mem_cons]
      exact ⟨⟨hlt, fun f hf => lt_trans hlt (hrest.1 f hf)⟩, h⟩
    · subst heq
      rw [insertEntry_self, List.pairwise_cons]
      exact hrest
    · rw [insertEntry_gt hgt, List.pairwise_cons]
      refine ⟨fun f hf => ?_, ih hrest.2⟩
      rcases mem_insertEntry hf with rfl | hmem
      · exact hgt
      · exact hrest.1 f hmem

/-- The entries of a table have strictly increasing names. -/
theorem increasing_ofList (es : List (String × α)) : Increasing (ofList es).entries := by
  induction es using List.reverseRecOn with
  | nil => exact List.Pairwise.nil
  | append_singleton es e ih =>
    unfold ofList at ih ⊢
    rw [List.foldl_append]
    exact increasing_insertEntry e.1 e.2 ih

/-- The first of increasing entries has a name that the rest do not have. -/
theorem Increasing.lookup_head {k : String} {v : α} {es : List (String × α)}
    (h : Increasing ((k, v) :: es)) {name : String} (hname : name ≤ k) :
    es.lookup name = none := by
  rw [List.lookup_eq_none_iff]
  intro e he
  exact bne_iff_ne.mpr (ne_of_lt (lt_of_le_of_lt hname ((List.pairwise_cons.mp h).1 e he)))

theorem Increasing.nodup_names {es : List (String × α)} (h : Increasing es) :
    (es.map Prod.fst).Nodup :=
  List.pairwise_map.mpr (h.imp fun hlt => ne_of_lt hlt)

/-- An insertion adds an entry exactly for a name that is new. -/
theorem length_insertEntry (k : String) (v : α) {es : List (String × α)} (h : Increasing es) :
    (insertEntry k v es).length = es.length + if (es.lookup k).isNone then 1 else 0 := by
  induction es with
  | nil => rfl
  | cons e rest ih =>
    obtain ⟨l, x⟩ := e
    rcases lt_trichotomy k l with hlt | heq | hgt
    · rw [insertEntry_lt hlt, lookup_cons_eq, if_neg (ne_of_lt hlt), h.lookup_head (le_of_lt hlt)]
      rfl
    · rw [← heq, insertEntry_self, List.lookup_cons_self]
      rfl
    · rw [insertEntry_gt hgt, lookup_cons_eq, if_neg (ne_of_gt hgt), List.length_cons, ih h.of_cons,
        List.length_cons]
      omega

/-- Increasing entries are found from either end. -/
theorem Increasing.lookup_reverse {es : List (String × α)} (h : Increasing es) (name : String) :
    es.reverse.lookup name = es.lookup name := by
  induction es with
  | nil => rfl
  | cons e es ih =>
    obtain ⟨k, v⟩ := e
    rw [List.reverse_cons, List.lookup_append, ih h.of_cons, lookup_cons_eq, lookup_cons_eq]
    by_cases hname : name = k
    · rw [if_pos hname, if_pos hname, h.lookup_head (le_of_eq hname), Option.none_or]
    · rw [if_neg hname, if_neg hname, List.lookup_nil, Option.or_none]

/-- **Increasing entries are compared by looking up names.** -/
theorem forall₂_of_lookup {β : Type} {R : α → β → Prop} {es : List (String × α)}
    {fs : List (String × β)} (hes : Increasing es) (hfs : Increasing fs)
    (h : ∀ name, Option.Rel R (es.lookup name) (fs.lookup name)) :
    List.Forall₂ (fun e f => e.1 = f.1 ∧ R e.2 f.2) es fs := by
  induction es generalizing fs with
  | nil =>
    cases fs with
    | nil => exact List.Forall₂.nil
    | cons f fs =>
      have hfirst := h f.1
      rw [List.lookup_cons_self] at hfirst
      exact absurd hfirst nofun
  | cons e es ih =>
    obtain ⟨k, v⟩ := e
    cases fs with
    | nil =>
      have hfirst := h k
      rw [List.lookup_cons_self] at hfirst
      exact absurd hfirst nofun
    | cons f fs =>
      obtain ⟨l, w⟩ := f
      have hk := h k
      have hl := h l
      rw [List.lookup_cons_self, lookup_cons_eq] at hk
      rw [List.lookup_cons_self, lookup_cons_eq] at hl
      -- the smaller of two different first names is missing on the other side
      rcases lt_trichotomy k l with hlt | rfl | hgt
      · rw [if_neg (ne_of_lt hlt), hfs.lookup_head (le_of_lt hlt)] at hk
        exact absurd hk nofun
      · rw [if_pos rfl] at hk
        refine List.Forall₂.cons ⟨rfl, by cases hk; assumption⟩ (ih hes.of_cons hfs.of_cons ?_)
        intro name
        by_cases hname : name = k
        · rw [hname, hes.lookup_head (le_refl k), hfs.lookup_head (le_refl k)]
          exact Option.Rel.none
        · have hrest := h name
          rwa [lookup_cons_eq, lookup_cons_eq, if_neg hname, if_neg hname] at hrest
      · rw [if_neg (ne_of_lt hgt), hes.lookup_head (le_of_lt hgt)] at hl
        exact absurd hl nofun

/-! ## Lists with distinct names -/

theorem eq_of_name_eq {es : List (String × α)} (h : (es.map Prod.fst).Nodup) {x y : String × α}
    (hx : x ∈ es) (hy : y ∈ es) (hxy : x.1 = y.1) : x = y :=
  List.inj_on_of_nodup_map h hx hy hxy

/-- **A table does not show the order of the distinct entries it was built from.** -/
theorem ofList_eq_of_perm {es fs : List (String × α)} (h : (es.map Prod.fst).Nodup)
    (hperm : es.Perm fs) : ofList es = ofList fs := by
  apply hperm.foldl_eq'
  intro x hx y hy d
  -- entries of one name are one entry
  by_cases hxy : x.1 = y.1
  · rw [eq_of_name_eq h hx hy hxy]
  · exact congrArg Dict.mk (insertEntry_comm hxy x.2 y.2 d.entries)

theorem insertEntry_perm (name : String) (v : α) (es : List (String × α))
    (h : name ∉ es.map Prod.fst) : (insertEntry name v es).Perm ((name, v) :: es) := by
  induction es with
  | nil => exact List.Perm.refl _
  | cons e rest ih =>
    obtain ⟨k, x⟩ := e
    rw [List.map_cons, List.mem_cons, not_or] at h
    rcases lt_or_gt_of_ne h.1 with hlt | hgt
    · rw [insertEntry_lt hlt]
    · rw [insertEntry_gt hgt]
      exact ((ih h.2).cons (k, x)).trans (List.Perm.swap _ _ _)

theorem entries_foldl_insert_perm (es : List (String × α)) (d : Dict α)
    (h : ((d.entries ++ es).map Prod.fst).Nodup) :
    (es.foldl (fun d e => d.insert e.1 e.2) d).entries.Perm (d.entries ++ es) := by
  induction es generalizing d with
  | nil => rw [List.append_nil]; exact List.Perm.refl _
  | cons e es ih =>
    -- the entry is new to the table, so inserting it only adds it
    have hmiddle : (d.entries ++ e :: es).Perm (e :: (d.entries ++ es)) := List.perm_middle
    have hfresh : e.1 ∉ d.entries.map Prod.fst := by
      intro hmem
      have hnodup := (hmiddle.map Prod.fst).nodup_iff.mp h
      rw [List.map_cons, List.nodup_cons, List.map_append] at hnodup
      exact hnodup.1 (List.mem_append_left _ hmem)
    have hinsert : ((d.insert e.1 e.2).entries ++ es).Perm (d.entries ++ e :: es) :=
      ((insertEntry_perm e.1 e.2 d.entries hfresh).append_right es).trans hmiddle.symm
    rw [List.foldl_cons]
    exact (ih _ ((hinsert.map Prod.fst).nodup_iff.mpr h)).trans hinsert

/-- **A table of distinct entries holds exactly these entries.** -/
theorem entries_ofList_perm {es : List (String × α)} (h : (es.map Prod.fst).Nodup) :
    (ofList es).entries.Perm es :=
  entries_foldl_insert_perm es empty h

/-- A table whose names are in order is the table of its entries. -/
theorem ofList_entries {d : Dict α} (h : Increasing d.entries) : ofList d.entries = d := by
  have hperm := entries_ofList_perm h.nodup_names
  refine congrArg Dict.mk (hperm.eq_of_pairwise ?_ (increasing_ofList d.entries) h)
  exact fun e f _ _ hlt hgt => absurd (lt_trans hlt hgt) (lt_irrefl _)

end MockServer.Dict
