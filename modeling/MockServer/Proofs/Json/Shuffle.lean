/-
  MockServer.Proofs.Json.Shuffle — the order of members.

  The value of a document does not depend on the order in which its
  objects list their members, as long as no object names a member
  twice.  `Shuffled` relates the documents that differ in that order
  only, at any depth; settling a document is one way to shuffle it, and
  all shufflings settle to one document.

  Main definitions:
    * `Distinct` — no object of the document repeats a name;
    * `Shuffled` — members in another order, at any depth;
    * `IsText` — the texts of a document, members in any order.

  Main results:
    * `Shuffled.settle_eq` — the order of the members is lost;
    * `shuffled_settle` — a settled document is a shuffling;
    * `parseChars?_of_isText` — a text is read as a shuffling.
-/
import MockServer.Proofs.Dict
import MockServer.Proofs.Json.Reading

namespace MockServer.Json

/-! ## Distinct names -/

mutual

/-- Does no object of the document repeat a name? -/
def Distinct : Json → Prop
  | .arr items => DistinctItems items
  | .obj members => (members.map Prod.fst).Nodup ∧ DistinctMembers members
  | .null | .bool _ | .num _ | .str _ => True

/-- The same for every item. -/
def DistinctItems : List Json → Prop
  | [] => True
  | v :: rest => Distinct v ∧ DistinctItems rest

/-- The same for the value of every member. -/
def DistinctMembers : List (String × Json) → Prop
  | [] => True
  | (_, v) :: rest => Distinct v ∧ DistinctMembers rest

end

/-! ## Items and members one by one -/

theorem distinctItems_iff (items : List Json) : DistinctItems items ↔ ∀ v ∈ items, Distinct v := by
  induction items with
  | nil => simp [DistinctItems]
  | cons v rest ih => rw [DistinctItems, ih, List.forall_mem_cons]

theorem distinctMembers_iff (members : List (String × Json)) :
    DistinctMembers members ↔ ∀ m ∈ members, Distinct m.2 := by
  induction members with
  | nil => simp [DistinctMembers]
  | cons m rest ih => rw [DistinctMembers, ih, List.forall_mem_cons]

theorem itemDepth_le_iff (items : List Json) (d : Nat) :
    itemDepth items ≤ d ↔ ∀ v ∈ items, depth v ≤ d := by
  induction items with
  | nil => simp [itemDepth]
  | cons v rest ih => rw [itemDepth, Nat.max_le, ih, List.forall_mem_cons]

theorem memberDepth_le_iff (members : List (String × Json)) (d : Nat) :
    memberDepth members ≤ d ↔ ∀ m ∈ members, depth m.2 ≤ d := by
  induction members with
  | nil => simp [memberDepth]
  | cons m rest ih => rw [memberDepth, Nat.max_le, ih, List.forall_mem_cons]

theorem mem_itemNumbers {items : List Json} {n : JsonNumber} :
    n ∈ itemNumbers items ↔ ∃ v ∈ items, n ∈ numbers v := by
  induction items with
  | nil => simp [itemNumbers]
  | cons v rest ih => rw [itemNumbers, List.mem_append, ih, List.exists_mem_cons_iff]

theorem mem_memberNumbers {members : List (String × Json)} {n : JsonNumber} :
    n ∈ memberNumbers members ↔ ∃ m ∈ members, n ∈ numbers m.2 := by
  induction members with
  | nil => simp [memberNumbers]
  | cons m rest ih => rw [memberNumbers, List.mem_append, ih, List.exists_mem_cons_iff]

theorem settleItems_eq_map (items : List Json) : settleItems items = items.map settle := by
  induction items with
  | nil => rfl
  | cons v rest ih => rw [settleItems, ih, List.map_cons]

theorem settleMembers_eq_map (members : List (String × Json)) :
    settleMembers members = members.map fun m => (m.1, settle m.2) := by
  induction members with
  | nil => rfl
  | cons m rest ih => rw [settleMembers, ih, List.map_cons]

theorem map_fst_settleMembers (members : List (String × Json)) :
    (settleMembers members).map Prod.fst = members.map Prod.fst := by
  rw [settleMembers_eq_map, List.map_map]
  rfl

/-! ## Shufflings -/

/-- The document with the members of its objects in another order. -/
inductive Shuffled : Json → Json → Prop where
  | refl (v : Json) : Shuffled v v
  | trans {u v w : Json} : Shuffled u v → Shuffled v w → Shuffled u w
  /-- The members of the outermost object change places. -/
  | perm {ms ns : List (String × Json)} : ms.Perm ns → Shuffled (.obj ms) (.obj ns)
  /-- An item is shuffled. -/
  | item {v w : Json} (pre post : List Json) : Shuffled v w →
      Shuffled (.arr (pre ++ v :: post)) (.arr (pre ++ w :: post))
  /-- The value of a member is shuffled. -/
  | member {v w : Json} (pre : List (String × Json)) (name : String)
      (post : List (String × Json)) : Shuffled v w →
      Shuffled (.obj (pre ++ (name, v) :: post)) (.obj (pre ++ (name, w) :: post))

namespace Shuffled

variable {v w : Json}

theorem distinct (h : Shuffled v w) (hv : Distinct v) : Distinct w := by
  induction h with
  | refl => exact hv
  | trans _ _ ih₁ ih₂ => exact ih₂ (ih₁ hv)
  | perm hperm =>
    rw [Distinct, distinctMembers_iff] at hv ⊢
    exact ⟨(hperm.map Prod.fst).nodup_iff.mp hv.1, fun m hm => hv.2 m (hperm.mem_iff.mpr hm)⟩
  | item pre post _ ih =>
    rw [Distinct, distinctItems_iff, List.forall_mem_append, List.forall_mem_cons] at hv ⊢
    exact ⟨hv.1, ih hv.2.1, hv.2.2⟩
  | member pre name post _ ih =>
    rw [Distinct, distinctMembers_iff, List.forall_mem_append, List.forall_mem_cons,
      List.map_append, List.map_cons] at hv ⊢
    exact ⟨hv.1, hv.2.1, ih hv.2.2.1, hv.2.2.2⟩

/-- Shuffling does not nest containers any deeper. -/
theorem depth_le (h : Shuffled v w) {d : Nat} (hv : depth v ≤ d) : depth w ≤ d := by
  induction h generalizing d with
  | refl => exact hv
  | trans _ _ ih₁ ih₂ => exact ih₂ (ih₁ hv)
  | perm hperm =>
    -- an object takes one level for itself
    obtain ⟨e, rfl⟩ : ∃ e, d = e + 1 := ⟨d - 1, by rw [depth] at hv; omega⟩
    rw [depth, Nat.add_le_add_iff_right, memberDepth_le_iff] at hv ⊢
    exact fun m hm => hv m (hperm.mem_iff.mpr hm)
  | item pre post _ ih =>
    obtain ⟨e, rfl⟩ : ∃ e, d = e + 1 := ⟨d - 1, by rw [depth] at hv; omega⟩
    rw [depth, Nat.add_le_add_iff_right, itemDepth_le_iff, List.forall_mem_append,
      List.forall_mem_cons] at hv ⊢
    exact ⟨hv.1, ih hv.2.1, hv.2.2⟩
  | member pre name post _ ih =>
    obtain ⟨e, rfl⟩ : ∃ e, d = e + 1 := ⟨d - 1, by rw [depth] at hv; omega⟩
    rw [depth, Nat.add_le_add_iff_right, memberDepth_le_iff, List.forall_mem_append,
      List.forall_mem_cons] at hv ⊢
    exact ⟨hv.1, ih hv.2.1, hv.2.2⟩

/-- Shuffling brings in no numbers. -/
theorem mem_numbers (h : Shuffled v w) {n : JsonNumber} (hn : n ∈ numbers w) : n ∈ numbers v := by
  induction h with
  | refl => exact hn
  | trans _ _ ih₁ ih₂ => exact ih₁ (ih₂ hn)
  | perm hperm =>
    rw [numbers, mem_memberNumbers] at hn ⊢
    obtain ⟨m, hm, hmem⟩ := hn
    exact ⟨m, hperm.mem_iff.mpr hm, hmem⟩
  | item pre post _ ih =>
    simp only [numbers, mem_itemNumbers, List.mem_append, List.mem_cons, or_and_right, exists_or,
      exists_eq_left] at hn ⊢
    exact hn.imp id (Or.imp ih id)
  | member pre name post _ ih =>
    simp only [numbers, mem_memberNumbers, List.mem_append, List.mem_cons, or_and_right, exists_or,
      exists_eq_left] at hn ⊢
    exact hn.imp id (Or.imp ih id)

/-- **All shufflings of a document with distinct names settle to one document.** -/
theorem settle_eq (h : Shuffled v w) (hv : Distinct v) : settle w = settle v := by
  induction h with
  | refl => rfl
  | trans h₁ _ ih₁ ih₂ => rw [ih₂ (h₁.distinct hv), ih₁ hv]
  | perm hperm =>
    rw [Distinct] at hv
    -- the settled members are in another order as well, and the table hides it
    have hsettled := hperm.map fun m => (m.1, settle m.2)
    rw [← settleMembers_eq_map, ← settleMembers_eq_map] at hsettled
    rw [settle, settle, Dict.ofList_eq_of_perm (by rw [map_fst_settleMembers]; exact hv.1) hsettled]
  | item pre post _ ih =>
    rw [Distinct, distinctItems_iff, List.forall_mem_append, List.forall_mem_cons] at hv
    rw [settle, settle, settleItems_eq_map, settleItems_eq_map, List.map_append, List.map_append,
      List.map_cons, List.map_cons, ih hv.2.1]
  | member pre name post _ ih =>
    rw [Distinct, distinctMembers_iff, List.forall_mem_append, List.forall_mem_cons] at hv
    rw [settle, settle, settleMembers_eq_map, settleMembers_eq_map, List.map_append,
      List.map_append, List.map_cons, List.map_cons, ih hv.2.2.1]

end Shuffled

mutual

/-- **A document of distinct names is shuffled into its settled form.** -/
theorem shuffled_settle : ∀ v : Json, Distinct v → Shuffled v (settle v)
  | .null, _ => .refl _
  | .bool _, _ => .refl _
  | .num _, _ => .refl _
  | .str _, _ => .refl _
  | .arr items, h => by
    rw [settle]
    exact shuffled_settleItems [] items h
  | .obj members, h => by
    rw [settle]
    -- first the values are settled in their places, then the members are ordered
    have hnames : ((settleMembers members).map Prod.fst).Nodup := by
      rw [map_fst_settleMembers]
      exact h.1
    exact (shuffled_settleMembers [] members h.2).trans
      (.perm (Dict.entries_ofList_perm hnames).symm)

/-- The items after some that are settled already. -/
theorem shuffled_settleItems : ∀ pre items : List Json, DistinctItems items →
    Shuffled (.arr (pre ++ items)) (.arr (pre ++ settleItems items))
  | _, [], _ => .refl _
  | pre, v :: rest, h => by
    have hrest := shuffled_settleItems (pre ++ [settle v]) rest h.2
    rw [List.append_assoc, List.append_assoc] at hrest
    exact (Shuffled.item pre rest (shuffled_settle v h.1)).trans hrest

/-- The members after some that are settled already. -/
theorem shuffled_settleMembers : ∀ pre members : List (String × Json), DistinctMembers members →
    Shuffled (.obj (pre ++ members)) (.obj (pre ++ settleMembers members))
  | _, [], _ => .refl _
  | pre, (name, v) :: rest, h => by
    have hrest := shuffled_settleMembers (pre ++ [(name, settle v)]) rest h.2
    rw [List.append_assoc, List.append_assoc] at hrest
    exact (Shuffled.member pre name rest (shuffled_settle v h.1)).trans hrest

end

/-! ## Texts -/

/-- Is this a text of the document, with the members of every object in some order? -/
def IsText (v : Json) (cs : List Char) : Prop :=
  ∃ w, Shuffled v w ∧ JsonToken.Text (tokens w) cs

/-- A text of a document of at most 127 levels is read as a shuffling of it. -/
theorem parseChars?_of_isText {v : Json} {cs : List Char} (hdepth : depth v ≤ maxOpen)
    (h : IsText v cs) : ∃ w, Shuffled v w ∧ parseChars? cs = some w := by
  obtain ⟨w, hw, htext⟩ := h
  exact ⟨w, hw, parseChars?_of_text (hw.depth_le hdepth) htext⟩

end MockServer.Json
