/-
  MockServer.Proofs.Json.Same — documents with one meaning.

  Two documents are the same when objects are taken as tables from
  names to values, arrays item by item, and numbers by a spelling of
  them.  A settled document is written the same way for all of them,
  and documents whose settled forms are the same are the same.

  Main definition:
    * `Same` — documents with one meaning, at every depth.

  Main results:
    * `Same.write_settle` — one text for all documents with one meaning;
    * `same_of_settle` — settling takes nothing from the meaning.
-/
import MockServer.Json.Printer
import MockServer.Proofs.Dict
import MockServer.Proofs.Json.Shuffle

namespace MockServer.Json

/-- Documents with one meaning, where numbers count by their spelling. -/
inductive Same (num : JsonNumber → List Char) : Json → Json → Prop where
  | null : Same num .null .null
  | bool (b : Bool) : Same num (.bool b) (.bool b)
  | num {m n : JsonNumber} : num m = num n → Same num (.num m) (.num n)
  | str (s : String) : Same num (.str s) (.str s)
  /-- As many items, and the same items at the same places. -/
  | arr {xs ys : List Json} : xs.length = ys.length →
      (∀ (i : Nat) (v w : Json), xs[i]? = some v → ys[i]? = some w → Same num v w) →
      Same num (.arr xs) (.arr ys)
  /-- The same names, and the same values for the same names. -/
  | obj {ms ns : List (String × Json)} :
      (∀ name, ((obj ms).member? name).isSome = ((obj ns).member? name).isSome) →
      (∀ (name : String) (v w : Json), (obj ms).member? name = some v →
        (obj ns).member? name = some w → Same num v w) →
      Same num (.obj ms) (.obj ns)

variable {num : JsonNumber → List Char}

/-! ## Items and members -/

/-- Two lists are compared item by item by looking at their places. -/
theorem forall₂_iff_getElem? {α β : Type} {R : α → β → Prop} {xs : List α} {ys : List β} :
    List.Forall₂ R xs ys ↔
      xs.length = ys.length ∧
        ∀ (i : Nat) (x : α) (y : β), xs[i]? = some x → ys[i]? = some y → R x y := by
  rw [List.forall₂_iff_get]
  refine and_congr_right fun hlen => ⟨fun h i x y hx hy => ?_, fun h i hi hj => ?_⟩
  · obtain ⟨hi, rfl⟩ := List.getElem?_eq_some_iff.mp hx
    obtain ⟨hj, rfl⟩ := List.getElem?_eq_some_iff.mp hy
    exact h i hi hj
  · exact h i _ _ (List.getElem?_eq_getElem hi) (List.getElem?_eq_getElem hj)

/-- Two look-ups agree when they find something for the same names. -/
theorem rel_iff {α β : Type} {R : α → β → Prop} {a : Option α} {b : Option β} :
    Option.Rel R a b ↔
      a.isSome = b.isSome ∧ ∀ (x : α) (y : β), a = some x → b = some y → R x y := by
  cases a <;> cases b <;> simp

theorem same_arr {xs ys : List Json} (h : List.Forall₂ (Same num) xs ys) :
    Same num (.arr xs) (.arr ys) :=
  .arr (forall₂_iff_getElem?.mp h).1 (forall₂_iff_getElem?.mp h).2

theorem same_obj {ms ns : List (String × Json)}
    (h : List.Forall₂ (fun m n => m.1 = n.1 ∧ Same num m.2 n.2) ms ns) :
    Same num (.obj ms) (.obj ns) := by
  -- the last of repeated names counts on both sides
  have hrel := fun name => rel_iff.mp (Dict.rel_lookup (List.rel_reverse h) name)
  exact .obj (fun name => (hrel name).1) fun name => (hrel name).2

/-! ## Settled documents -/

/-- A settled object finds the settled values. -/
theorem get?_settleMembers (ms : List (String × Json)) (name : String) :
    (Dict.ofList (settleMembers ms)).get? name = ((obj ms).member? name).map settle := by
  rw [Dict.get?_ofList, settleMembers_eq_map, ← List.map_reverse]
  exact Dict.lookup_map settle ms.reverse name

theorem writeItems_congr {xs ys : List Json}
    (h : List.Forall₂ (fun v w => write num v = write num w) xs ys) :
    writeItems num xs = writeItems num ys := by
  induction h with
  | nil => rfl
  | cons hvw _ ih => rw [writeItems, writeItems, hvw, ih]

theorem writeMembers_congr {ms ns : List (String × Json)}
    (h : List.Forall₂ (fun m n => m.1 = n.1 ∧ write num m.2 = write num n.2) ms ns) :
    writeMembers num ms = writeMembers num ns := by
  induction h with
  | nil => rfl
  | @cons m n _ _ hmn _ ih => rw [writeMembers, writeMembers, hmn.1, hmn.2, ih]

theorem write_arr_congr {xs ys : List Json}
    (h : List.Forall₂ (fun v w => write num v = write num w) xs ys) :
    write num (.arr xs) = write num (.arr ys) := by
  cases h with
  | nil => rfl
  | cons hvw hrest => rw [write, write, hvw, writeItems_congr hrest]

theorem write_obj_congr {ms ns : List (String × Json)}
    (h : List.Forall₂ (fun m n => m.1 = n.1 ∧ write num m.2 = write num n.2) ms ns) :
    write num (.obj ms) = write num (.obj ns) := by
  cases h with
  | nil => rfl
  | cons hmn hrest => rw [write, write, hmn.1, hmn.2, writeMembers_congr hrest]

/-- **The settled forms of documents with one meaning are written alike.** -/
theorem Same.write_settle {v w : Json} (h : Same num v w) :
    write num v.settle = write num w.settle := by
  induction h with
  | null => rfl
  | bool b => rfl
  | num hnum => exact hnum
  | str s => rfl
  | arr hlen _ ih =>
    rw [settle, settle, settleItems_eq_map, settleItems_eq_map]
    apply write_arr_congr
    rw [List.forall₂_map_left_iff, List.forall₂_map_right_iff]
    exact forall₂_iff_getElem?.mpr ⟨hlen, ih⟩
  | @obj ms ns hnames _ ih =>
    rw [settle, settle]
    apply write_obj_congr
    refine Dict.forall₂_of_lookup (R := fun v w => write num v = write num w)
      (Dict.increasing_ofList _) (Dict.increasing_ofList _) fun name => ?_
    show Option.Rel _ ((Dict.ofList (settleMembers ms)).get? name)
      ((Dict.ofList (settleMembers ns)).get? name)
    rw [get?_settleMembers, get?_settleMembers, rel_iff, Option.isSome_map, Option.isSome_map]
    refine ⟨hnames name, fun x y hx hy => ?_⟩
    obtain ⟨v, hv, rfl⟩ := Option.map_eq_some_iff.mp hx
    obtain ⟨w, hw, rfl⟩ := Option.map_eq_some_iff.mp hy
    exact ih name v w hv hw

/-- The look-up in a settled object. -/
theorem member?_settle (ms : List (String × Json)) (name : String) :
    (settle (.obj ms)).member? name = ((obj ms).member? name).map settle := by
  rw [settle, ← get?_settleMembers]
  exact (Dict.increasing_ofList _).lookup_reverse name

theorem eq_of_settle_eq {v s : Json} (h : v.settle = s) (harr : ∀ xs, s ≠ .arr xs)
    (hobj : ∀ ms, s ≠ .obj ms) : v = s := by
  cases v with
  | arr xs => exact absurd h.symm (harr _)
  | obj ms => exact absurd h.symm (hobj _)
  | null | bool | num | str => exact h

theorem settle_eq_arr {v : Json} {xs : List Json} (h : v.settle = .arr xs) :
    ∃ items, v = .arr items ∧ xs = items.map settle := by
  cases v with
  | arr items =>
    rw [settle, settleItems_eq_map] at h
    exact ⟨items, rfl, (arr.inj h).symm⟩
  | _ => exact absurd h nofun

theorem settle_eq_obj {v : Json} {es : List (String × Json)} (h : v.settle = .obj es) :
    ∃ ms, v = .obj ms := by
  cases v with
  | obj ms => exact ⟨ms, rfl⟩
  | _ => exact absurd h nofun

/-- **Documents whose settled forms have one meaning have one meaning.** -/
theorem same_of_settle {v w : Json} (h : Same num v.settle w.settle) : Same num v w := by
  generalize hv : v.settle = v' at h
  generalize hw : w.settle = w' at h
  induction h generalizing v w with
  | null =>
    rw [eq_of_settle_eq hv nofun nofun, eq_of_settle_eq hw nofun nofun]
    exact .null
  | bool b =>
    rw [eq_of_settle_eq hv nofun nofun, eq_of_settle_eq hw nofun nofun]
    exact .bool b
  | num hnum =>
    rw [eq_of_settle_eq hv nofun nofun, eq_of_settle_eq hw nofun nofun]
    exact .num hnum
  | str s =>
    rw [eq_of_settle_eq hv nofun nofun, eq_of_settle_eq hw nofun nofun]
    exact .str s
  | arr hlen _ ih =>
    obtain ⟨xs, rfl, rfl⟩ := settle_eq_arr hv
    obtain ⟨ys, rfl, rfl⟩ := settle_eq_arr hw
    rw [List.length_map, List.length_map] at hlen
    refine .arr hlen fun i x y hx hy => ih i _ _ ?_ ?_ rfl rfl
    · rw [List.getElem?_map, hx, Option.map_some]
    · rw [List.getElem?_map, hy, Option.map_some]
  | obj hnames _ ih =>
    obtain ⟨ms, rfl⟩ := settle_eq_obj hv
    obtain ⟨ns, rfl⟩ := settle_eq_obj hw
    -- the settled members are the settled values of the members
    rw [← hv, ← hw] at hnames ih
    refine .obj (fun name => ?_) fun name x y hx hy => ih name _ _ ?_ ?_ rfl rfl
    · have hname := hnames name
      rwa [member?_settle, member?_settle, Option.isSome_map, Option.isSome_map] at hname
    · rw [member?_settle, hx, Option.map_some]
    · rw [member?_settle, hy, Option.map_some]

end MockServer.Json
