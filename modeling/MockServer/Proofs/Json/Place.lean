/-
  MockServer.Proofs.Json.Place — places in a document.

  A document with a place left open can be filled with any value.  The
  value can be seen there unless a member on the way is hidden by a
  later one with its name; then the filled documents have one meaning
  exactly when the values have.

  Main definitions:
    * `Place` — a document with a place left open;
    * `Place.Visible` — no member on the way is hidden.

  Main result:
    * `Place.same_fill_iff` — what a document with a place means.
-/
import MockServer.Proofs.Json.Readable

namespace MockServer.Json

/-- A document with a place left open. -/
inductive Place where
  | here
  | item (before : List Json) (inner : Place) (after : List Json)
  | member (before : List (String × Json)) (name : String) (inner : Place)
      (after : List (String × Json))

namespace Place

/-- The document with a value at the place. -/
def fill : Place → Json → Json
  | here, v => v
  | item before inner after, v => .arr (before ++ inner.fill v :: after)
  | member before name inner after, v => .obj (before ++ (name, inner.fill v) :: after)

/-- Is no member on the way hidden by a later one of its name? -/
def Visible : Place → Prop
  | here => True
  | item _ inner _ => inner.Visible
  | member _ name inner after => name ∉ after.map Prod.fst ∧ inner.Visible

theorem member?_fill {before after : List (String × Json)} {name : String}
    (h : name ∉ after.map Prod.fst) (v : Json) :
    (obj (before ++ (name, v) :: after)).member? name = some v := by
  have hnone : after.reverse.lookup name = none := by
    rw [List.lookup_eq_none_iff]
    intro m hm
    rw [bne_iff_ne]
    rintro rfl
    exact h (List.mem_map_of_mem (List.mem_reverse.mp hm))
  show (before ++ (name, v) :: after).reverse.lookup name = some v
  rw [List.reverse_append, List.reverse_cons, List.append_assoc, List.lookup_append, hnone,
    Option.none_or, List.singleton_append, Dict.lookup_cons_eq, if_pos rfl]

variable {num : JsonNumber → List Char}

theorem same_refl (hnum : Spelling num) (v : Json) : Same num v v :=
  same_of_settle (same_of_write_eq hnum rfl)

/-- **Documents with a value at a place have one meaning exactly when the values have.**  The
induction is on the way to the place. -/
theorem same_fill_iff (hnum : Spelling num) {p : Place} (hp : p.Visible) {v w : Json} :
    Same num (p.fill v) (p.fill w) ↔ Same num v w := by
  induction p with
  | here => exact Iff.rfl
  | item before inner after ih =>
    rw [← ih hp]
    constructor
    · intro h
      cases h with
      | arr _ hitems =>
        have hplace : ∀ x : Json, (before ++ x :: after)[before.length]? = some x := by
          intro x
          rw [List.getElem?_append_right (Nat.le_refl _), Nat.sub_self]
          rfl
        exact hitems before.length _ _ (hplace _) (hplace _)
    · intro h
      have hrest : ∀ xs : List Json, List.Forall₂ (Same num) xs xs :=
        fun xs => List.forall₂_same.mpr fun x _ => same_refl hnum x
      exact same_arr (List.rel_append (hrest before) (.cons h (hrest after)))
  | member before name inner after ih =>
    rw [← ih hp.2]
    constructor
    · intro h
      cases h with
      | obj _ hvalues =>
        exact hvalues name _ _ (member?_fill hp.1 _) (member?_fill hp.1 _)
    · intro h
      have hrest : ∀ ms : List (String × Json),
          List.Forall₂ (fun m n => m.1 = n.1 ∧ Same num m.2 n.2) ms ms :=
        fun ms => List.forall₂_same.mpr fun m _ => ⟨rfl, same_refl hnum m.2⟩
      exact same_obj (List.rel_append (hrest before) (.cons ⟨rfl, h⟩ (hrest after)))

end Place

end MockServer.Json
