/-
  MockServer.Proofs.Text.Split — cutting what was put together.

  A list that is joined with a separator it does not hold is cut into
  its parts again.  A doubled separator may also stand behind a part
  that holds doubled ones, as long as it is not taken for a half of
  one of these.  A pattern is found on one side of an element that it
  does not hold.
-/
import Mathlib.Data.List.Infix
import MockServer.Text.Split

namespace MockServer.Text

variable {α : Type} [DecidableEq α] {sep : α}

/-! ## The first other element -/

omit [DecidableEq α] in
/-- A run of elements with a property ends at the first one without it. -/
theorem takeWhile_append_stop {p : α → Bool} {run rest : List α} (hrun : ∀ x ∈ run, p x = true)
    (hrest : ∀ x ∈ rest.head?, p x = false) :
    (run ++ rest).takeWhile p = run ∧ (run ++ rest).dropWhile p = rest := by
  rw [List.takeWhile_append_of_pos hrun, List.dropWhile_append_of_pos hrun]
  cases rest with
  | nil => exact ⟨List.append_nil run, rfl⟩
  | cons x rest =>
    have hx : ¬ p x = true := by rw [hrest x rfl]; exact Bool.false_ne_true
    rw [List.takeWhile_cons_of_neg hx, List.dropWhile_cons_of_neg hx]
    exact ⟨List.append_nil run, rfl⟩

/-! ## The first separator -/

theorem splitFirst_append {before : List α} (h : sep ∉ before) (after : List α) :
    splitFirst sep (before ++ sep :: after) = some (before, after) := by
  induction before with
  | nil => exact if_pos rfl
  | cons x before ih =>
    rw [List.mem_cons, not_or] at h
    rw [List.cons_append, splitFirst, if_neg (Ne.symm h.1), ih h.2]
    rfl

theorem splitFirst_of_not_mem {xs : List α} (h : sep ∉ xs) : splitFirst sep xs = none := by
  induction xs with
  | nil => rfl
  | cons x xs ih =>
    rw [List.mem_cons, not_or] at h
    rw [splitFirst, if_neg (Ne.symm h.1), ih h.2]
    rfl

/-- The part before the first separator does not hold it. -/
theorem splitFirst_eq_some {xs before after : List α}
    (h : splitFirst sep xs = some (before, after)) :
    sep ∉ before ∧ xs = before ++ sep :: after := by
  induction xs generalizing before after with
  | nil => exact absurd h (by simp [splitFirst])
  | cons x xs ih =>
    rw [splitFirst] at h
    by_cases hx : x = sep
    · rw [if_pos hx, Option.some_inj, Prod.mk.injEq] at h
      rw [← h.1, ← h.2, hx]
      exact ⟨List.not_mem_nil, rfl⟩
    · rw [if_neg hx, Option.map_eq_some_iff] at h
      obtain ⟨⟨b, a⟩, hsplit, heq⟩ := h
      rw [Prod.mk.injEq] at heq
      obtain ⟨hmem, hxs⟩ := ih hsplit
      rw [← heq.1, ← heq.2, hxs, List.mem_cons, not_or]
      exact ⟨⟨Ne.symm hx, hmem⟩, rfl⟩

/-! ## Every separator -/

omit [DecidableEq α] in
theorem consFirst_append (x : α) {pieces : List (List α)} (h : pieces ≠ [])
    (more : List (List α)) : consFirst x (pieces ++ more) = consFirst x pieces ++ more := by
  cases pieces with
  | nil => exact absurd rfl h
  | cons piece pieces => rfl

theorem splitOn_ne_nil (sep : α) (xs : List α) : splitOn sep xs ≠ [] := by
  cases xs with
  | nil => exact List.cons_ne_nil _ _
  | cons x xs =>
    rw [splitOn]
    split
    next => exact List.cons_ne_nil _ _
    next => cases splitOn sep xs <;> exact List.cons_ne_nil _ _

/-- **A separator cuts a list**, and what is on either side of it is cut on its own. -/
theorem splitOn_append_cons (sep : α) (xs ys : List α) :
    splitOn sep (xs ++ sep :: ys) = splitOn sep xs ++ splitOn sep ys := by
  induction xs with
  | nil => exact if_pos rfl
  | cons x xs ih =>
    rw [List.cons_append, splitOn, splitOn, ih]
    by_cases hx : x = sep
    · rw [if_pos hx, if_pos hx, List.cons_append]
    · rw [if_neg hx, if_neg hx, consFirst_append x (splitOn_ne_nil sep xs)]

theorem splitOn_of_not_mem {xs : List α} (h : sep ∉ xs) : splitOn sep xs = [xs] := by
  induction xs with
  | nil => rfl
  | cons x xs ih =>
    rw [List.mem_cons, not_or] at h
    rw [splitOn, if_neg (Ne.symm h.1), ih h.2]
    rfl

theorem splitOn_append {piece : List α} (h : sep ∉ piece) (rest : List α) :
    splitOn sep (piece ++ sep :: rest) = piece :: splitOn sep rest := by
  rw [splitOn_append_cons, splitOn_of_not_mem h, List.singleton_append]

/-- The pieces do not hold the separator. -/
theorem not_mem_of_mem_splitOn {xs piece : List α} (h : piece ∈ splitOn sep xs) : sep ∉ piece := by
  induction xs generalizing piece with
  | nil =>
    rw [List.mem_singleton.mp h]
    exact List.not_mem_nil
  | cons x xs ih =>
    rw [splitOn] at h
    by_cases hx : x = sep
    · rw [if_pos hx] at h
      rcases List.mem_cons.mp h with rfl | hrest
      · exact List.not_mem_nil
      · exact ih hrest
    · rw [if_neg hx] at h
      obtain ⟨first, rest, hsplit⟩ := List.exists_cons_of_ne_nil (splitOn_ne_nil sep xs)
      rw [hsplit] at h ih
      rcases List.mem_cons.mp h with rfl | hrest
      · -- the first piece is one element longer, and that element is none
        intro hmem
        rcases List.mem_cons.mp hmem with heq | hfirst
        · exact hx heq.symm
        · exact ih List.mem_cons_self hfirst
      · exact ih (List.mem_cons_of_mem first hrest)

/-- The pieces with the separator between them are the list. -/
theorem intercalate_splitOn (sep : α) (xs : List α) : [sep].intercalate (splitOn sep xs) = xs := by
  induction xs with
  | nil => rfl
  | cons x xs ih =>
    obtain ⟨piece, rest, hsplit⟩ := List.exists_cons_of_ne_nil (splitOn_ne_nil sep xs)
    rw [splitOn]
    by_cases hx : x = sep
    · rw [if_pos hx, hsplit, List.intercalate_cons_cons, ← hsplit, ih, hx]
      rfl
    · rw [if_neg hx]
      rw [hsplit] at ih ⊢
      rw [← ih]
      cases rest with
      | nil => rfl
      | cons _ _ => rw [consFirst, List.intercalate_cons_cons, List.intercalate_cons_cons]; rfl

/-- **Parts that do not hold the separator are the pieces** of what they make with it. -/
theorem splitOn_intercalate {parts : List (List α)} (hparts : ∀ part ∈ parts, sep ∉ part)
    (hne : parts ≠ []) : splitOn sep ([sep].intercalate parts) = parts := by
  induction parts with
  | nil => exact absurd rfl hne
  | cons part rest ih =>
    rw [List.forall_mem_cons] at hparts
    cases rest with
    | nil =>
      rw [List.intercalate_singleton]
      exact splitOn_of_not_mem hparts.1
    | cons next rest =>
      rw [List.intercalate_cons_cons, List.append_assoc, List.singleton_append,
        splitOn_append hparts.1, ih hparts.2 (List.cons_ne_nil next rest)]

theorem splitOn_eq_pair_iff {xs before after : List α} :
    splitOn sep xs = [before, after] ↔ xs = before ++ sep :: after ∧ sep ∉ before ∧ sep ∉ after := by
  constructor
  · intro h
    have hxs := intercalate_splitOn sep xs
    rw [h, List.intercalate_cons_cons, List.intercalate_singleton, List.append_assoc] at hxs
    exact ⟨hxs.symm, not_mem_of_mem_splitOn (by rw [h]; exact List.mem_cons_self),
      not_mem_of_mem_splitOn (by rw [h]; exact List.mem_cons_of_mem _ List.mem_cons_self)⟩
  · rintro ⟨rfl, hbefore, hafter⟩
    rw [splitOn_append hbefore, splitOn_of_not_mem hafter]

/-! ## Every doubled separator -/

theorem splitPair_of_not_mem {xs : List α} (h : sep ∉ xs) : splitPair sep sep xs = [xs] := by
  fun_induction splitPair sep sep xs with
  | case1 => rfl
  | case2 x => rfl
  | case3 x y rest hxy ih => exact absurd (List.mem_cons.mpr (Or.inl hxy.1.symm)) h
  | case4 x y rest hxy ih =>
    rw [ih fun hmem => h (List.mem_cons_of_mem x hmem)]
    rfl

theorem splitPair_ne_nil (xs : List α) : splitPair sep sep xs ≠ [] := by
  fun_induction splitPair sep sep xs with
  | case1 => exact List.cons_ne_nil _ _
  | case2 x => exact List.cons_ne_nil _ _
  | case3 x y rest hxy ih => exact List.cons_ne_nil _ _
  | case4 x y rest hxy ih =>
    unfold consFirst
    split <;> exact List.cons_ne_nil _ _

/-- **A doubled separator cuts a list**, unless the part before it ends with half of another. -/
theorem splitPair_append {xs : List α} (h : xs.getLast? ≠ some sep) (ys : List α) :
    splitPair sep sep (xs ++ sep :: sep :: ys) = splitPair sep sep xs ++ splitPair sep sep ys := by
  have hpair : splitPair sep sep (sep :: sep :: ys) = [] :: splitPair sep sep ys :=
    if_pos ⟨rfl, rfl⟩
  fun_induction splitPair sep sep xs with
  | case1 => exact hpair
  | case2 x =>
    have hx : ¬ (x = sep ∧ sep = sep) := fun hx => h (congrArg some hx.1)
    rw [List.singleton_append, splitPair, if_neg hx, hpair]
    rfl
  | case3 x y rest hxy ih =>
    -- what follows a pair ends as the whole does, if there is anything
    have hrest : rest.getLast? ≠ some sep := by
      intro hlast
      rw [List.getLast?_cons_cons, hxy.2] at h
      cases rest with
      | nil => exact absurd hlast (by simp)
      | cons z zs => exact h hlast
    rw [List.cons_append, List.cons_append, splitPair, if_pos hxy, ih hrest]
    rfl
  | case4 x y rest hxy ih =>
    have hne : splitPair sep sep (y :: rest) ≠ [] := splitPair_ne_nil _
    obtain ⟨piece, pieces, hpieces⟩ := List.exists_cons_of_ne_nil hne
    rw [List.getLast?_cons_cons] at h
    rw [List.cons_append, List.cons_append, splitPair, if_neg hxy, ← List.cons_append, ih h,
      hpieces]
    rfl

/-! ## Patterns -/

theorem after?_eq_some_iff {pat xs rest : List α} :
    after? pat xs = some rest ↔ xs = pat ++ rest := by
  induction pat generalizing xs with
  | nil => exact Option.some_inj
  | cons p pat ih =>
    cases xs with
    | nil => exact ⟨nofun, nofun⟩
    | cons x xs =>
      rw [after?, List.cons_append, List.cons.injEq]
      by_cases hp : p = x
      · rw [if_pos hp, ih]
        exact ⟨fun h => ⟨hp.symm, h⟩, fun h => h.2⟩
      · rw [if_neg hp]
        exact ⟨nofun, fun h => absurd h.1.symm hp⟩

omit [DecidableEq α] in
/-- A pattern does not reach over an element that it does not hold. -/
theorem prefix_of_append_cons {pat xs ys rest : List α} {x : α} (hx : x ∉ pat)
    (h : xs ++ x :: ys = pat ++ rest) : pat <+: xs := by
  obtain ⟨more, hpat, hrest⟩ | ⟨more, hxs, -⟩ := List.append_eq_append_iff.mp h
  · cases more with
    | nil =>
      rw [List.append_nil] at hpat
      exact ⟨[], by rw [hpat, List.append_nil]⟩
    | cons y more =>
      have hy : x = y := (List.cons.inj hrest).1
      refine absurd ?_ hx
      rw [hpat, hy]
      exact List.mem_append_right xs List.mem_cons_self
  · exact ⟨more, hxs.symm⟩

theorem after?_isSome_iff {pat xs : List α} : (after? pat xs).isSome = true ↔ pat <+: xs := by
  rw [Option.isSome_iff_exists]
  exact ⟨fun ⟨rest, h⟩ => ⟨rest, (after?_eq_some_iff.mp h).symm⟩,
    fun ⟨rest, h⟩ => ⟨rest, after?_eq_some_iff.mpr h.symm⟩⟩

theorem occurs_cons (pat : List α) (x : α) (xs : List α) :
    occurs pat (x :: xs) = ((after? pat (x :: xs)).isSome || occurs pat xs) := by
  unfold occurs
  rw [splitAt?]
  cases after? pat (x :: xs) with
  | some rest => rfl
  | none =>
    rw [Option.isSome_map]
    rfl

/-- **A pattern occurs where it stands within a list.** -/
theorem occurs_iff {pat xs : List α} : occurs pat xs = true ↔ pat <:+: xs := by
  induction xs with
  | nil =>
    unfold occurs
    rw [splitAt?, Option.isSome_map, List.infix_nil, Option.isSome_iff_exists]
    cases pat with
    | nil => exact ⟨fun _ => rfl, fun _ => ⟨[], rfl⟩⟩
    | cons p pat => exact ⟨nofun, nofun⟩
  | cons x xs ih =>
    rw [occurs_cons, Bool.or_eq_true, ih, List.infix_cons_iff, after?_isSome_iff]

theorem splitAt?_nil {pat : List α} (hpat : pat ≠ []) : splitAt? pat [] = none := by
  cases pat with
  | nil => exact absurd rfl hpat
  | cons p pat => rfl

theorem splitAt?_cons (pat : List α) (x : α) (xs : List α) :
    splitAt? pat (x :: xs) = match after? pat (x :: xs) with
      | some after => some ([], after)
      | none => (splitAt? pat xs).map fun (before, after) => (x :: before, after) := rfl

/-- A pattern that starts a list ends before an element that it does not hold. -/
theorem after?_append_cons {pat : List α} {x : α} (hx : x ∉ pat) (xs ys : List α) :
    after? pat (xs ++ x :: ys) = (after? pat xs).map (· ++ x :: ys) := by
  cases hxs : after? pat xs with
  | some rest =>
    rw [after?_eq_some_iff.mp hxs, List.append_assoc]
    exact after?_eq_some_iff.mpr rfl
  | none =>
    rw [Option.map_none, Option.eq_none_iff_forall_ne_some]
    intro rest hrest
    obtain ⟨more, hmore⟩ := prefix_of_append_cons hx (after?_eq_some_iff.mp hrest)
    rw [after?_eq_some_iff.mpr hmore.symm] at hxs
    exact absurd hxs (Option.some_ne_none more)

/-- **A pattern is found on one side of an element that it does not hold**, first in front of it. -/
theorem splitAt?_append_cons {pat : List α} {x : α} (hx : x ∉ pat) (hpat : pat ≠ [])
    (xs ys : List α) :
    splitAt? pat (xs ++ x :: ys) = match splitAt? pat xs with
      | some (before, after) => some (before, after ++ x :: ys)
      | none => (splitAt? pat ys).map fun (before, after) => (xs ++ x :: before, after) := by
  induction xs with
  | nil =>
    have hstart : after? pat (x :: ys) = none := by
      rw [show x :: ys = [] ++ x :: ys from rfl, after?_append_cons hx]
      cases pat with
      | nil => exact absurd rfl hpat
      | cons p pat => rfl
    rw [List.nil_append, splitAt?_cons, hstart, splitAt?_nil hpat]
    rfl
  | cons z xs ih =>
    rw [List.cons_append, splitAt?_cons, splitAt?_cons, ← List.cons_append, after?_append_cons hx, ih]
    cases after? pat (z :: xs) with
    | some rest => rfl
    | none =>
      cases splitAt? pat xs with
      | some parts => rfl
      | none => exact Option.map_map _ _ _

/-- A pattern occurs on one side of an element that it does not hold. -/
theorem occurs_append_cons {pat : List α} {x : α} (hx : x ∉ pat) (hpat : pat ≠ [])
    (xs ys : List α) : occurs pat (xs ++ x :: ys) = (occurs pat xs || occurs pat ys) := by
  unfold occurs
  rw [splitAt?_append_cons hx hpat]
  cases splitAt? pat xs with
  | some parts => rfl
  | none => exact Option.isSome_map

/-- A pattern is found where the list starts with it. -/
theorem splitAt?_self {pat : List α} (hpat : pat ≠ []) (ys : List α) :
    splitAt? pat (pat ++ ys) = some ([], ys) := by
  obtain ⟨p, rest, rfl⟩ := List.exists_cons_of_ne_nil hpat
  rw [List.cons_append, splitAt?_cons, ← List.cons_append, after?_eq_some_iff.mpr rfl]

theorem occurs_eq_false_iff {pat xs : List α} : occurs pat xs = false ↔ splitAt? pat xs = none := by
  unfold occurs
  rw [Option.isSome_eq_false_iff, Option.isNone_iff_eq_none]

end MockServer.Text
