/-
  MockServer.Proofs.Run.Grouping — the brackets of a condition.

  The groups of a condition are removed one by one: the bracket that
  opens last is taken with the first one that closes behind it, and the
  word for the value of the group stands in their place.  Every such
  step takes one opening and one closing bracket, so the steps come to
  an end, and only the brackets decide how: the condition is malformed
  exactly when some bracket is never closed.  Values of variables, and
  what a comparison comes to, have no part in that.

  The induction is on the text from its end, where the bracket that
  opens last is; what it carries is the balance of the brackets that
  are left.

  Main definitions:
    * `Unclosed` — more brackets open than close from somewhere on;
    * `Collapses` — one step, which replaces the group that opens last.

  Main results:
    * `ungroup_eq_none_iff` — when the groups cannot be removed;
    * `wellFounded_collapses` — the steps come to an end;
    * `ungroup_eq_some_iff` — and leave what `ungroup` gives;
    * `malformed_iff_unclosed` — when a condition is malformed.
-/
import Mathlib.Data.List.Infix
import Mathlib.Logic.Relation
import Mathlib.Order.WellFounded
import MockServer.Proofs.Run.Condition

namespace MockServer.Run.Condition

variable {scope : Dict String}

/-! ## Balance -/

/-- Is a bracket never closed?  Then more brackets open than close from this bracket on. -/
def Unclosed (cs : List Char) : Prop := ∃ tail, tail <:+ cs ∧ tail.count ')' < tail.count '('

instance (cs : List Char) : Decidable (Unclosed cs) :=
  decidable_of_iff (∃ tail ∈ cs.tails, tail.count ')' < tail.count '(')
    (by simp only [Unclosed, List.mem_tails])

theorem unclosed_cons {c : Char} {cs : List Char} :
    Unclosed (c :: cs) ↔ (c :: cs).count ')' < (c :: cs).count '(' ∨ Unclosed cs := by
  constructor
  · rintro ⟨tail, htail, hcount⟩
    rcases List.suffix_cons_iff.mp htail with rfl | htail
    · exact Or.inl hcount
    · exact Or.inr ⟨tail, htail, hcount⟩
  · rintro (hcount | ⟨tail, htail, hcount⟩)
    · exact ⟨c :: cs, List.suffix_refl _, hcount⟩
    · exact ⟨tail, htail.trans (List.suffix_cons c cs), hcount⟩

/-- What stands in front closes nothing. -/
theorem Unclosed.append {cs : List Char} (h : Unclosed cs) (front : List Char) :
    Unclosed (front ++ cs) := by
  obtain ⟨tail, htail, hcount⟩ := h
  exact ⟨tail, htail.trans (List.suffix_append front cs), hcount⟩

theorem Unclosed.open_mem {cs : List Char} (h : Unclosed cs) : '(' ∈ cs := by
  obtain ⟨tail, htail, hcount⟩ := h
  exact htail.mem (List.count_pos_iff.mp (Nat.zero_lt_of_lt hcount))

theorem open_not_mem_word (b : Bool) : '(' ∉ word b := by
  cases b <;> decide

theorem close_not_mem_word (b : Bool) : ')' ∉ word b := by
  cases b <;> decide

/-- **Removing the groups removes every opening bracket, and one closing bracket for each.** -/
theorem count_ungroup {cs rest : List Char} (h : ungroup scope cs = some rest) :
    '(' ∉ rest ∧ rest.count ')' + cs.count '(' = cs.count ')' := by
  induction cs generalizing rest with
  | nil =>
    rw [← Option.some.inj h]
    exact ⟨List.not_mem_nil, rfl⟩
  | cons c cs ih =>
    rw [ungroup] at h
    cases htail : ungroup scope cs with
    | none => simp only [htail, reduceCtorEq] at h
    | some left =>
      obtain ⟨hopen, hcount⟩ := ih htail
      simp only [htail] at h
      by_cases hc : c = '('
      · -- the group of this bracket ends at the first closing bracket that is left
        subst hc
        rw [if_pos rfl, Option.map_eq_some_iff] at h
        obtain ⟨⟨inner, after⟩, hsplit, rfl⟩ := h
        obtain ⟨hinner, rfl⟩ := Text.splitFirst_eq_some hsplit
        have hafter : '(' ∉ after := fun hmem =>
          hopen (List.mem_append_right _ (List.mem_cons_of_mem _ hmem))
        rw [List.count_append, List.count_cons_self, List.count_eq_zero.mpr hinner] at hcount
        dsimp only
        rw [List.count_append, List.count_cons_self, List.count_cons_of_ne (by decide),
          List.count_eq_zero.mpr (close_not_mem_word _), List.mem_append, not_or]
        exact ⟨⟨open_not_mem_word _, hafter⟩, by omega⟩
      · rw [if_neg hc, Option.some_inj] at h
        subst h
        rw [List.mem_cons, not_or, List.count_cons_of_ne hc, List.count_cons, List.count_cons]
        exact ⟨⟨Ne.symm hc, hopen⟩, by omega⟩

/-- **The groups cannot be removed exactly when a bracket is never closed.** -/
theorem ungroup_eq_none_iff {cs : List Char} : ungroup scope cs = none ↔ Unclosed cs := by
  induction cs with
  | nil =>
    exact ⟨fun h => absurd h (Option.some_ne_none _), fun h => absurd h.open_mem List.not_mem_nil⟩
  | cons c cs ih =>
    rw [unclosed_cons, ← ih, ungroup]
    cases htail : ungroup scope cs with
    | none => simp only [or_true]
    | some left =>
      obtain ⟨-, hcount⟩ := count_ungroup htail
      simp only [reduceCtorEq, or_false]
      by_cases hc : c = '('
      · subst hc
        rw [if_pos rfl, Option.map_eq_none_iff, List.count_cons_of_ne (by decide),
          List.count_cons_self]
        constructor
        · intro hsplit
          have hclose : ')' ∉ left := by
            intro hmem
            obtain ⟨inner, after, rfl, hinner⟩ := List.eq_append_cons_of_mem hmem
            rw [Text.splitFirst_append hinner] at hsplit
            exact absurd hsplit (Option.some_ne_none _)
          rw [List.count_eq_zero.mpr hclose] at hcount
          omega
        · intro hlt
          exact Text.splitFirst_of_not_mem (List.count_eq_zero.mp (by omega))
      · rw [if_neg hc, List.count_cons_of_ne hc, List.count_cons]
        exact ⟨fun h => absurd h (Option.some_ne_none _), fun hlt => by omega⟩

/-! ## Steps -/

/-- One step: the group that opens last is replaced by the word for its value. -/
inductive Collapses (scope : Dict String) : List Char → List Char → Prop where
  | group (before : List Char) {inner after : List Char} :
      '(' ∉ inner → ')' ∉ inner → '(' ∉ after →
      Collapses scope (before ++ '(' :: (inner ++ ')' :: after))
        (before ++ (word (flat scope inner) ++ after))

/-- What is in front of a text sees only what the text becomes. -/
theorem ungroup_append_congr {xs ys : List Char} (h : ungroup scope xs = ungroup scope ys)
    (before : List Char) : ungroup scope (before ++ xs) = ungroup scope (before ++ ys) := by
  induction before with
  | nil => exact h
  | cons c before ih => rw [List.cons_append, List.cons_append, ungroup, ungroup, ih]

/-- **A step does not change what the groups come to.** -/
theorem Collapses.ungroup_eq {cs cs' : List Char} (h : Collapses scope cs cs') :
    ungroup scope cs = ungroup scope cs' := by
  obtain ⟨before, hopen, hclose, hafter⟩ := h
  rename_i inner after
  apply ungroup_append_congr
  have hbehind : ungroup scope (inner ++ ')' :: after) = some (inner ++ ')' :: after) := by
    apply ungroup_of_not_mem
    simp only [List.mem_append, List.mem_cons, not_or]
    exact ⟨hopen, by decide, hafter⟩
  rw [ungroup_group hclose hbehind, ungroup_of_not_mem]
  rw [List.mem_append, not_or]
  exact ⟨open_not_mem_word _, hafter⟩

/-- A step takes one opening bracket. -/
theorem Collapses.count_eq {cs cs' : List Char} (h : Collapses scope cs cs') :
    cs'.count '(' + 1 = cs.count '(' := by
  obtain ⟨before, hopen, hclose, hafter⟩ := h
  simp only [List.count_append, List.count_cons_self, List.count_eq_zero.mpr hopen,
    List.count_eq_zero.mpr hafter, List.count_eq_zero.mpr (open_not_mem_word _),
    List.count_cons_of_ne (show ')' ≠ '(' by decide), Nat.add_assoc]

/-- **The steps come to an end.** -/
theorem wellFounded_collapses (scope : Dict String) :
    WellFounded fun cs' cs => Collapses scope cs cs' := by
  refine Subrelation.wf (r := InvImage (· < ·) (List.count '(')) ?_ (InvImage.wf _ wellFounded_lt)
  intro cs' cs h
  have hcount := h.count_eq
  show cs'.count '(' < cs.count '('
  omega

/-- The last occurrence of an element. -/
theorem exists_last_of_mem {α : Type} {x : α} {xs : List α} (h : x ∈ xs) :
    ∃ before after, xs = before ++ x :: after ∧ x ∉ after := by
  obtain ⟨before, after, hrev, hmem⟩ := List.eq_append_cons_of_mem (List.mem_reverse.mpr h)
  refine ⟨after.reverse, before.reverse, ?_, fun hx => hmem (List.mem_reverse.mp hx)⟩
  rw [← List.reverse_reverse xs, hrev]
  simp only [List.reverse_append, List.reverse_cons, List.append_assoc, List.singleton_append]

/-- A text with a bracket that opens can take a step, if every bracket is closed. -/
theorem exists_collapses {cs : List Char} (hmem : '(' ∈ cs) (hclosed : ¬ Unclosed cs) :
    ∃ cs', Collapses scope cs cs' := by
  obtain ⟨before, tail, rfl, htail⟩ := exists_last_of_mem hmem
  have hclose : ')' ∈ tail := by
    by_contra hnone
    refine hclosed ⟨'(' :: tail, List.suffix_append before _, ?_⟩
    rw [List.count_cons_self, List.count_cons_of_ne (by decide), List.count_eq_zero.mpr hnone]
    omega
  obtain ⟨inner, after, rfl, hinner⟩ := List.eq_append_cons_of_mem hclose
  rw [List.mem_append, List.mem_cons, not_or, not_or] at htail
  exact ⟨_, .group before htail.1 hinner htail.2.2⟩

theorem ungroup_eq_of_reachable {cs rest : List Char}
    (h : Relation.ReflTransGen (Collapses scope) cs rest) :
    ungroup scope cs = ungroup scope rest := by
  induction h with
  | refl => rfl
  | tail _ hstep ih => exact ih.trans hstep.ungroup_eq

/-- **The steps lead to what the groups come to**: the text without an opening bracket. -/
theorem ungroup_eq_some_iff {cs rest : List Char} :
    ungroup scope cs = some rest ↔
      Relation.ReflTransGen (Collapses scope) cs rest ∧ '(' ∉ rest := by
  constructor
  · intro h
    refine ⟨?_, (count_ungroup h).1⟩
    induction cs using (wellFounded_collapses scope).induction with
    | h cs ih =>
      by_cases hmem : '(' ∈ cs
      · have hclosed : ¬ Unclosed cs := fun hunclosed =>
          absurd (ungroup_eq_none_iff.mpr hunclosed) (by rw [h]; exact Option.some_ne_none rest)
        obtain ⟨cs', hstep⟩ : ∃ cs', Collapses scope cs cs' := exists_collapses hmem hclosed
        exact .head hstep (ih cs' hstep (hstep.ungroup_eq ▸ h))
      · rw [ungroup_of_not_mem hmem, Option.some_inj] at h
        rw [h]
  · rintro ⟨hreach, hopen⟩
    rw [ungroup_eq_of_reachable hreach, ungroup_of_not_mem hopen]

/-- Where no step can be taken, a bracket is left exactly if one was never closed. -/
theorem open_mem_iff_of_stuck {cs rest : List Char}
    (hreach : Relation.ReflTransGen (Collapses scope) cs rest)
    (hstuck : ∀ cs', ¬ Collapses scope rest cs') : '(' ∈ rest ↔ Unclosed cs := by
  have hrest : Unclosed cs ↔ Unclosed rest := by
    rw [← @ungroup_eq_none_iff scope, ungroup_eq_of_reachable hreach, ungroup_eq_none_iff]
  rw [hrest]
  constructor
  · intro hmem
    by_contra hclosed
    obtain ⟨cs', hstep⟩ : ∃ cs', Collapses scope rest cs' := exists_collapses hmem hclosed
    exact hstuck cs' hstep
  · exact Unclosed.open_mem

/-! ## Main result -/

/-- A blank condition has no brackets. -/
theorem holds?_eq_none_iff {condition : String} :
    holds? scope condition = none ↔ Unclosed condition.toList := by
  rw [holds?]
  by_cases hblank : Text.isBlankText condition = true
  · rw [if_pos hblank]
    refine ⟨fun h => absurd h (Option.some_ne_none _), fun hunclosed => ?_⟩
    have hmem := hunclosed.open_mem
    exact absurd (List.all_eq_true.mp hblank '(' hmem) (by decide)
  · rw [if_neg hblank, Option.map_eq_none_iff, ungroup_eq_none_iff]

/-- Where no step can be taken and no bracket is left, the value can be read. -/
theorem holds?_of_stuck {condition : String} {rest : List Char}
    (hreach : Relation.ReflTransGen (Collapses scope) condition.toList rest) (hopen : '(' ∉ rest)
    (hblank : Text.isBlankText condition = false) :
    holds? scope condition = some (flat scope rest) := by
  rw [holds?, if_neg (by rw [hblank]; exact Bool.false_ne_true),
    ungroup_eq_some_iff.mpr ⟨hreach, hopen⟩, Option.map_some]

/-- **A condition is malformed exactly when a bracket is never closed**, for all values of the
variables alike.  The groups are removed in steps that come to an end; where no further step can be
taken, a bracket is left exactly if the condition is malformed, and otherwise the value of the
condition is read from what is left.  What stands in front of a malformed condition, such as a part
that would decide the whole, does not hide the error. -/
theorem malformed_iff_unclosed (condition : String) :
    (∀ scope, holds? scope condition = none ↔ Unclosed condition.toList) ∧
    (∀ scope scope', (holds? scope condition).isSome = (holds? scope' condition).isSome) ∧
    (∀ scope, (WellFounded fun cs' cs => Collapses scope cs cs') ∧
      ∀ rest, Relation.ReflTransGen (Collapses scope) condition.toList rest →
        (∀ cs', ¬ Collapses scope rest cs') →
        ('(' ∈ rest ↔ holds? scope condition = none) ∧
        ('(' ∉ rest → Text.isBlankText condition = false →
          holds? scope condition = some (flat scope rest))) ∧
    (∀ scope front, holds? scope condition = none → holds? scope (front ++ condition) = none) := by
  refine ⟨fun scope => holds?_eq_none_iff, fun scope scope' => ?_, fun scope => ?_,
    fun scope front h => ?_⟩
  · have hnone : holds? scope condition = none ↔ holds? scope' condition = none :=
      holds?_eq_none_iff.trans holds?_eq_none_iff.symm
    rw [Bool.eq_iff_iff, ← Option.ne_none_iff_isSome, ← Option.ne_none_iff_isSome]
    exact not_congr hnone
  · refine ⟨wellFounded_collapses scope, fun rest hreach hstuck => ⟨?_, holds?_of_stuck hreach⟩⟩
    rw [holds?_eq_none_iff]
    exact open_mem_iff_of_stuck hreach hstuck
  · rw [holds?_eq_none_iff] at h ⊢
    rw [String.toList_append]
    exact h.append front.toList

/-- A bracket behind a part that is true is missed, and a group that is closed has a value. -/
theorem malformed_behind_truth :
    holds? .empty "(\x7b\x7bforce\x7d\x7d" = none ∧
    holds? .empty ("1 == 1 || " ++ "(\x7b\x7bforce\x7d\x7d") = none ∧
    holds? .empty "(yes)" = some true := by
  have hbehind := (malformed_iff_unclosed "(\x7b\x7bforce\x7d\x7d").1 .empty |>.mpr (by decide)
  have hyes : flat .empty "yes".toList = true := by
    show (leaf .empty "yes".toList && true || false) = true
    rw [leaf_of_not_mem (by decide)]
    decide
  have hstep : Collapses .empty "(yes)".toList (word (flat .empty "yes".toList) ++ []) :=
    @Collapses.group .empty [] "yes".toList [] (by decide) (by decide) (by decide)
  rw [hyes] at hstep
  have hstuck : ∀ cs', ¬ Collapses .empty (word true ++ []) cs' := fun cs' h =>
    absurd h.count_eq (Nat.succ_ne_zero _)
  have hvalue := ((malformed_iff_unclosed "(yes)").2.2.1 .empty).2 _ (.single hstep) hstuck |>.2
    (by decide) (by decide)
  refine ⟨hbehind, (malformed_iff_unclosed _).2.2.2 .empty "1 == 1 || " hbehind, ?_⟩
  rw [hvalue]
  show some (leaf .empty (word true) && true || false) = some true
  rw [leaf_word]
  rfl

end MockServer.Run.Condition
