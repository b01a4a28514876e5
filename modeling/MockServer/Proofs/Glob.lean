/-
  MockServer.Proofs.Glob — patterns for all texts with a given beginning.

  An escaped character is read as one part that accepts this character
  alone: a class of one member if the character means something in a
  pattern, else the character itself.  The induction over a text goes
  from the left and leaves the rest of the pattern open, so a star may
  follow; the star takes whatever is left of the text to be matched.

  Main definition:
    * `literal` — the part that an escaped character is read as.

  Main results:
    * `parse?_escape_star` — an escaped text with a star behind it is a
      pattern, and which one;
    * `isMatch_literal_star` — it matches the texts that begin with the
      text.
-/
import Mathlib.Data.List.Basic
import MockServer.Glob

namespace MockServer.Glob

/-! ## Reading escaped characters -/

/-- Does the character mean something in a pattern? -/
def IsSpecial (c : Char) : Prop := c = '?' ∨ c = '*' ∨ c = '[' ∨ c = ']'

instance (c : Char) : Decidable (IsSpecial c) := inferInstanceAs (Decidable (_ ∨ _))

/-- The part that an escaped character is read as. -/
def literal (c : Char) : GlobToken :=
  if IsSpecial c then .oneOf false [.single c] else .char c

theorem escapeChar_of_special {c : Char} (h : IsSpecial c) : escapeChar c = ['[', c, ']'] :=
  if_pos h

theorem escapeChar_of_not_special {c : Char} (h : ¬ IsSpecial c) : escapeChar c = [c] :=
  if_neg h

/-- The class around a special character has it as its only member, also if it is a bracket. -/
theorem bracket?_special {c : Char} (h : IsSpecial c) (rest : List Char) :
    bracket? (c :: ']' :: rest) = some (.oneOf false [.single c], 2, rest) := by
  rcases h with rfl | rfl | rfl | rfl <;> rfl

variable {fuel position : Nat} {previous : Option Char} {tokens : List GlobToken}

theorem read_special {c : Char} (h : IsSpecial c) (rest : List Char) :
    read (fuel + 1) position previous tokens ('[' :: c :: ']' :: rest)
      = read fuel (position + 3) (some ']') (literal c :: tokens) rest := by
  have hliteral : literal c = .oneOf false [.single c] := if_pos h
  rw [read, if_neg (by decide), if_neg (by decide), if_pos rfl, bracket?_special h, hliteral]

theorem read_not_special {c : Char} (h : ¬ IsSpecial c) (rest : List Char) :
    read (fuel + 1) position previous tokens (c :: rest)
      = read fuel (position + 1) (some c) (literal c :: tokens) rest := by
  have hliteral : literal c = .char c := if_neg h
  unfold IsSpecial at h
  simp only [not_or] at h
  rw [read, if_neg h.1, if_neg h.2.1, if_neg h.2.2.1, hliteral]

/-- **Escaped characters are read one by one**, whatever pattern follows them. -/
theorem read_escape (cs rest : List Char) (h : (cs.flatMap escapeChar ++ rest).length ≤ fuel) :
    ∃ fuel' position' previous', rest.length ≤ fuel' ∧
      read fuel position previous tokens (cs.flatMap escapeChar ++ rest)
        = read fuel' position' previous' ((cs.map literal).reverse ++ tokens) rest := by
  induction cs generalizing fuel position previous tokens with
  | nil => exact ⟨fuel, position, previous, h, rfl⟩
  | cons c cs ih =>
    rw [List.flatMap_cons, List.append_assoc] at h ⊢
    rw [List.map_cons, List.reverse_cons, List.append_assoc, List.singleton_append]
    by_cases hc : IsSpecial c
    · rw [escapeChar_of_special hc, List.cons_append, List.cons_append, List.singleton_append]
        at h ⊢
      rw [List.length_cons, List.length_cons, List.length_cons] at h
      obtain ⟨fuel, rfl⟩ := Nat.exists_eq_add_of_lt (Nat.lt_of_lt_of_le (Nat.succ_pos _) h)
      rw [Nat.zero_add] at h ⊢
      rw [read_special hc]
      exact ih (by omega)
    · rw [escapeChar_of_not_special hc, List.singleton_append] at h ⊢
      rw [List.length_cons] at h
      obtain ⟨fuel, rfl⟩ := Nat.exists_eq_add_of_lt (Nat.lt_of_lt_of_le (Nat.succ_pos _) h)
      rw [Nat.zero_add] at h ⊢
      rw [read_not_special hc]
      exact ih (by omega)

theorem read_star :
    read (fuel + 1) position previous tokens ['*']
      = .ok (tokens.reverse ++ [.anySequence]) := by
  rw [read, if_neg (by decide), if_pos rfl]
  show read fuel (position + 1) (some '*') (.anySequence :: tokens) [] = _
  rw [read, List.reverse_cons]

/-- **An escaped text with a star behind it is a pattern.** -/
theorem parse?_escape_star (cs : List Char) :
    parse? (String.ofList (cs.flatMap escapeChar ++ ['*']))
      = .ok (cs.map literal ++ [.anySequence]) := by
  unfold parse?
  rw [String.toList_ofList, String.length_ofList]
  obtain ⟨fuel, position, previous, hfuel, hread⟩ : ∃ fuel position previous,
      ['*'].length ≤ fuel ∧
        read (cs.flatMap escapeChar ++ ['*']).length 0 none [] (cs.flatMap escapeChar ++ ['*'])
          = read fuel position previous ((cs.map literal).reverse ++ []) ['*'] :=
    read_escape cs ['*'] (Nat.le_refl _)
  obtain ⟨fuel, rfl⟩ := Nat.exists_eq_add_of_lt hfuel
  rw [hread, read_star, List.append_nil, List.reverse_reverse]

/-! ## Matching -/

theorem accepts_literal (c d : Char) : accepts (literal c) d = (d == c) := by
  unfold literal
  by_cases hc : IsSpecial c
  · rw [if_pos hc]
    show (([GlobSet.single c].any (GlobSet.has d)) != false) = _
    rw [List.any_cons, List.any_nil, Bool.or_false, Bool.bne_false]
    rfl
  · rw [if_neg hc]
    rfl

/-- Some beginning of a text is all of it. -/
theorem nil_mem_endings (cs : List Char) : [] ∈ endings false cs := by
  induction cs with
  | nil => exact List.mem_singleton.mpr rfl
  | cons c cs ih => exact List.mem_cons_of_mem _ ih

theorem isMatch_star (cs : List Char) : isMatch [.anySequence] cs = true := by
  rw [isMatch, List.any_eq_true]
  exact ⟨[], List.mem_cons_of_mem _ (nil_mem_endings cs), by rw [isMatch]; rfl⟩

theorem isMatch_literal_nil (c : Char) (rest : List GlobToken) :
    isMatch (literal c :: rest) [] = false := by
  unfold literal
  by_cases hc : IsSpecial c
  · rw [if_pos hc]
    rfl
  · rw [if_neg hc]
    rfl

theorem isMatch_literal_cons (c d : Char) (rest : List GlobToken) (ds : List Char) :
    isMatch (literal c :: rest) (d :: ds) = (accepts (literal c) d && isMatch rest ds) := by
  unfold literal
  by_cases hc : IsSpecial c
  · rw [if_pos hc]
    rfl
  · rw [if_neg hc]
    rfl

/-- **A text with a star behind it matches what begins with the text.** -/
theorem isMatch_literal_star (cs ds : List Char) :
    isMatch (cs.map literal ++ [.anySequence]) ds = cs.isPrefixOf ds := by
  induction cs generalizing ds with
  | nil => rw [List.map_nil, List.nil_append, isMatch_star, List.isPrefixOf_nil_left]
  | cons c cs ih =>
    rw [List.map_cons, List.cons_append]
    cases ds with
    | nil => exact isMatch_literal_nil c _
    | cons d ds =>
      rw [isMatch_literal_cons, accepts_literal, ih, List.isPrefixOf_cons_cons, Bool.beq_comm]

end MockServer.Glob
