/-
  MockServer.Proofs.Run.Template — texts with holes, written and filled.

  A text whose literal braces are not doubled is cut into the pieces it
  was written from, and these can be put together freely.  What is
  filled into its holes is not taken for a hole later, as long as it
  has no opening brace.

  Main definitions:
    * `written` — the text of pieces;
    * `Formed` — pieces whose literal braces open no hole;
    * `Settled` — holes whose values have no opening braces.

  Main results:
    * `parse_written` — the pieces of a written text;
    * `fillChars_written` — filling it;
    * `fillChars_literals` — a text without holes;
    * `fillChars_filled` — filling again changes nothing.
-/
import Mathlib.Data.List.Basic
import MockServer.Proofs.Text.Split
import MockServer.Run.Template

namespace MockServer.Run.Template

/-! ## Pieces -/

/-- A piece as it is written. -/
def text : Piece → List Char
  | .literal c => [c]
  | .hole name => '\x7b' :: '\x7b' :: (name ++ ['\x7d', '\x7d'])

def written (pieces : List Piece) : List Char := pieces.flatMap text

/-- Pieces that stand for themselves. -/
def literals (cs : List Char) : List Piece := cs.map Piece.literal

/-- Is the next piece a character other than an opening brace? -/
def goesOn : List Piece → Bool
  | .literal c :: _ => c != '\x7b'
  | _ => false

/-- Holes have names that can be read, and a literal opening brace is followed by a literal that is
none. -/
def Formed : List Piece → Prop
  | [] => True
  | .literal c :: rest => (c = '\x7b' → goesOn rest = true) ∧ Formed rest
  | .hole name :: rest => (name ≠ [] ∧ '\x7d' ∉ name) ∧ Formed rest

instance decidableFormed : (pieces : List Piece) → Decidable (Formed pieces)
  | [] => .isTrue trivial
  | .literal c :: rest =>
    have := decidableFormed rest
    inferInstanceAs (Decidable ((c = '\x7b' → goesOn rest = true) ∧ Formed rest))
  | .hole name :: rest =>
    have := decidableFormed rest
    inferInstanceAs (Decidable ((name ≠ [] ∧ '\x7d' ∉ name) ∧ Formed rest))

theorem goesOn_append {pieces : List Piece} (h : goesOn pieces = true) (more : List Piece) :
    goesOn (pieces ++ more) = true := by
  cases pieces with
  | nil => exact absurd h Bool.false_ne_true
  | cons piece pieces => cases piece <;> exact h

/-- **Formed pieces can be put together.** -/
theorem formed_append {pieces more : List Piece} (h : Formed pieces) (hmore : Formed more) :
    Formed (pieces ++ more) := by
  induction pieces with
  | nil => exact hmore
  | cons piece pieces ih =>
    cases piece with
    | literal c => exact ⟨fun hc => goesOn_append (h.1 hc) more, ih h.2⟩
    | hole name => exact ⟨h.1, ih h.2⟩

/-- Characters other than opening braces are formed. -/
theorem formed_literals {cs : List Char} (h : '\x7b' ∉ cs) : Formed (literals cs) := by
  induction cs with
  | nil => trivial
  | cons c cs ih =>
    rw [List.mem_cons, not_or] at h
    exact ⟨fun hc => absurd hc.symm h.1, ih h.2⟩

theorem formed_of_append {pieces more : List Piece} (h : Formed (pieces ++ more)) :
    Formed more := by
  induction pieces with
  | nil => exact h
  | cons piece pieces ih => cases piece <;> exact ih h.2

/-- Literals are what they are under every reading of the holes. -/
theorem flatMap_literals {read : Piece → List Char} (hread : ∀ c, read (.literal c) = [c])
    (cs : List Char) : (literals cs).flatMap read = cs := by
  unfold literals
  simp only [List.flatMap_map, hread]
  exact List.flatMap_singleton' cs

/-! ## Reading pieces -/

/-- The name of a hole ends where its braces close. -/
theorem hole?_name {name : List Char} (hne : name ≠ []) (hname : '\x7d' ∉ name)
    (rest : List Char) :
    hole? (name ++ '\x7d' :: '\x7d' :: rest) = some (name, rest) := by
  have hinner : ∀ c ∈ name, isInner c = true := by
    intro c hc
    exact bne_iff_ne.mpr fun h => hname (h ▸ hc)
  have hstop : ∀ c ∈ ('\x7d' :: '\x7d' :: rest).head?, isInner c = false := by
    intro c hc
    rw [← Option.some.inj hc]
    rfl
  obtain ⟨htake, hdrop⟩ := Text.takeWhile_append_stop hinner hstop
  obtain ⟨c, cs, rfl⟩ := List.exists_cons_of_ne_nil hne
  unfold hole?
  rw [htake, hdrop]
  rfl

/-- A character other than the first of two braces stands for itself. -/
theorem parse_cons {c : Char} {rest : List Char}
    (h : c = '\x7b' → ∃ d tail, rest = d :: tail ∧ d ≠ '\x7b') :
    parse (c :: rest) = .literal c :: parse rest := by
  rw [parse]
  rintro inner rfl rfl
  obtain ⟨d, tail, htail, hd⟩ := h rfl
  exact hd (List.cons.inj htail).1.symm

theorem parse_hole {name : List Char} (hne : name ≠ []) (hname : '\x7d' ∉ name)
    (rest : List Char) : parse (text (.hole name) ++ rest) = .hole name :: parse rest := by
  have htext : text (.hole name) ++ rest
      = '\x7b' :: '\x7b' :: (name ++ '\x7d' :: '\x7d' :: rest) := by
    simp only [text, List.cons_append, List.append_assoc, List.nil_append]
  rw [htext, parse]
  split
  · next heq =>
    rw [hole?_name hne hname, Option.some_inj, Prod.mk.injEq] at heq
    rw [heq.1, heq.2]
  · next heq =>
    rw [hole?_name hne hname] at heq
    exact absurd heq (Option.some_ne_none _)

/-- **A written text has the pieces it was written from.** -/
theorem parse_written {pieces : List Piece} (h : Formed pieces) :
    parse (written pieces) = pieces := by
  induction pieces with
  | nil => rw [written, List.flatMap_nil, parse]
  | cons piece pieces ih =>
    cases piece with
    | hole name =>
      show parse (text (.hole name) ++ written pieces) = _
      rw [parse_hole h.1.1 h.1.2, ih h.2]
    | literal c =>
      show parse (c :: written pieces) = _
      rw [parse_cons, ih h.2]
      -- the next character is that of a literal
      intro hc
      have hnext := h.1 hc
      cases pieces with
      | nil => exact absurd hnext Bool.false_ne_true
      | cons next pieces =>
        cases next with
        | literal d => exact ⟨d, written pieces, rfl, bne_iff_ne.mp hnext⟩
        | hole name => exact absurd hnext Bool.false_ne_true

/-! ## Filling -/

/-- The text with the values put in. -/
def filled (scope : Dict String) (pieces : List Piece) : List Char := pieces.flatMap (put scope)

/-- Is the piece a character, or a hole whose value opens no other one? -/
def settles (scope : Dict String) : Piece → Bool
  | .literal _ => true
  | .hole name => (scope.get? (String.ofList name)).any fun value => '\x7b' ∉ value.toList

def Settled (scope : Dict String) (pieces : List Piece) : Prop :=
  ∀ piece ∈ pieces, settles scope piece = true

instance (scope : Dict String) (pieces : List Piece) : Decidable (Settled scope pieces) :=
  inferInstanceAs (Decidable (∀ piece ∈ pieces, _))

theorem settles_hole {scope : Dict String} {name : List Char}
    (h : settles scope (.hole name) = true) :
    ∃ value, scope.get? (String.ofList name) = some value ∧ '\x7b' ∉ value.toList := by
  obtain ⟨value, hvalue, hbrace⟩ := (Option.any_eq_true _ _).mp h
  exact ⟨value, hvalue, of_decide_eq_true hbrace⟩

theorem Settled.missing {scope : Dict String} {pieces : List Piece} (h : Settled scope pieces) :
    missing scope pieces = [] := by
  unfold Template.missing
  rw [List.filterMap_eq_nil_iff]
  intro piece hpiece
  cases piece with
  | literal c => rfl
  | hole name =>
    obtain ⟨value, hvalue, -⟩ := settles_hole (h _ hpiece)
    exact if_pos (Option.isSome_of_eq_some hvalue)

theorem Settled.put {scope : Dict String} {pieces : List Piece} (h : Settled scope pieces)
    {name : List Char} (hname : Piece.hole name ∈ pieces) :
    '\x7b' ∉ put scope (.hole name) := by
  obtain ⟨value, hvalue, hbrace⟩ := settles_hole (h _ hname)
  show '\x7b' ∉ ((scope.get? (String.ofList name)).getD "").toList
  rw [hvalue]
  exact hbrace

theorem settled_literals (scope : Dict String) (cs : List Char) :
    Settled scope (literals cs) := by
  intro piece hpiece
  obtain ⟨c, -, rfl⟩ := List.mem_map.mp hpiece
  rfl

/-- **A written text is filled piece by piece.** -/
theorem fillChars_written {scope : Dict String} {pieces : List Piece} (h : Formed pieces)
    (hscope : Template.missing scope pieces = []) :
    fillChars scope (written pieces) = .ok (filled scope pieces) := by
  simp only [fillChars, parse_written h, hscope, filled]

/-- A text that opens no hole stays as it is. -/
theorem fillChars_literals {cs : List Char} (h : Formed (literals cs)) (scope : Dict String) :
    fillChars scope cs = .ok cs := by
  have hfill := fillChars_written h (settled_literals scope cs).missing
  unfold written filled at hfill
  rwa [flatMap_literals fun _ => rfl, flatMap_literals fun _ => rfl] at hfill

/-- Values without opening braces open no holes where they are put. -/
theorem formed_filled {scope : Dict String} {pieces : List Piece} (h : Formed pieces)
    (hscope : Settled scope pieces) : Formed (literals (filled scope pieces)) := by
  induction pieces with
  | nil => trivial
  | cons piece pieces ih =>
    have hrest := ih (by cases piece <;> exact h.2)
      fun other hother => hscope other (List.mem_cons_of_mem _ hother)
    cases piece with
    | hole name =>
      show Formed (literals (put scope (.hole name) ++ filled scope pieces))
      unfold literals at hrest ⊢
      rw [List.map_append]
      exact formed_append (formed_literals (hscope.put List.mem_cons_self)) hrest
    | literal c =>
      refine ⟨fun hc => ?_, hrest⟩
      have hnext := h.1 hc
      cases pieces with
      | nil => exact absurd hnext Bool.false_ne_true
      | cons next pieces =>
        cases next with
        | literal d => exact hnext
        | hole name => exact absurd hnext Bool.false_ne_true

/-- **Filling a filled text again changes nothing**, if the values have no opening braces. -/
theorem fillChars_filled {scope : Dict String} {pieces : List Piece} (h : Formed pieces)
    (hscope : Settled scope pieces) :
    fillChars scope (filled scope pieces) = .ok (filled scope pieces) :=
  fillChars_literals (formed_filled h hscope) scope

end MockServer.Run.Template
