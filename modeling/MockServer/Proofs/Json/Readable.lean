/-
  MockServer.Proofs.Json.Readable — a printed text has one reading.

  The printer leaves no blanks and no ends: brackets, commas and the
  characters of numerals are all there is to tell where a value stops.
  Still, a text that begins with a printed value determines the value
  and what comes behind it, as long as this does not go on with a
  numeral.

  Two texts are read at once.  The first character tells the
  constructor of both values, a string is closed by its first quote
  that is not escaped, and a numeral by the first character that no
  numeral has; the rest is an induction over the values.

  Main definitions:
    * `Spelling` — number spellings that are numerals;
    * `Readable` — a value that every text that begins with it shows.

  Main results:
    * `readable` — every value is readable;
    * `same_of_write_eq` — one text, one meaning.
-/
import MockServer.Proofs.Json.Same
import MockServer.Proofs.Json.Text

namespace MockServer.Json

variable {num : JsonNumber → List Char}

/-! ## Numerals -/

/-- The characters of a numeral. -/
def isNumeralChar (c : Char) : Bool := c.isDigit || c = '-' || c = '+' || c = '.' || c = 'e'

/-- Has the text at least one character, and only those of a numeral? -/
def IsNumeral (cs : List Char) : Prop := cs ≠ [] ∧ ∀ c ∈ cs, isNumeralChar c = true

/-- Is every number spelled with a numeral? -/
def Spelling (num : JsonNumber → List Char) : Prop := ∀ n, IsNumeral (num n)

/-- Does the text not go on with a numeral? -/
def Stops (rest : List Char) : Prop := ∀ c ∈ rest.head?, isNumeralChar c = false

theorem stops_cons {c : Char} (h : isNumeralChar c = false) (rest : List Char) :
    Stops (c :: rest) :=
  fun _ hd => (Option.mem_some.mp hd) ▸ h

/-- A numeral ends where a text does not go on with one. -/
theorem numeral_append_inj {cs ds r s : List Char} (hcs : IsNumeral cs) (hds : IsNumeral ds)
    (hr : Stops r) (hs : Stops s) (h : cs ++ r = ds ++ s) : cs = ds ∧ r = s := by
  obtain ⟨htake, hdrop⟩ := Text.takeWhile_append_stop hcs.2 hr
  obtain ⟨htake', hdrop'⟩ := Text.takeWhile_append_stop hds.2 hs
  rw [h] at htake hdrop
  exact ⟨htake.symm.trans htake', hdrop.symm.trans hdrop'⟩

/-! ## Strings -/

/-- A quoted string ends with the first quote that is not escaped. -/
theorem quote_append_inj {a b : String} {r s : List Char} (h : quote a ++ r = quote b ++ s) :
    a = b ∧ r = s := by
  have hread : ∀ (a : String) (r : List Char), ∃ body, quote a ++ r = '"' :: body ∧
      JsonToken.stringBody body = some (a.toList, r) := by
    intro a r
    refine ⟨a.toList.flatMap escapeChar ++ '"' :: r, by simp [quote], ?_⟩
    exact JsonToken.stringBody_stringText (JsonToken.stringText_escape a.toList) r
  obtain ⟨x, hx, hxread⟩ := hread a r
  obtain ⟨y, hy, hyread⟩ := hread b s
  rw [hx, hy, List.cons.injEq] at h
  rw [h.2, hyread, Option.some_inj, Prod.mk.injEq] at hxread
  exact ⟨String.toList_inj.mp hxread.1.symm, hxread.2.symm⟩

/-! ## The first character -/

/-- The first character of a printed value; none for a numeral. -/
def opening : Json → Option Char
  | .null => some 'n'
  | .bool true => some 't'
  | .bool false => some 'f'
  | .num _ => none
  | .str _ => some '"'
  | .arr _ => some '['
  | .obj _ => some '{'

/-- Values that start with one character have one constructor. -/
inductive Alike : Json → Json → Prop where
  | null : Alike .null .null
  | bool (b : Bool) : Alike (.bool b) (.bool b)
  | num (m n : JsonNumber) : Alike (.num m) (.num n)
  | str (s t : String) : Alike (.str s) (.str t)
  | arr (xs ys : List Json) : Alike (.arr xs) (.arr ys)
  | obj (ms ns : List (String × Json)) : Alike (.obj ms) (.obj ns)

/-- A printed value begins with its opening character, or with that of a numeral. -/
theorem write_eq_cons (hnum : Spelling num) (v : Json) :
    ∃ c cs, write num v = c :: cs ∧
      opening v = if isNumeralChar c = true then none else some c := by
  cases v with
  | num n =>
    obtain ⟨c, cs, hcs⟩ := List.exists_cons_of_ne_nil (hnum n).1
    have hc : isNumeralChar c = true := (hnum n).2 c (hcs ▸ List.mem_cons_self)
    exact ⟨c, cs, hcs, (if_pos hc).symm⟩
  | bool b => cases b <;> exact ⟨_, _, rfl, rfl⟩
  | null | str => exact ⟨_, _, rfl, rfl⟩
  | arr xs => cases xs <;> exact ⟨_, _, rfl, rfl⟩
  | obj ms => cases ms <;> exact ⟨_, _, rfl, rfl⟩

theorem alike_of_opening {v w : Json} (h : opening v = opening w) : Alike v w := by
  cases v with
  | bool a =>
    cases w with
    | bool b => cases a <;> cases b <;> first | exact .bool _ | exact absurd h (by decide)
    | _ => cases a <;> exact absurd h (by simp [opening])
  | _ =>
    cases w with
    | bool b => cases b <;> exact absurd h (by simp [opening])
    | _ => first | constructor | exact absurd h (by simp [opening])

theorem alike_of_write (hnum : Spelling num) {v w : Json} {r s : List Char}
    (h : write num v ++ r = write num w ++ s) : Alike v w := by
  obtain ⟨c, cs, hc, hv⟩ := write_eq_cons hnum v
  obtain ⟨d, ds, hd, hw⟩ := write_eq_cons hnum w
  rw [hc, hd, List.cons_append, List.cons_append, List.cons.injEq] at h
  exact alike_of_opening (by rw [hv, hw, h.1])

/-- No value starts with the bracket that closes an array. -/
theorem write_append_ne_close (hnum : Spelling num) (v : Json) (r s : List Char) :
    write num v ++ r ≠ ']' :: s := by
  intro h
  obtain ⟨c, cs, hc, hv⟩ := write_eq_cons hnum v
  rw [hc, List.cons_append, List.cons.injEq] at h
  rw [h.1] at hv
  cases v with
  | bool b => cases b <;> exact absurd hv (by decide)
  | _ => exact absurd hv (by simp [opening, show isNumeralChar ']' = false by decide])

/-! ## One reading -/

/-- A text that begins with the value does not begin with another one, nor go on in two ways. -/
def Readable (num : JsonNumber → List Char) (v : Json) : Prop :=
  ∀ (w : Json) (r s : List Char), Stops r → Stops s → write num v ++ r = write num w ++ s →
    Same num v w ∧ r = s

theorem stops_writeItems (xs : List Json) (r : List Char) : Stops (writeItems num xs ++ r) := by
  cases xs with
  | nil => exact stops_cons (by decide) _
  | cons v rest => exact stops_cons (by decide) _

theorem stops_writeMembers (ms : List (String × Json)) (r : List Char) :
    Stops (writeMembers num ms ++ r) := by
  cases ms with
  | nil => exact stops_cons (by decide) _
  | cons m rest => exact stops_cons (by decide) _

theorem writeItems_append_inj {xs : List Json} (hxs : ∀ v ∈ xs, Readable num v) :
    ∀ (ys : List Json) (r s : List Char), writeItems num xs ++ r = writeItems num ys ++ s →
      List.Forall₂ (Same num) xs ys ∧ r = s := by
  induction xs with
  | nil =>
    intro ys r s h
    cases ys with
    | nil => exact ⟨.nil, (List.cons.inj h).2⟩
    | cons w ys => exact absurd (List.cons.inj h).1 (by decide)
  | cons v xs ih =>
    intro ys r s h
    cases ys with
    | nil => exact absurd (List.cons.inj h).1 (by decide)
    | cons w ys =>
      rw [List.forall_mem_cons] at hxs
      simp only [writeItems, List.cons_append, List.append_assoc, List.cons.injEq, true_and] at h
      obtain ⟨hvw, hrest⟩ := hxs.1 w _ _ (stops_writeItems xs r) (stops_writeItems ys s) h
      obtain ⟨hitems, hend⟩ := ih hxs.2 ys r s hrest
      exact ⟨.cons hvw hitems, hend⟩

/-- What comes behind the name of a member. -/
theorem member_append_inj {name name' : String} {v w : Json} (hv : Readable num v)
    {r s : List Char} (hr : Stops r) (hs : Stops s)
    (h : quote name ++ (':' :: (write num v ++ r)) = quote name' ++ (':' :: (write num w ++ s))) :
    name = name' ∧ Same num v w ∧ r = s := by
  obtain ⟨hname, hvalue⟩ := quote_append_inj h
  exact ⟨hname, hv w r s hr hs (List.cons.inj hvalue).2⟩

theorem writeMembers_append_inj {ms : List (String × Json)} (hms : ∀ m ∈ ms, Readable num m.2) :
    ∀ (ns : List (String × Json)) (r s : List Char),
      writeMembers num ms ++ r = writeMembers num ns ++ s →
      List.Forall₂ (fun m n => m.1 = n.1 ∧ Same num m.2 n.2) ms ns ∧ r = s := by
  induction ms with
  | nil =>
    intro ns r s h
    cases ns with
    | nil => exact ⟨.nil, (List.cons.inj h).2⟩
    | cons n ns => exact absurd (List.cons.inj h).1 (by decide)
  | cons m ms ih =>
    intro ns r s h
    cases ns with
    | nil => exact absurd (List.cons.inj h).1 (by decide)
    | cons n ns =>
      rw [List.forall_mem_cons] at hms
      obtain ⟨name, v⟩ := m
      obtain ⟨name', w⟩ := n
      simp only [writeMembers, List.cons_append, List.append_assoc, List.cons.injEq, true_and] at h
      obtain ⟨hname, hvw, hrest⟩ :=
        member_append_inj hms.1 (stops_writeMembers ms r) (stops_writeMembers ns s) h
      obtain ⟨hmembers, hend⟩ := ih hms.2 ns r s hrest
      exact ⟨.cons ⟨hname, hvw⟩ hmembers, hend⟩

theorem readable_arr (hnum : Spelling num) {xs : List Json} (hxs : ∀ v ∈ xs, Readable num v) :
    Readable num (.arr xs) := by
  intro w r s _ _ h
  cases alike_of_write hnum h with
  | arr _ ys =>
    cases xs with
    | nil =>
      cases ys with
      | nil => exact ⟨same_arr .nil, List.append_cancel_left h⟩
      | cons w ys =>
        simp only [write, List.cons_append, List.append_assoc, List.cons.injEq, true_and] at h
        exact absurd h.symm (write_append_ne_close hnum w _ _)
    | cons v xs =>
      cases ys with
      | nil =>
        simp only [write, List.cons_append, List.append_assoc, List.cons.injEq, true_and] at h
        exact absurd h (write_append_ne_close hnum v _ _)
      | cons w ys =>
        have hitems : writeItems num (v :: xs) ++ r = writeItems num (w :: ys) ++ s :=
          congrArg (',' :: ·) (List.cons.inj h).2
        obtain ⟨hsame, hend⟩ := writeItems_append_inj hxs (w :: ys) r s hitems
        exact ⟨same_arr hsame, hend⟩

theorem readable_obj (hnum : Spelling num) {ms : List (String × Json)}
    (hms : ∀ m ∈ ms, Readable num m.2) : Readable num (.obj ms) := by
  intro w r s _ _ h
  cases alike_of_write hnum h with
  | obj _ ns =>
    cases ms with
    | nil =>
      cases ns with
      | nil => exact ⟨same_obj .nil, List.append_cancel_left h⟩
      | cons n ns => exact absurd (List.cons.inj (List.cons.inj h).2).1 (by decide)
    | cons m ms =>
      cases ns with
      | nil => exact absurd (List.cons.inj (List.cons.inj h).2).1 (by decide)
      | cons n ns =>
        have hmembers : writeMembers num (m :: ms) ++ r = writeMembers num (n :: ns) ++ s :=
          congrArg (',' :: ·) (List.cons.inj h).2
        obtain ⟨hsame, hend⟩ := writeMembers_append_inj hms (n :: ns) r s hmembers
        exact ⟨same_obj hsame, hend⟩

theorem readable_num (hnum : Spelling num) (n : JsonNumber) : Readable num (.num n) := by
  intro w r s hr hs h
  cases alike_of_write hnum h with
  | num _ n' =>
    obtain ⟨heq, hrest⟩ := numeral_append_inj (hnum n) (hnum n') hr hs h
    exact ⟨.num heq, hrest⟩

theorem readable_str (hnum : Spelling num) (a : String) : Readable num (.str a) := by
  intro w r s _ _ h
  cases alike_of_write hnum h with
  | str _ b =>
    obtain ⟨rfl, hrest⟩ := quote_append_inj h
    exact ⟨.str a, hrest⟩

mutual

/-- **Every value is readable.** -/
theorem readable (hnum : Spelling num) : ∀ v : Json, Readable num v
  | .null => by
    intro w r s _ _ h
    cases alike_of_write hnum h
    exact ⟨.null, List.append_cancel_left h⟩
  | .bool b => by
    intro w r s _ _ h
    cases alike_of_write hnum h
    exact ⟨.bool b, List.append_cancel_left h⟩
  | .num n => readable_num hnum n
  | .str a => readable_str hnum a
  | .arr xs => readable_arr hnum (readable_items hnum xs)
  | .obj ms => readable_obj hnum (readable_members hnum ms)

theorem readable_items (hnum : Spelling num) : ∀ xs : List Json, ∀ v ∈ xs, Readable num v
  | [] => List.forall_mem_nil _
  | v :: xs => List.forall_mem_cons.mpr ⟨readable hnum v, readable_items hnum xs⟩

theorem readable_members (hnum : Spelling num) :
    ∀ ms : List (String × Json), ∀ m ∈ ms, Readable num m.2
  | [] => List.forall_mem_nil _
  | (_, v) :: ms => List.forall_mem_cons.mpr ⟨readable hnum v, readable_members hnum ms⟩

end

/-- **Documents that are written alike have one meaning.** -/
theorem same_of_write_eq (hnum : Spelling num) {v w : Json} (h : write num v = write num w) :
    Same num v w := by
  have hstops : Stops [] := fun _ hc => absurd hc (by simp)
  exact (readable hnum v w [] [] hstops hstops (congrArg (· ++ []) h)).1

end MockServer.Json
