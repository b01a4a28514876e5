/-
  MockServer.Proofs.Header.Field — header fields by name.

  A list of fields is seen through the values it has for a name, up to
  ASCII case.  Replacing a name gives it one value and leaves all other
  names as they are.  Whether a name is legal does not depend on case.

  Main definitions:
    * `Fields.values` — the values for a name;
    * `Fields.setAll` — headers set in order;
    * `lastNamed` — the last of the headers of a name.

  Main results:
    * `Fields.values_replace` — one value for the replaced name;
    * `Fields.values_setAll` — of the headers of one name the last counts;
    * `isName_congr` — legal names in any case;
    * `visibleText?_eq_some_iff` — the text of a value that can be shown.
-/
import Mathlib.Data.List.Basic
import MockServer.Header.Field
import MockServer.Proofs.Text.Case
import MockServer.Proofs.Text.Utf8

namespace MockServer.Header

/-! ## Values by name -/

namespace Fields

/-- The values for a name, in order. -/
def values (fs : Fields) (name : String) : List (List UInt8) :=
  (fs.filter fun f => Text.sameFold f.name name).map Field.value

variable {name other : String}

theorem values_nil (name : String) : values [] name = [] := rfl

theorem values_cons (f : Field) (fs : Fields) (name : String) :
    values (f :: fs) name
      = if Text.sameFold f.name name then f.value :: fs.values name else fs.values name := by
  unfold values
  rw [List.filter_cons]
  split <;> rfl

/-- The case of a name does not count. -/
theorem values_congr (h : Text.sameFold name other = true) (fs : Fields) :
    fs.values name = fs.values other := by
  unfold values
  congr 2
  funext f
  rw [Text.sameFold_comm, Text.sameFold_congr_left h, Text.sameFold_comm]

theorem values_append (fs gs : Fields) (name : String) :
    values (fs ++ gs) name = fs.values name ++ gs.values name := by
  unfold values
  rw [List.filter_append, List.map_append]

theorem values_without (fs : Fields) (name other : String) :
    (fs.without name).values other
      = if Text.sameFold name other then [] else fs.values other := by
  induction fs with
  | nil => exact (ite_self _).symm
  | cons f fs ih =>
    unfold without at ih ⊢
    rw [List.filter_cons, values_cons]
    by_cases hf : Text.sameFold f.name name = true
    · -- the field goes, and it has the other name only if that is the name that goes
      rw [hf, Bool.not_true, if_neg Bool.false_ne_true, ih, Text.sameFold_congr_left hf]
      split <;> rfl
    · rw [Bool.not_eq_true] at hf
      rw [hf, Bool.not_false, if_pos rfl, values_cons, ih]
      by_cases hother : Text.sameFold name other = true
      · have hne : ¬ Text.sameFold f.name other = true := by
          rw [Text.sameFold_comm, ← Text.sameFold_congr_left hother, Text.sameFold_comm, hf]
          exact Bool.false_ne_true
        rw [if_pos hother, if_pos hother, if_neg hne]
      · rw [if_neg hother, if_neg hother]

/-- **A replaced name has one value**, and every other name the values it had. -/
theorem values_replace (fs : Fields) (name other : String) (value : List UInt8) :
    (fs.replace name value).values other
      = if Text.sameFold name other then [value] else fs.values other := by
  induction fs with
  | nil => rw [replace, values_cons, values_nil]
  | cons f fs ih =>
    rw [replace, values_cons f]
    by_cases hf : Text.sameFold f.name name = true
    · rw [if_pos hf, values_cons, values_without, Text.sameFold_congr_left hf]
      split <;> rfl
    · rw [if_neg hf, values_cons, ih]
      by_cases hother : Text.sameFold name other = true
      · have hne : ¬ Text.sameFold f.name other = true := by
          rw [Text.sameFold_comm, ← Text.sameFold_congr_left hother, Text.sameFold_comm]
          exact hf
        rw [if_pos hother, if_pos hother, if_neg hne]
      · rw [if_neg hother, if_neg hother]

theorem first?_eq_head? (fs : Fields) (name : String) : fs.first? name = (fs.values name).head? := by
  unfold first? values
  rw [List.head?_map, List.head?_filter]

end Fields

/-! ## Headers by name -/

/-- The last header of a name, up to ASCII case. -/
def lastNamed (name : String) (headers : List (String × String)) : Option (String × String) :=
  headers.reverse.find? fun h => Text.sameFold h.1 name

theorem lastNamed_cons (name : String) (h : String × String) (headers : List (String × String)) :
    lastNamed name (h :: headers)
      = (lastNamed name headers).or (if Text.sameFold h.1 name then some h else none) := by
  unfold lastNamed
  rw [List.reverse_cons, List.find?_append, List.find?_singleton]

theorem lastNamed_append (name : String) (before after : List (String × String)) :
    lastNamed name (before ++ after) = (lastNamed name after).or (lastNamed name before) := by
  unfold lastNamed
  rw [List.reverse_append, List.find?_append]

theorem lastNamed_eq_none_iff {name : String} {headers : List (String × String)} :
    lastNamed name headers = none ↔ ∀ h ∈ headers, Text.sameFold h.1 name = false := by
  unfold lastNamed
  simp only [List.find?_eq_none, List.mem_reverse, Bool.not_eq_true]

/-- A choice among headers that keeps all of a name keeps the last of them. -/
theorem lastNamed_filter {name : String} {p : String × String → Bool}
    {headers : List (String × String)}
    (h : ∀ x ∈ headers, Text.sameFold x.1 name = true → p x = true) :
    lastNamed name (headers.filter p) = lastNamed name headers := by
  induction headers with
  | nil => rfl
  | cons x headers ih =>
    rw [List.forall_mem_cons] at h
    rw [List.filter_cons, lastNamed_cons]
    by_cases hx : Text.sameFold x.1 name = true
    · rw [if_pos (h.1 hx), lastNamed_cons, ih h.2]
    · rw [if_neg hx, Option.or_none]
      split
      · rw [lastNamed_cons, if_neg hx, Option.or_none, ih h.2]
      · exact ih h.2

/-- The fields with headers set in order, each in the place of what its name had. -/
def Fields.setAll (fs : Fields) (headers : List (String × String)) : Fields :=
  headers.foldl (fun fs h => fs.replace (Text.lower h.1) (Text.Utf8.ofString h.2)) fs

/-- **Of the headers of a name the last one is set**; without one, the name has the values it
had. -/
theorem Fields.values_setAll (fs : Fields) (headers : List (String × String)) (name : String) :
    (fs.setAll headers).values name
      = ((lastNamed name headers).map fun h => [Text.Utf8.ofString h.2]).getD (fs.values name) := by
  induction headers generalizing fs with
  | nil => rfl
  | cons h headers ih =>
    rw [lastNamed_cons]
    show ((fs.replace (Text.lower h.1) (Text.Utf8.ofString h.2)).setAll headers).values name = _
    rw [ih, values_replace, Text.sameFold_lower_left]
    -- a later header of the name takes the place of this one
    cases lastNamed name headers with
    | some last => rfl
    | none => split <;> rfl

/-! ## Legal names and values -/

/-- Are the name and the value of a header legal? -/
def isLegal (h : String × String) : Bool := isName h.1 && isValue (Text.Utf8.ofString h.2)

theorem isTokenChar_lowerChar (c : Char) : isTokenChar (Text.lowerChar c) = isTokenChar c := by
  refine Text.ascii_cases (p := fun c => isTokenChar (Text.lowerChar c) = isTokenChar c)
    (by decide) ?_ c
  intro c h
  rw [Text.lowerChar_of_le h]

theorem isName_iff {name : String} :
    isName name = true ↔ name.toList ≠ [] ∧ ∀ c ∈ name.toList, isTokenChar c = true := by
  unfold isName
  rw [Bool.and_eq_true, List.all_eq_true, Bool.not_eq_true', ← Bool.not_eq_true, String.isEmpty_iff,
    Ne, String.toList_eq_nil_iff]

theorem isName_lower (name : String) : isName (Text.lower name) = isName name := by
  rw [Bool.eq_iff_iff, isName_iff, isName_iff]
  unfold Text.lower
  rw [String.toList_ofList, Ne, List.map_eq_nil_iff, List.forall_mem_map]
  simp only [isTokenChar_lowerChar, Ne]

/-- **A name is legal in any case.** -/
theorem isName_congr {a b : String} (h : Text.sameFold a b = true) : isName a = isName b := by
  rw [← isName_lower a, Text.sameFold_iff.mp h, isName_lower]

/-! ## Values as texts -/

theorem toNat_lt_of_isVisible {b : UInt8} (h : isVisible b = true) : b.toNat < 128 := by
  unfold isVisible at h
  rw [Bool.or_eq_true, Bool.and_eq_true, decide_eq_true_eq, decide_eq_true_eq, beq_iff_eq] at h
  obtain ⟨-, hlt⟩ | rfl := h
  · have hnat : b.toNat < 127 := hlt
    omega
  · decide

/-- Bytes that can be shown are the bytes of the text they are shown as. -/
theorem ofString_of_isVisible {value : List UInt8} (h : ∀ b ∈ value, isVisible b = true) :
    Text.Utf8.ofString (String.ofList (value.map fun b => Char.ofNat b.toNat)) = value := by
  unfold Text.Utf8.ofString
  rw [String.toList_ofList]
  induction value with
  | nil => rfl
  | cons b value ih =>
    rw [List.forall_mem_cons] at h
    have hb := toNat_lt_of_isVisible h.1
    have htoNat : (Char.ofNat b.toNat).toNat = b.toNat := by
      unfold Char.ofNat
      rw [dif_pos (show b.toNat.isValidChar from Or.inl (by omega))]
      rfl
    rw [List.map_cons, Text.Utf8.encode_cons, ih h.2, Text.Utf8.encodeChar_one (by omega), htoNat,
      UInt8.ofNat_toNat]
    rfl

/-- **A value can be shown exactly if its bytes are visible ones**, and then as the text with these
bytes. -/
theorem visibleText?_eq_some_iff {value : List UInt8} {text : String} :
    visibleText? value = some text ↔
      (∀ b ∈ value, isVisible b = true) ∧ Text.Utf8.ofString text = value := by
  unfold visibleText?
  constructor
  · intro h
    by_cases hall : value.all isVisible = true
    · rw [if_pos hall, Option.some_inj] at h
      rw [List.all_eq_true] at hall
      exact ⟨hall, h ▸ ofString_of_isVisible hall⟩
    · rw [if_neg hall] at h
      exact absurd h nofun
  · rintro ⟨hall, hbytes⟩
    -- a text is known by its bytes
    have hsame : Text.Utf8.ofString (String.ofList (value.map fun b => Char.ofNat b.toNat))
        = Text.Utf8.ofString text := (ofString_of_isVisible hall).trans hbytes.symm
    have hdecode := congrArg Text.Utf8.decode? hsame
    unfold Text.Utf8.ofString at hdecode
    rw [Text.Utf8.decode?_encode, Text.Utf8.decode?_encode, Option.some_inj,
      String.toList_inj] at hdecode
    rw [if_pos (List.all_eq_true.mpr hall), hdecode]

end MockServer.Header
