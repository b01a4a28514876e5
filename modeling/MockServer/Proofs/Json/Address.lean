/-
  MockServer.Proofs.Json.Address — every place in a document can be
  named.

  A place is given by the steps that lead to it from the whole
  document: to the member of an object with a name, or to an item of an
  array.  Its address joins the steps with dots.  In a name the dots and
  the backslashes are escaped, so the address is taken apart into
  exactly these steps, whatever the names are (empty ones, `#` and
  numbers included).

  Main definitions:
    * `Leads` — steps that lead from a document to a value in it;
    * `address` — the text of the steps.

  Main results:
    * `parse_address` — an address is taken apart into its steps;
    * `find?_of_leads` — going on from a place;
    * `get?_address` — what is found at an address, and behind it.
-/
import MockServer.Json.Path
import MockServer.Proofs.Decimal.Numeral

namespace MockServer.Json.Path

/-! ## Steps -/

/-- A step into a document. -/
inductive Step where
  /-- To the member of an object. -/
  | member (name : String)
  /-- To an item of an array. -/
  | item (index : Nat)
  deriving DecidableEq, Repr

/-- Do the steps lead from a document to a value? -/
inductive Leads : List Step → Json → Json → Prop
  | here (v : Json) : Leads [] v v
  | member {members : List (String × Json)} {name : String} {inner v : Json} {steps : List Step} :
      (Json.obj members).member? name = some inner → Leads steps inner v →
      Leads (.member name :: steps) (.obj members) v
  | item {items : List Json} {index : Nat} {inner v : Json} {steps : List Step} :
      items[index]? = some inner → Leads steps inner v →
      Leads (.item index :: steps) (.arr items) v

/-- A name with a backslash in front of every dot and backslash. -/
def escape (name : List Char) : List Char :=
  name.flatMap fun c => if c = '.' ∨ c = '\\' then ['\\', c] else [c]

/-- A step as it stands in an address. -/
def Step.text : Step → List Char
  | .member name => escape name.toList
  | .item index => Nat.toDigits 10 index

/-- The steps with dots between them. -/
def address (steps : List Step) : String := String.ofList (['.'].intercalate (steps.map Step.text))

/-! ## Segments -/

/-- The segment that a step is. -/
def Step.segment : Step → List Char
  | .member name => name.toList
  | .item index => Nat.toDigits 10 index

theorem escape_cons_of_plain {c : Char} (h : ¬ (c = '.' ∨ c = '\\')) (cs : List Char) :
    escape (c :: cs) = c :: escape cs := by
  unfold escape
  rw [List.flatMap_cons, if_neg h]
  rfl

theorem escape_cons_of_special {c : Char} (h : c = '.' ∨ c = '\\') (cs : List Char) :
    escape (c :: cs) = '\\' :: c :: escape cs := by
  unfold escape
  rw [List.flatMap_cons, if_pos h]
  rfl

/-- Digits are not escaped. -/
theorem escape_of_isDigit {cs : List Char} (h : ∀ c ∈ cs, c.isDigit = true) : escape cs = cs := by
  induction cs with
  | nil => rfl
  | cons c cs ih =>
    rw [List.forall_mem_cons] at h
    have hplain : ¬ (c = '.' ∨ c = '\\') := by
      rintro (rfl | rfl) <;> exact absurd h.1 (by decide)
    rw [escape_cons_of_plain hplain, ih h.2]

theorem Step.text_eq (step : Step) : step.text = escape step.segment := by
  cases step with
  | member name => rfl
  | item index => exact (escape_of_isDigit fun _ => Decimal.isDigit_of_mem_toDigits).symm

theorem parse_cons_of_plain {c : Char} (h : ¬ (c = '.' ∨ c = '\\')) (rest : List Char) :
    parse (c :: rest) = Text.consFirst c (parse rest) := by
  rw [not_or] at h
  rw [parse]
  · intro d cs hc _
    exact h.2 hc
  · intro hc _
    exact h.2 hc
  · exact h.1

/-- **An escaped name goes into the first segment as it is.** -/
theorem parse_escape (cs rest : List Char) :
    parse (escape cs ++ rest) = cs.foldr Text.consFirst (parse rest) := by
  induction cs with
  | nil => rfl
  | cons c cs ih =>
    by_cases hc : c = '.' ∨ c = '\\'
    · rw [escape_cons_of_special hc]
      show Text.consFirst c (parse (escape cs ++ rest)) = _
      rw [ih]
      rfl
    · rw [escape_cons_of_plain hc, List.cons_append, parse_cons_of_plain hc, ih]
      rfl

theorem foldr_consFirst (cs piece : List Char) (pieces : List (List Char)) :
    cs.foldr Text.consFirst (piece :: pieces) = (cs ++ piece) :: pieces := by
  induction cs with
  | nil => rfl
  | cons c cs ih =>
    rw [List.foldr_cons, ih]
    rfl

theorem parse_text (step : Step) : parse step.text = [step.segment] := by
  have h := parse_escape step.segment []
  rw [List.append_nil] at h
  rw [step.text_eq, h]
  show step.segment.foldr Text.consFirst [[]] = _
  rw [foldr_consFirst, List.append_nil]

theorem parse_text_append (step : Step) (rest : List Char) :
    parse (step.text ++ '.' :: rest) = step.segment :: parse rest := by
  rw [step.text_eq, parse_escape]
  show step.segment.foldr Text.consFirst ([] :: parse rest) = _
  rw [foldr_consFirst, List.append_nil]

/-- The steps in front of a tail are taken apart, if the last of them is. -/
theorem parse_intercalate {tail : List Char} {pieces : List (List Char)}
    (htail : ∀ step : Step, parse (step.text ++ tail) = step.segment :: pieces)
    {steps : List Step} (h : steps ≠ []) :
    parse (['.'].intercalate (steps.map Step.text) ++ tail)
      = steps.map Step.segment ++ pieces := by
  induction steps with
  | nil => exact absurd rfl h
  | cons step steps ih =>
    cases steps with
    | nil =>
      rw [List.map_singleton, List.intercalate_singleton]
      exact htail step
    | cons next steps =>
      rw [List.map_cons, List.map_cons, List.intercalate_cons_cons, List.append_assoc,
        List.append_assoc, List.singleton_append, parse_text_append, ← List.map_cons,
        ih (List.cons_ne_nil _ _)]
      rfl

/-- **An address is taken apart into its steps**, whatever path follows it. -/
theorem parse_address_append {steps : List Step} (h : steps ≠ []) (rest : List Char) :
    parse ((address steps).toList ++ '.' :: rest) = steps.map Step.segment ++ parse rest := by
  unfold address
  rw [String.toList_ofList]
  exact parse_intercalate (fun step => parse_text_append step rest) h

theorem parse_address {steps : List Step} (h : steps ≠ []) :
    parse (address steps).toList = steps.map Step.segment := by
  have htail : ∀ step : Step, parse (step.text ++ []) = step.segment :: [] := by
    intro step
    rw [List.append_nil]
    exact parse_text step
  have hparse := parse_intercalate htail h
  rw [List.append_nil, List.append_nil] at hparse
  unfold address
  rw [String.toList_ofList]
  exact hparse

/-! ## Following an address -/

/-- The digits of an index are read as the index. -/
theorem index?_toDigits (index : Nat) : index? (Nat.toDigits 10 index) = some index := by
  have hdigits : ∀ c ∈ Nat.toDigits 10 index, c.isDigit = true :=
    fun _ => Decimal.isDigit_of_mem_toDigits
  have hunsigned : unsigned (Nat.toDigits 10 index) = Nat.toDigits 10 index := by
    unfold unsigned
    split
    next cs hplus => exact absurd (hdigits '+' (hplus ▸ List.mem_cons_self)) (by decide)
    next => rfl
  have hcond : (!(Nat.toDigits 10 index).isEmpty && (Nat.toDigits 10 index).all Char.isDigit)
      = true := by
    rw [Bool.and_eq_true, List.all_eq_true]
    refine ⟨?_, hdigits⟩
    simp
  unfold index?
  simp only [hunsigned]
  rw [if_pos hcond, Decimal.natOfDigits_toDigits]

theorem find?_member (members : List (String × Json)) (name : String) (rest : List (List Char)) :
    find? (name.toList :: rest) (.obj members)
      = ((Json.obj members).member? name).bind (find? rest) := by
  rw [find?, String.ofList_toList]
  rfl

/-- An index is never taken for the sign that stands for all items. -/
theorem find?_item (items : List Json) (index : Nat) (rest : List (List Char)) :
    find? (Nat.toDigits 10 index :: rest) (.arr items) = items[index]?.bind (find? rest) := by
  have hsign : Nat.toDigits 10 index ≠ ['#'] := by
    intro h
    have hdigit : '#'.isDigit = true :=
      Decimal.isDigit_of_mem_toDigits (n := index) (h ▸ List.mem_cons_self)
    exact absurd hdigit (by decide)
  rw [find?]
  · rw [index?_toDigits]
    rfl
  · exact hsign

/-- **What follows the steps to a value is looked for in the value.** -/
theorem find?_of_leads {steps : List Step} {d v : Json} (h : Leads steps d v)
    (rest : List (List Char)) :
    find? (steps.map Step.segment ++ rest) d = find? rest v := by
  induction h with
  | here v => rfl
  | member hinner _ ih =>
    show find? (String.toList _ :: _) _ = _
    rw [find?_member, hinner]
    exact ih
  | item hinner _ ih =>
    show find? (Nat.toDigits 10 _ :: _) _ = _
    rw [find?_item, hinner]
    exact ih

theorem parse_ne_nil (cs : List Char) : parse cs ≠ [] := by
  have hfirst : ∀ (c : Char) (pieces : List (List Char)), Text.consFirst c pieces ≠ [] := by
    intro c pieces
    unfold Text.consFirst
    split <;> exact List.cons_ne_nil _ _
  unfold parse
  split
  · exact List.cons_ne_nil _ _
  · exact hfirst _ _
  · exact List.cons_ne_nil _ _
  · exact List.cons_ne_nil _ _
  · exact hfirst _ _

/-- **Every place in a document has an address.** The value at the place is found there. If it is an
array, the sign `#` behind the address stands for its length, and with a further path behind the
sign for what that path finds in the items: the findings in order, of those items that have one. -/
theorem get?_address {steps : List Step} {d v : Json} (hne : steps ≠ []) (h : Leads steps d v) :
    get? d (address steps) = some v ∧
      ∀ items, v = .arr items →
        get? d (address steps ++ ".#") = some (.nat items.length) ∧
        ∀ path, get? d (address steps ++ ".#." ++ path)
          = some (.arr (items.filterMap fun item => get? item path)) := by
  refine ⟨?_, ?_⟩
  · have hfound := find?_of_leads h []
    rw [List.append_nil] at hfound
    unfold get?
    rw [parse_address hne, hfound]
    rfl
  · rintro items rfl
    constructor
    · unfold get?
      rw [String.toList_append]
      show find? (parse ((address steps).toList ++ '.' :: ['#'])) d = _
      rw [parse_address_append hne, find?_of_leads h]
      rfl
    · intro path
      unfold get?
      rw [String.toList_append, String.toList_append, List.append_assoc]
      show find? (parse ((address steps).toList ++ '.' :: '#' :: '.' :: path.toList)) d = _
      rw [parse_address_append hne, find?_of_leads h]
      -- the sign is a segment of its own
      show find? (['#'] :: parse path.toList) (.arr items) = _
      rw [find?, if_neg]
      rw [List.isEmpty_iff]
      exact parse_ne_nil path.toList

/-- What stands in a shelf: items with a member `#` and one without. -/
def shelfItems : List Json := [.obj [("#", .nat 7)], .str "x", .obj [("#", .null)]]

/-- A member without a name, in it an item behind another one, in it a name with a dot. -/
def shelf : Json := .obj [("", .arr [.null, .obj [("a.b", .arr shelfItems)]])]

def shelfSteps : List Step := [.member "", .item 1, .member "a.b"]

theorem shelf_addressed :
    shelfSteps ≠ [] ∧ Leads shelfSteps shelf (.arr shelfItems) ∧
      get? shelf ".1.a\\.b" = some (.arr shelfItems) ∧
      get? shelf ".1.a\\.b.#" = some (.nat 3) ∧
      get? shelf ".1.a\\.b.#.#" = some (.arr [.nat 7, .null]) := by
  have hne : shelfSteps ≠ [] := List.cons_ne_nil _ _
  have hleads : Leads shelfSteps shelf (.arr shelfItems) :=
    .member rfl (.item rfl (.member rfl (.here _)))
  have haddress : address shelfSteps = ".1.a\\.b" := by decide
  obtain ⟨hfound, hbehind⟩ := get?_address hne hleads
  obtain ⟨hcount, hitems⟩ := hbehind shelfItems rfl
  rw [haddress] at hfound hcount hitems
  exact ⟨hne, hleads, hfound, hcount, hitems "#"⟩

end MockServer.Json.Path
