/-
  MockServer.Proofs.Document.Record — records read back from the JSON
  that they are written as.

  A record is written as an object with distinct names, so its fields
  are read by looking up their names, and each field by what its type
  makes of it.  A field that may be left out is found where it is, and
  what stands behind it is found either way.  The lemmas here say what
  is found under a name, and that texts, truth values, numbers below
  their bound, choices and lists are read as what was written.

  Main results:
    * `fields?_record` — the fields of a written record;
    * `Fields.optional_omitWhen` — a field that may be left out;
    * `listOf?_arr` — a list is read back item by item.
-/
import Mathlib.Data.List.Nodup
import MockServer.Document.Basic
import MockServer.Json.Build

namespace MockServer.Document

/-! ## Fields -/

theorem entries?_ofMembers (members : List (String × Json)) (variant : Bool) :
    (Document.table (ofMembers members) variant).entries?
      = some (members.map fun m => (m.1, ofJson m.2)) := by
  show (ofMembers members).mapM _ = _
  induction members with
  | nil => rfl
  | cons m rest ih =>
    rw [ofMembers, List.mapM_cons, ih]
    rfl

/-- **The fields of a written record are its members**, if no name is repeated. -/
theorem fields?_record {names : List String} {fields : List Json.Field}
    (h : ((fields.flatMap Json.Field.members).map Prod.fst).Nodup) :
    (ofJson (.record fields)).fields? names
      = some ⟨(fields.flatMap Json.Field.members).map fun m => (m.1, ofJson m.2)⟩ := by
  unfold Json.record
  generalize fields.flatMap Json.Field.members = members at h ⊢
  have hnames : (members.map fun m => (m.1, ofJson m.2)).map Prod.fst = members.map Prod.fst := by
    rw [List.map_map]
    rfl
  show ((Document.table (ofMembers members) true).entries?.bind fun entries =>
    if decide ((entries.map Prod.fst).filter names.contains).Nodup then some (⟨entries⟩ : Fields)
    else none) = _
  rw [entries?_ofMembers, Option.bind_some, hnames, if_pos (decide_eq_true (h.filter _))]

namespace Fields

variable {α : Type} {name : String} {read : Document → Option α}

/-- A field is read under its name. -/
@[simp] theorem required_cons (d : Document) (entries : List (String × Document)) :
    required ⟨(name, d) :: entries⟩ name read = read d := by
  unfold required get?
  rw [List.lookup_cons_self, Option.bind_some]

@[simp] theorem required_cons_of_ne {other : String} (h : name ≠ other) (d : Document)
    (entries : List (String × Document)) :
    required ⟨(other, d) :: entries⟩ name read = required ⟨entries⟩ name read := by
  unfold required get?
  rw [List.lookup_cons, beq_false_of_ne h]

@[simp] theorem optional_nil (absent : α) : optional ⟨[]⟩ name absent read = some absent := rfl

@[simp] theorem optional_cons (absent : α) (d : Document) (entries : List (String × Document)) :
    optional ⟨(name, d) :: entries⟩ name absent read = read d := by
  unfold optional get?
  rw [List.lookup_cons_self]

@[simp] theorem optional_cons_of_ne {other : String} (h : name ≠ other) (absent : α) (d : Document)
    (entries : List (String × Document)) :
    optional ⟨(other, d) :: entries⟩ name absent read = optional ⟨entries⟩ name absent read := by
  unfold optional get?
  rw [List.lookup_cons, beq_false_of_ne h]

@[simp] theorem nullable_nil : nullable ⟨[]⟩ name read = some none := rfl

@[simp] theorem nullable_cons (d : Document) (entries : List (String × Document)) :
    nullable ⟨(name, d) :: entries⟩ name read = nullable? read d :=
  optional_cons none d entries

@[simp] theorem nullable_cons_of_ne {other : String} (h : name ≠ other) (d : Document)
    (entries : List (String × Document)) :
    nullable ⟨(other, d) :: entries⟩ name read = nullable ⟨entries⟩ name read :=
  optional_cons_of_ne h none d entries

end Fields

/-! ## Fields that may be left out -/

/-- The entries that a field is read from. -/
def written (f : Json.Field) : List (String × Document) :=
  f.members.map fun m => (m.1, ofJson m.2)

theorem map_members (fields : List Json.Field) :
    (fields.flatMap Json.Field.members).map (fun m => (m.1, ofJson m.2))
      = fields.flatMap written :=
  List.map_flatMap

@[simp] theorem written_always (name : String) (v : Json) :
    written (.always name v) = [(name, ofJson v)] := rfl

namespace Fields

variable {α : Type} {name : String} {read : Document → Option α}

@[simp] theorem optional_omitWhen (skip : Bool) (v : Json) (absent : α)
    (rest : List (String × Document)) :
    optional ⟨written (.omitWhen skip name v) ++ rest⟩ name absent read
      = if skip then optional ⟨rest⟩ name absent read else read (ofJson v) := by
  cases skip with
  | true => rfl
  | false => exact optional_cons absent (ofJson v) rest

@[simp] theorem optional_omitWhen_of_ne {other : String} (h : name ≠ other) (skip : Bool)
    (v : Json) (absent : α) (rest : List (String × Document)) :
    optional ⟨written (.omitWhen skip other v) ++ rest⟩ name absent read
      = optional ⟨rest⟩ name absent read := by
  cases skip with
  | true => rfl
  | false => exact optional_cons_of_ne h absent (ofJson v) rest

/-- A value that is left out only where it is the absent one is read either way. -/
theorem ite_absent {p : Prop} [Decidable p] {absent x : α} (h : p → x = absent) :
    (if p then some absent else some x) = some x := by
  split
  next hp => rw [h hp]
  next => rfl

end Fields

theorem names_always (name : String) (v : Json) :
    ((Json.Field.always name v).members.map Prod.fst).Sublist [name] :=
  List.Sublist.refl _

theorem names_omitWhen (skip : Bool) (name : String) (v : Json) :
    ((Json.Field.omitWhen skip name v).members.map Prod.fst).Sublist [name] := by
  cases skip with
  | true => exact List.nil_sublist _
  | false => exact List.Sublist.refl _

/-- The names that are written are among those that the fields have, in their order. -/
theorem names_sublist {fields : List Json.Field} {names : List String}
    (h : List.Forall₂ (fun f name => (f.members.map Prod.fst).Sublist [name]) fields names) :
    ((fields.flatMap Json.Field.members).map Prod.fst).Sublist names := by
  induction h with
  | nil => exact List.Sublist.refl _
  | cons hf _ ih =>
    rw [List.flatMap_cons, List.map_append]
    exact hf.append ih

/-! ## Values -/

@[simp] theorem text?_str (s : String) : (ofJson (.str s)).text? = some s := rfl

@[simp] theorem bool?_bool (b : Bool) : (ofJson (.bool b)).bool? = some b := rfl

/-- A number below its bound is read back. -/
theorem nat?_nat {bound n : Nat} (h : n < bound) : (ofJson (.nat n)).nat? bound = some n := by
  simp [nat?, bare, Json.nat, ofJson, h]

@[simp] theorem uint16?_nat (n : UInt16) : (ofJson (.nat n.toNat)).uint16? = some n := by
  unfold uint16?
  rw [nat?_nat n.toNat_lt, Option.map_some, UInt16.ofNat_toNat]

@[simp] theorem uint32?_nat (n : UInt32) : (ofJson (.nat n.toNat)).uint32? = some n := by
  unfold uint32?
  rw [nat?_nat n.toNat_lt, Option.map_some, UInt32.ofNat_toNat]

@[simp] theorem uint64?_nat (n : UInt64) : (ofJson (.nat n.toNat)).uint64? = some n := by
  unfold uint64?
  rw [nat?_nat n.toNat_lt, Option.map_some, UInt64.ofNat_toNat]

/-- A number that is there is not absent. -/
@[simp] theorem nullable?_nat (n : UInt64) :
    nullable? uint64? (ofJson (.nat n.toNat)) = some (some n) := by
  show (uint64? (ofJson (.nat n.toNat))).map some = _
  rw [uint64?_nat, Option.map_some]

/-- A choice is found under its name. -/
@[simp] theorem choice?_str {α : Type} (choices : List (String × α)) (s : String) :
    choice? choices (ofJson (.str s)) = choices.lookup s := rfl

/-- A text that is there is not absent. -/
@[simp] theorem nullable?_str (s : String) : nullable? text? (ofJson (.str s)) = some (some s) := rfl

theorem ofItems_eq_map (items : List Json) : ofItems items = items.map ofJson := by
  induction items with
  | nil => rfl
  | cons v rest ih => rw [ofItems, ih, List.map_cons]

/-- **A list is read back item by item.** -/
theorem listOf?_arr {α β : Type} {read : Document → Option β} {write : α → Json} {f : α → β}
    {xs : List α} (h : ∀ x ∈ xs, read (ofJson (write x)) = some (f x)) :
    listOf? read (ofJson (.arr (xs.map write))) = some (xs.map f) := by
  show (ofItems (xs.map write)).mapM read = _
  rw [ofItems_eq_map]
  induction xs with
  | nil => rfl
  | cons x xs ih =>
    rw [List.forall_mem_cons] at h
    rw [List.map_cons, List.map_cons, List.mapM_cons, h.1, ih h.2]
    rfl

theorem listOf?_texts (ss : List String) :
    listOf? text? (ofJson (.arr (ss.map .str))) = some ss := by
  rw [listOf?_arr fun s _ => text?_str s, List.map_id']

end MockServer.Document
