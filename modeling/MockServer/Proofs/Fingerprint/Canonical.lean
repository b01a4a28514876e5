/-
  MockServer.Proofs.Fingerprint.Canonical — what a canonical text
  identifies.

  Two documents have one canonical text exactly when they have one
  meaning: objects as tables, arrays item by item, numbers by their
  spelling.  In one direction the settled documents are written alike;
  in the other the text has only one reading, because a number is
  spelled with the characters of a numeral.  An integer up to `2^53`
  and the doubles of its value, `-0.0` included, are spelled alike.

  Main results:
    * `spelling_canonicalNumber` — numbers are spelled as numerals;
    * `canonicalNumber_float` — a double with the value of an integer;
    * `canonicalText_eq_iff_same` — one text, one meaning.
-/
import MockServer.Proofs.Fingerprint
import MockServer.Proofs.Json.Readable

namespace MockServer.Fingerprint

open Decimal
open Json (IsNumeral Same Spelling isNumeralChar)

/-! ## Numerals -/

theorem isNumeral_toDigits (n : Nat) : IsNumeral (Nat.toDigits 10 n) := by
  refine ⟨Nat.toDigits_ne_nil, fun c hc => ?_⟩
  rw [isNumeralChar, isDigit_of_mem_toDigits hc]
  rfl

theorem isNumeral_cons {c : Char} (hc : isNumeralChar c = true) {cs : List Char}
    (hcs : ∀ d ∈ cs, isNumeralChar d = true) : IsNumeral (c :: cs) :=
  ⟨List.cons_ne_nil c cs, List.forall_mem_cons.mpr ⟨hc, hcs⟩⟩

theorem isNumeral_append {cs ds : List Char} (hcs : IsNumeral cs)
    (hds : ∀ d ∈ ds, isNumeralChar d = true) : IsNumeral (cs ++ ds) :=
  ⟨List.append_ne_nil_of_left_ne_nil hcs.1 ds, List.forall_mem_append.mpr ⟨hcs.2, hds⟩⟩

theorem isNumeral_integer (k : Int) : IsNumeral (Json.integer k) := by
  unfold Json.integer
  split
  · exact isNumeral_cons (by decide) (isNumeral_toDigits _).2
  · exact isNumeral_toDigits _

theorem isNumeral_positional (fraction : Bool) {ds : List Char} (hds : IsNumeral ds)
    (point : Int) : IsNumeral (Layout.positional fraction ds point) := by
  have hzeros : ∀ n, ∀ c ∈ List.replicate n '0', isNumeralChar c = true := by
    intro n c hc
    rw [List.eq_of_mem_replicate hc]
    decide
  have hfraction : ∀ c ∈ if fraction then ['.', '0'] else [], isNumeralChar c = true := by
    cases fraction with
    | false => exact List.forall_mem_nil _
    | true => exact (isNumeral_cons (by decide) (isNumeral_toDigits 0).2).2
  unfold Layout.positional
  split
  · exact isNumeral_append (isNumeral_cons (by decide)
      (isNumeral_cons (by decide) (hzeros _)).2) hds.2
  · dsimp only
    split
    · exact isNumeral_append (isNumeral_append hds (hzeros _)) hfraction
    · have hpoint : IsNumeral ('.' :: ds.drop point.toNat) :=
        isNumeral_cons (by decide) fun c hc => hds.2 c (List.mem_of_mem_drop hc)
      exact ⟨List.append_ne_nil_of_right_ne_nil _ hpoint.1, List.forall_mem_append.mpr
        ⟨fun c hc => hds.2 c (List.mem_of_mem_take hc), hpoint.2⟩⟩

theorem isNumeral_scientific {ds : List Char} (hds : IsNumeral ds) (k : Int) :
    IsNumeral (Layout.scientific ds k) := by
  have hexponent : ∀ c ∈ 'e' :: (if k < 0 then '-' else '+') :: Nat.toDigits 10 k.natAbs,
      isNumeralChar c = true := by
    have hsign : isNumeralChar (if k < 0 then '-' else '+') = true := by split <;> decide
    exact (isNumeral_cons (by decide) (isNumeral_cons hsign (isNumeral_toDigits _).2).2).2
  unfold Layout.scientific
  refine isNumeral_append ?_ hexponent
  split
  · exact absurd rfl hds.1
  · exact hds
  · obtain ⟨hd, hrest⟩ := List.forall_mem_cons.mp hds.2
    exact isNumeral_cons hd (isNumeral_cons (by decide) hrest).2

theorem isNumeral_render (layout : Layout) (x : Binary64) : IsNumeral (layout.render x) := by
  have hds := isNumeral_toDigits (Shortest.digits x).digits
  have hzero : IsNumeral (if layout.fraction then ['0', '.', '0'] else ['0']) := by
    split
    · exact isNumeral_cons (by decide) (isNumeral_cons (by decide) (isNumeral_toDigits 0).2).2
    · exact isNumeral_toDigits 0
  unfold Layout.render
  extract_lets d ds k body
  have hbody : IsNumeral body := by
    unfold body
    split
    · exact hzero
    · split
      · exact isNumeral_positional _ hds _
      · exact isNumeral_scientific hds _
  split
  · exact isNumeral_cons (by decide) hbody.2
  · exact hbody

/-- **Every number is spelled as a numeral.** -/
theorem spelling_canonicalNumber : Spelling canonicalNumber := by
  intro n
  unfold canonicalNumber
  dsimp only
  split
  · split
    · exact isNumeral_integer _
    · exact isNumeral_render _ _
  · exact isNumeral_render _ _

/-- **A double with the value of an integer up to `2^53` is spelled like the integer.** -/
theorem canonicalNumber_float {k : Int} {x : Binary64} (hk : k.natAbs ≤ maxExact)
    (hx : x.value = k) : canonicalNumber (.float x) = canonicalNumber (.int k) := by
  have hint : x.toInt? = some k := (x.toInt?_eq_some_iff k).mpr hx
  rw [canonicalNumber_int hk]
  unfold canonicalNumber double
  simp only [hint, if_pos hk]

/-! ## Main result -/

/-- **A canonical text identifies exactly the documents with one meaning**: objects are compared as
tables from names to values at every depth, arrays item by item, strings, booleans and null as they
are, and numbers by their canonical spelling; and an integer of magnitude at most `2^53` is spelled
like every double that has its value. -/
theorem canonicalText_eq_iff_same (v w : Json) :
    (canonicalText v = canonicalText w ↔ Same canonicalNumber v w) ∧
    ∀ (k : Int) (x : Binary64), k.natAbs ≤ maxExact → x.value = k →
      canonicalNumber (.float x) = canonicalNumber (.int k) := by
  refine ⟨⟨fun h => ?_, fun h => ?_⟩, fun k x => canonicalNumber_float⟩
  · have hwrite := congrArg String.toList h
    unfold canonicalText at hwrite
    rw [String.toList_ofList, String.toList_ofList] at hwrite
    exact Json.same_of_settle (Json.same_of_write_eq spelling_canonicalNumber hwrite)
  · exact congrArg String.ofList h.write_settle

/-- An object with an array, and the same object with its members in the other order, a name twice
and another zero. -/
theorem canonicalText_of_reordered :
    canonicalText (.obj [("b", .arr [.num (.float ⟨true, 0, -1074⟩), .null]), ("a", .str "x")])
      = canonicalText (.obj [("a", .null), ("a", .str "x"), ("b", .arr [.num (.int 0), .null])]) ∧
    canonicalNumber (.float ⟨true, 0, -1074⟩) = canonicalNumber (.int 0) := by
  have hzero : canonicalNumber (.float ⟨true, 0, -1074⟩) = canonicalNumber (.int 0) :=
    (canonicalText_eq_iff_same .null .null).2 0 _ (by decide) (by simp [Binary64.value])
  refine ⟨(canonicalText_eq_iff_same _ _).1.mpr ?_, hzero⟩
  have harr : Same canonicalNumber (.arr [.num (.float ⟨true, 0, -1074⟩), .null])
      (.arr [.num (.int 0), .null]) :=
    Json.same_arr (.cons (.num hzero) (.cons .null .nil))
  have hrel : ∀ name, Option.Rel (Same canonicalNumber)
      (Json.member? (.obj [("b", .arr [.num (.float ⟨true, 0, -1074⟩), .null]), ("a", .str "x")])
        name)
      (Json.member? (.obj [("a", .null), ("a", .str "x"), ("b", .arr [.num (.int 0), .null])])
        name) := by
    intro name
    simp only [Json.member?, List.reverse_cons, List.reverse_nil, List.nil_append,
      List.cons_append, Dict.lookup_cons_eq]
    by_cases ha : name = "a"
    · rw [if_pos ha, ha, if_neg (by decide), if_pos rfl]
      exact .some (.str "x")
    · rw [if_neg ha, if_neg ha, if_neg ha]
      split
      · exact .some harr
      · exact .none
  exact .obj (fun name => (Json.rel_iff.mp (hrel name)).1)
    fun name => (Json.rel_iff.mp (hrel name)).2

end MockServer.Fingerprint
