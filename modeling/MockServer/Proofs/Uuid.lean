/-
  MockServer.Proofs.Uuid — identifiers that are drawn, and their text.

  A random identifier keeps the last bits of the number it is made of,
  so numbers drawn one after another make different ones, and it says of
  itself that it is random.  The text of an identifier has 36
  characters, which are hexadecimal digits in lower case and hyphens.

  Main results:
    * `ofRandom_inj` — draws differ from each other;
    * `isRandom_ofRandom` — the version of a random identifier;
    * `length_toText`, `mem_toText` — the text of an identifier.
-/
import Mathlib.Data.List.TakeDrop
import MockServer.Uuid

namespace MockServer.Uuid

/-! ## Random identifiers -/

theorem toNat_ofRandom (n : Nat) :
    (ofRandom n).bits.toNat
      = n / Nat.pow 2 80 % Nat.pow 2 48 * Nat.pow 2 80 +
        (0x4000 + n / Nat.pow 2 64 % Nat.pow 2 12) * Nat.pow 2 64 + Nat.pow 2 63 +
        n % Nat.pow 2 62 := by
  unfold ofRandom
  simp only [BitVec.toNat_ofNat, Nat.pow_eq]
  -- the version and the variant leave the number below its bound
  omega

theorem toNat_ofRandom_mod (n : Nat) :
    (ofRandom n).bits.toNat % Nat.pow 2 62 = n % Nat.pow 2 62 := by
  rw [toNat_ofRandom]
  simp only [Nat.pow_eq]
  omega

/-- Numbers that are drawn after each other make different identifiers: the last 62 bits of a
number are kept. -/
theorem ofRandom_inj {start m n : Nat} (hm : start ≤ m ∧ m < start + Nat.pow 2 62)
    (hn : start ≤ n ∧ n < start + Nat.pow 2 62) (h : ofRandom m = ofRandom n) : m = n := by
  have hmod : m % Nat.pow 2 62 = n % Nat.pow 2 62 := by
    rw [← toNat_ofRandom_mod, h, toNat_ofRandom_mod]
  simp only [Nat.pow_eq] at hm hn hmod
  omega

/-- **A random identifier is of the version for random ones.** -/
theorem isRandom_ofRandom (n : Nat) : (ofRandom n).isRandom = true := by
  unfold isRandom
  rw [beq_iff_eq, toNat_ofRandom]
  simp only [Nat.pow_eq]
  omega

/-! ## Text -/

theorem length_hexDigits (n x : Nat) : (hexDigits n x).length = n := by
  induction n generalizing x with
  | zero => rfl
  | succ n ih => rw [hexDigits, List.length_append, ih, List.length_singleton]

theorem mem_hexDigits {n x : Nat} {c : Char} (h : c ∈ hexDigits n x) :
    ∃ d < 16, c = Text.Hex.digit d := by
  induction n generalizing x with
  | zero => exact absurd h List.not_mem_nil
  | succ n ih =>
    rw [hexDigits, List.mem_append, List.mem_singleton] at h
    rcases h with h | h
    · exact ih h
    · exact ⟨x % 16, Nat.mod_lt x (by decide), h⟩

/-- Hyphens cut 32 digits into groups and add four characters. -/
theorem length_hyphenate {ds : List Char} (h : ds.length = 32) : (hyphenate ds).length = 36 := by
  unfold hyphenate
  simp only [List.length_append, List.length_cons, List.length_take, List.length_drop, h]
  omega

theorem mem_hyphenate {ds : List Char} {c : Char} (h : c ∈ hyphenate ds) : c = '-' ∨ c ∈ ds := by
  -- every group is a stretch of the digits
  have htake : ∀ m n : Nat, c ∈ (ds.drop m).take n → c ∈ ds :=
    fun m n hmem => List.mem_of_mem_drop (List.mem_of_mem_take hmem)
  have hdrop : ∀ m : Nat, c ∈ ds.drop m → c ∈ ds := fun m => List.mem_of_mem_drop
  have hfirst : c ∈ ds.take 8 → c ∈ ds := List.mem_of_mem_take
  unfold hyphenate at h
  simp only [List.mem_append, List.mem_cons] at h
  grind

theorem length_toText (u : Uuid) : u.toText.toList.length = 36 := by
  unfold toText
  rw [String.toList_ofList]
  exact length_hyphenate (length_hexDigits 32 u.bits.toNat)

/-- **The text of an identifier has digits in lower case and hyphens.** -/
theorem mem_toText {u : Uuid} {c : Char} (h : c ∈ u.toText.toList) :
    c = '-' ∨ ∃ d < 16, c = Text.Hex.digit d := by
  unfold toText at h
  rw [String.toList_ofList] at h
  exact (mem_hyphenate h).imp id mem_hexDigits

end MockServer.Uuid
