/-
  MockServer.Proofs.Json.Text — the texts of a token sequence.

  A token has one or several spellings: brackets and words have one, an
  integer has one, and a string has as many as its characters have
  escapes.  A text of a sequence of tokens puts one spelling after the
  other, with any number of blanks before, between and behind them.

  The scanner finds the tokens of each such text again, whatever
  spellings and blanks were chosen.  The one thing it needs is that no
  two scalars are neighbours, because only a number could run on into
  what follows it.

  Main definitions:
    * `StringText`, `Spelled` — the spellings of a string and a token;
    * `Text` — the texts of a token sequence.

  Main result:
    * `lex?_of_text` — the tokens of a text are read back.
-/
import Mathlib
import MockServer.Json.Printer
import MockServer.Json.Token
import MockServer.Proofs.Decimal.Numeral
import MockServer.Proofs.Text.Split

namespace MockServer.JsonToken

/-! ## Spellings -/

/-- The spellings of one character inside a string. -/
inductive CharText : Char → List Char → Prop where
  /-- The character itself, unless it is a quote, a backslash or a control character. -/
  | plain {c : Char} : c ≠ '"' → c ≠ '\\' → 0x20 ≤ c.toNat → CharText c [c]
  /-- A backslash and a letter. -/
  | short {e c : Char} : escapeOf? e = some c → CharText c ['\\', e]
  /-- Four hexadecimal digits. -/
  | unit {a b c d : Char} {u : Nat} : hex4? a b c d = some u → ¬ (0xD800 ≤ u ∧ u < 0xE000) →
      CharText (Char.ofNat u) ['\\', 'u', a, b, c, d]
  /-- A pair of surrogates. -/
  | pair {a b c d e f g h : Char} {u l : Nat} : hex4? a b c d = some u → hex4? e f g h = some l →
      0xD800 ≤ u ∧ u < 0xDC00 → 0xDC00 ≤ l ∧ l < 0xE000 →
      CharText (Char.ofNat (0x10000 + (u - 0xD800) * 0x400 + (l - 0xDC00)))
        ['\\', 'u', a, b, c, d, '\\', 'u', e, f, g, h]

/-- The spellings of a string without its quotes, character by character. -/
inductive StringText : List Char → List Char → Prop where
  | nil : StringText [] []
  | cons {c : Char} {cs xs ys : List Char} : CharText c xs → StringText cs ys →
      StringText (c :: cs) (xs ++ ys)

/-- The spellings of one token. -/
inductive Spelled : JsonToken → List Char → Prop where
  | openObject : Spelled .openObject ['{']
  | closeObject : Spelled .closeObject ['}']
  | openArray : Spelled .openArray ['[']
  | closeArray : Spelled .closeArray [']']
  | comma : Spelled .comma [',']
  | colon : Spelled .colon [':']
  | null : Spelled (.scalar .null) ['n', 'u', 'l', 'l']
  | bool (b : Bool) : Spelled (.scalar (.bool b)) (Json.boolean b)
  /-- An integer of 64 bits, signed or unsigned. -/
  | int {n : Int} : -2 ^ 63 ≤ n → n < 2 ^ 64 → Spelled (.scalar (.num (.int n))) (Json.integer n)
  | str {s : String} {cs : List Char} : StringText s.toList cs →
      Spelled (.scalar (.str s)) ('"' :: cs ++ ['"'])

/-- Are all characters blanks of the format? -/
def AllBlank (cs : List Char) : Prop := ∀ c ∈ cs, isBlank c = true

/-- The texts of a token sequence. -/
inductive Text : List JsonToken → List Char → Prop where
  | nil {b : List Char} : AllBlank b → Text [] b
  | cons {b cs rest : List Char} {t : JsonToken} {ts : List JsonToken} : AllBlank b →
      Spelled t cs → Text ts rest → Text (t :: ts) (b ++ cs ++ rest)

/-! ## Strings -/

theorem escapeOf?_u : escapeOf? 'u' = none := by decide

/-- One spelled character is read, whatever follows it. -/
theorem stringBody_charText {c : Char} {xs : List Char} (h : CharText c xs) (rest : List Char) :
    stringBody (xs ++ rest) = (stringBody rest).map fun (cs, r) => (c :: cs, r) := by
  rw [stringBody.eq_def]
  cases h with
  | plain hq hb hc =>
    have hctrl : ¬ c.toNat < 0x20 := by omega
    simp only [List.cons_append, List.nil_append, if_neg hq, if_neg hb, if_neg hctrl]
  | @short e c he =>
    -- the reader looks for a unit before it looks up the letter
    have hu : e ≠ 'u' := by
      intro h
      rw [h, escapeOf?_u] at he
      exact absurd he (by simp)
    simp only [List.cons_append, List.nil_append, Char.reduceEq, if_false, if_true, if_neg hu, he]
  | @unit a b c d u hu hs =>
    -- a unit that is no surrogate stands alone
    have h1 : ¬ (0xD800 ≤ u ∧ u < 0xDC00) := by omega
    have h2 : ¬ (0xDC00 ≤ u ∧ u < 0xE000) := by omega
    simp only [List.cons_append, List.nil_append, Char.reduceEq, if_false, if_true, hu, if_neg h1,
      if_neg h2]
  | pair hu hl hhigh hlow =>
    simp only [List.cons_append, List.nil_append, Char.reduceEq, if_false, if_true, hu,
      if_pos hhigh, and_self, hl, if_pos hlow]

/-- A spelled string is read up to its closing quote. -/
theorem stringBody_stringText {cs xs : List Char} (h : StringText cs xs) (rest : List Char) :
    stringBody (xs ++ '"' :: rest) = some (cs, rest) := by
  induction h with
  | nil =>
    rw [List.nil_append, stringBody.eq_def]
    exact if_pos rfl
  | cons hc _ ih =>
    rw [List.append_assoc, stringBody_charText hc, ih]
    rfl

theorem number?_digits_pair :
    ∀ n < 32, hex4? '0' '0' (Text.Hex.digit (n / 16)) (Text.Hex.digit (n % 16)) = some n := by
  decide

/-- What the printer writes for a character is a spelling of it. -/
theorem charText_escapeChar (c : Char) : CharText c (Json.escapeChar c) := by
  unfold Json.escapeChar
  repeat' split
  -- two of the eight cases are no letter: control characters, and the character itself
  case isFalse.isFalse.isFalse.isFalse.isFalse.isFalse.isFalse.isTrue hc =>
    have hunit := CharText.unit (number?_digits_pair c.toNat hc) (by omega)
    rwa [Char.ofNat_toNat] at hunit
  case isFalse.isFalse.isFalse.isFalse.isFalse.isFalse.isFalse.isFalse hq hb _ _ _ _ _ hc =>
    exact CharText.plain hq hb (by omega)
  all_goals
    next h =>
      subst h
      exact CharText.short rfl

theorem stringText_escape (cs : List Char) : StringText cs (cs.flatMap Json.escapeChar) := by
  induction cs with
  | nil => exact StringText.nil
  | cons c cs ih =>
    rw [List.flatMap_cons]
    exact StringText.cons (charText_escapeChar c) ih

/-- **What the printer writes for a string is a spelling of it.** -/
theorem spelled_quote (s : String) : Spelled (.scalar (.str s)) (Json.quote s) :=
  Spelled.str (stringText_escape s.toList)

/-! ## Numbers -/

/-- Does the text not go on with a numeral that ends before it? -/
def EndsNumeral (rest : List Char) : Prop :=
  ∀ c r, rest = c :: r → c.isDigit = false ∧ c ≠ '.' ∧ c ≠ 'e' ∧ c ≠ 'E'

theorem takeWhile_digits {ds rest : List Char} (hds : ∀ c ∈ ds, c.isDigit = true)
    (hrest : EndsNumeral rest) :
    (ds ++ rest).takeWhile Char.isDigit = ds ∧ (ds ++ rest).dropWhile Char.isDigit = rest := by
  refine Text.takeWhile_append_stop hds fun c hc => ?_
  obtain ⟨r, hr⟩ := List.head?_eq_some_iff.mp hc
  exact (hrest c r hr).1

theorem wholePart_toDigits (n : Nat) {rest : List Char} (hrest : EndsNumeral rest) :
    wholePart (Nat.toDigits 10 n ++ rest) = some (Nat.toDigits 10 n, rest) := by
  by_cases hn : n = 0
  · rw [hn, Nat.toDigits_zero]
    rfl
  -- the first digit is not zero, which would have to stand alone
  · obtain ⟨d, ds, heq, hd⟩ := Decimal.toDigits_eq_cons (Nat.pos_of_ne_zero hn)
    have hdigits : ∀ c ∈ d :: ds, c.isDigit = true := by
      intro c hc
      rw [← heq] at hc
      exact Decimal.isDigit_of_mem_toDigits hc
    obtain ⟨htake, hdrop⟩ := takeWhile_digits hdigits hrest
    rw [heq, wholePart.eq_def]
    split
    next h => exact absurd (List.cons.inj h).1 hd
    next => simp only [htake, hdrop, List.isEmpty_cons, Bool.false_eq_true, if_false]

theorem fractionPart_ends {rest : List Char} (hrest : EndsNumeral rest) :
    fractionPart rest = some (none, rest) := by
  unfold fractionPart
  split
  next r => exact absurd rfl (hrest '.' r rfl).2.1
  next => rfl

theorem exponentPart_ends {rest : List Char} (hrest : EndsNumeral rest) :
    exponentPart rest = some (none, rest) := by
  cases rest with
  | nil => rfl
  | cons c r =>
    obtain ⟨-, -, he, hE⟩ := hrest c r rfl
    unfold exponentPart
    exact if_neg (by simp only [he, hE, or_self, not_false_eq_true])

theorem integer?_toDigits {n : Int} (hlow : -2 ^ 63 ≤ n) (hhigh : n < 2 ^ 64) :
    integer? (decide (n < 0)) (Nat.toDigits 10 n.natAbs) = some (.int n) := by
  unfold integer?
  rw [Decimal.natOfDigits_toDigits]
  by_cases hneg : n < 0
  · have hmag : 0 < n.natAbs ∧ n.natAbs ≤ Nat.pow 2 63 := by
      rw [Nat.pow_eq]
      omega
    have hval : (-(n.natAbs : Int)) = n := by omega
    simp only [hneg, decide_true, Bool.not_true, Bool.false_eq_true, false_and, if_false, true_and,
      if_pos hmag, hval]
  · have hmag : n.natAbs < UInt64.size := by
      rw [show UInt64.size = 2 ^ 64 from rfl]
      omega
    have hval : (n.natAbs : Int) = n := by omega
    simp only [hneg, decide_false, Bool.not_false, true_and, if_pos hmag, hval]

/-- **An integer is read up to the end of its digits.** -/
theorem number?_integer {n : Int} (hlow : -2 ^ 63 ≤ n) (hhigh : n < 2 ^ 64) {rest : List Char}
    (hrest : EndsNumeral rest) : number? (Json.integer n ++ rest) = some (.int n, rest) := by
  have hread := integer?_toDigits hlow hhigh
  have hwhole := wholePart_toDigits n.natAbs hrest
  unfold Json.integer
  by_cases hneg : n < 0
  · rw [if_pos hneg]
    simp only [hneg, decide_true] at hread
    simp only [number?, List.cons_append, hwhole, fractionPart_ends hrest,
      exponentPart_ends hrest, hread, Option.bind_eq_bind, Option.bind_some, Option.pure_def]
  · rw [if_neg hneg]
    simp only [hneg, decide_false] at hread
    obtain ⟨d, ds, heq⟩ :=
      List.exists_cons_of_ne_nil (Nat.toDigits_ne_nil (n := n.natAbs) (b := 10))
    have hd : d.isDigit = true :=
      Decimal.isDigit_of_mem_toDigits (by rw [heq]; exact List.mem_cons_self)
    -- the reader takes a minus sign off before the digits
    have hminus : d ≠ '-' := by
      intro h
      rw [h] at hd
      exact absurd hd (by decide)
    rw [heq] at hread hwhole ⊢
    rw [List.cons_append] at hwhole ⊢
    simp [number?, hminus, hwhole, fractionPart_ends hrest, exponentPart_ends hrest, hread]

/-! ## Tokens -/

/-- Is the token a value of its own? -/
def isScalar : JsonToken → Bool
  | .scalar _ => true
  | _ => false

theorem next?_number {c : Char} (hc : c = '-' ∨ c.isDigit = true) (rest : List Char) :
    next? c rest = (number? (c :: rest)).map fun (n, r) => (scalar (.num n), r) := by
  unfold next?
  split
  -- the last branch is the one for numbers; the others start with another character
  case h_11 => rfl
  all_goals
    rcases hc with hc | hc
    · exact absurd hc (by decide)
    · exact absurd hc (by decide)

theorem integer_eq_cons (n : Int) :
    ∃ c r, Json.integer n = c :: r ∧ (c = '-' ∨ c.isDigit = true) := by
  unfold Json.integer
  by_cases hneg : n < 0
  · rw [if_pos hneg]
    exact ⟨'-', _, rfl, Or.inl rfl⟩
  · rw [if_neg hneg]
    obtain ⟨d, ds, heq⟩ :=
      List.exists_cons_of_ne_nil (Nat.toDigits_ne_nil (n := n.natAbs) (b := 10))
    exact ⟨d, ds, heq,
      Or.inr (Decimal.isDigit_of_mem_toDigits (by rw [heq]; exact List.mem_cons_self))⟩

theorem isBlank_of_numeral {c : Char} (hc : c = '-' ∨ c.isDigit = true) : isBlank c = false := by
  rcases hc with hc | hc
  · rw [hc]
    rfl
  · unfold isBlank
    simp only [Bool.or_eq_false_iff, decide_eq_false_iff_not]
    refine ⟨⟨⟨?_, ?_⟩, ?_⟩, ?_⟩ <;>
      · intro h
        rw [h] at hc
        exact absurd hc (by decide)

/-- **A spelled token is read up to its end**, which for a scalar must be one. -/
theorem next?_spelled {t : JsonToken} {cs : List Char} (h : Spelled t cs) {rest : List Char}
    (hend : t.isScalar = true → EndsNumeral rest) :
    ∃ c r, cs = c :: r ∧ isBlank c = false ∧ next? c (r ++ rest) = some (t, rest) := by
  cases h with
  | openObject | closeObject | openArray | closeArray | comma | colon =>
    exact ⟨_, _, rfl, rfl, rfl⟩
  | null => exact ⟨_, _, rfl, rfl, rfl⟩
  | bool b => cases b <;> exact ⟨_, _, rfl, rfl, rfl⟩
  | @int n hlow hhigh =>
    obtain ⟨c, r, heq, hc⟩ := integer_eq_cons n
    refine ⟨c, r, heq, isBlank_of_numeral hc, ?_⟩
    have hread := number?_integer hlow hhigh (hend rfl)
    rw [heq, List.cons_append] at hread
    rw [next?_number hc, hread]
    rfl
  | @str s cs hs =>
    refine ⟨'"', cs ++ ['"'], rfl, rfl, ?_⟩
    rw [List.append_assoc, List.singleton_append]
    show (stringBody (cs ++ '"' :: rest)).map _ = _
    rw [stringBody_stringText hs]
    show some (scalar (.str (String.ofList s.toList)), rest) = _
    rw [String.ofList_toList]

/-! ## Texts -/

/-- Are no two scalars neighbours? -/
def Separated (ts : List JsonToken) : Prop :=
  ts.IsChain fun t u => ¬ (t.isScalar = true ∧ u.isScalar = true)

theorem endsNumeral_of_allBlank {b rest : List Char} (hb : AllBlank b) (hrest : EndsNumeral rest) :
    EndsNumeral (b ++ rest) := by
  cases b with
  | nil => exact hrest
  | cons c b =>
    intro d r heq
    have hc := hb c List.mem_cons_self
    rw [(List.cons.inj heq).1] at hc
    unfold isBlank at hc
    simp only [Bool.or_eq_true, decide_eq_true_eq] at hc
    rcases hc with ((hc | hc) | hc) | hc <;> rw [hc] <;> decide

theorem endsNumeral_nil : EndsNumeral [] := by
  intro c r h
  exact absurd h (by simp)

/-- What follows a scalar in a text of separated tokens ends a numeral. -/
theorem endsNumeral_of_text {ts : List JsonToken} {rest : List Char} (h : Text ts rest)
    (hts : ∀ t ∈ ts.head?, t.isScalar = false) : EndsNumeral rest := by
  cases h with
  | nil hb =>
    have hend := endsNumeral_of_allBlank hb endsNumeral_nil
    rwa [List.append_nil] at hend
  | @cons b cs rest t ts hb ht _ =>
    rw [List.append_assoc]
    apply endsNumeral_of_allBlank hb
    -- a bracket, a comma or a colon stops every numeral
    have hscalar : t.isScalar = false := hts t rfl
    intro c r heq
    cases ht with
    | openObject | closeObject | openArray | closeArray | comma | colon =>
      rw [← (List.cons.inj heq).1]
      decide
    | null | bool | int | str => exact absurd hscalar (by simp [isScalar])

theorem lexUpTo_allBlank {b rest : List Char} {ts : List JsonToken} (hb : AllBlank b)
    (hrest : ∀ fuel, rest.length ≤ fuel → lexUpTo fuel rest = some ts) :
    ∀ fuel, (b ++ rest).length ≤ fuel → lexUpTo fuel (b ++ rest) = some ts := by
  induction b with
  | nil => exact hrest
  | cons c b ih =>
    intro fuel hfuel
    cases fuel with
    | zero => exact absurd hfuel (by simp)
    | succ fuel =>
      rw [List.cons_append, lexUpTo, if_pos (hb c List.mem_cons_self)]
      exact ih (fun d hd => hb d (List.mem_cons_of_mem _ hd)) fuel
        (by simpa only [List.cons_append, List.length_cons, Nat.succ_le_succ_iff] using hfuel)

theorem lexUpTo_of_text {ts : List JsonToken} {cs : List Char} (h : Text ts cs)
    (hts : Separated ts) : ∀ fuel, cs.length ≤ fuel → lexUpTo fuel cs = some ts := by
  -- one spelling and its blanks are read per step; fuel goes down with the text
  induction h with
  | @nil b hb =>
    have hnil : ∀ fuel, ([] : List Char).length ≤ fuel → lexUpTo fuel [] = some [] := by
      intro fuel _
      cases fuel <;> rfl
    have hread := lexUpTo_allBlank hb hnil
    rwa [List.append_nil] at hread
  | @cons b cs rest t ts hb ht htext ih =>
    rw [List.append_assoc]
    apply lexUpTo_allBlank hb
    intro fuel hfuel
    -- behind a scalar there is no scalar, so a number cannot run on
    have hend : t.isScalar = true → EndsNumeral rest := by
      intro hscalar
      apply endsNumeral_of_text htext
      intro u hu
      have hpair := List.IsChain.rel_head? hts hu
      rw [Bool.eq_false_iff]
      exact fun husc => hpair ⟨hscalar, husc⟩
    obtain ⟨c, r, hcs, hblank, hnext⟩ := next?_spelled ht hend
    subst hcs
    cases fuel with
    | zero => exact absurd hfuel (by simp)
    | succ fuel =>
      have hlen : rest.length ≤ fuel := by
        simp only [List.cons_append, List.length_cons, List.length_append] at hfuel
        omega
      rw [List.cons_append, lexUpTo, if_neg (by rw [hblank]; decide), hnext]
      show (lexUpTo fuel rest).map (t :: ·) = _
      rw [ih hts.tail fuel hlen]
      rfl

/-- **The scanner finds the tokens of every text of a separated sequence.** -/
theorem lex?_of_text {ts : List JsonToken} {cs : List Char} (hts : Separated ts)
    (h : Text ts cs) : lex? cs = some ts :=
  lexUpTo_of_text h hts cs.length (Nat.le_refl _)

end MockServer.JsonToken
