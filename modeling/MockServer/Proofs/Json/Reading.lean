/-
  MockServer.Proofs.Json.Reading — documents read back from their texts.

  A document has one sequence of tokens, its members in their order.
  The machine that is fed these tokens ends with that very document,
  members in the same order, as long as it need not keep more than 127
  containers open.  With the scanner in front of it, every text of the
  tokens is read as the document.

  Main definitions:
    * `tokens` — the tokens of a document;
    * `depth` — how deep its containers are nested.

  Main results:
    * `foldlM_feed?_tokens` — the machine takes the tokens of a value
      and delivers the value;
    * `parseChars?_of_text` — the document of a text is read back;
    * `text_write` — what the printer writes is a text.
-/
import MockServer.Json.Parser
import MockServer.Proofs.Json.Text

namespace MockServer.Json

/-! ## Tokens of a document -/

mutual

/-- The tokens of a document, members in their order. -/
def tokens : Json → List JsonToken
  | .null => [.scalar .null]
  | .bool b => [.scalar (.bool b)]
  | .num n => [.scalar (.num n)]
  | .str s => [.scalar (.str s)]
  | .arr [] => [.openArray, .closeArray]
  | .arr (v :: rest) => .openArray :: tokens v ++ itemTokens rest
  | .obj [] => [.openObject, .closeObject]
  | .obj ((name, v) :: rest) =>
    .openObject :: .scalar (.str name) :: .colon :: tokens v ++ memberTokens rest

/-- The tokens of the items after the first, and of the closing bracket. -/
def itemTokens : List Json → List JsonToken
  | [] => [.closeArray]
  | v :: rest => .comma :: tokens v ++ itemTokens rest

/-- The tokens of the members after the first, and of the closing brace. -/
def memberTokens : List (String × Json) → List JsonToken
  | [] => [.closeObject]
  | (name, v) :: rest =>
    .comma :: .scalar (.str name) :: .colon :: tokens v ++ memberTokens rest

end

mutual

/-- How many containers are nested in each other at most. -/
def depth : Json → Nat
  | .arr items => itemDepth items + 1
  | .obj members => memberDepth members + 1
  | .null | .bool _ | .num _ | .str _ => 0

/-- The greatest depth of an item. -/
def itemDepth : List Json → Nat
  | [] => 0
  | v :: rest => max (depth v) (itemDepth rest)

/-- The greatest depth of the value of a member. -/
def memberDepth : List (String × Json) → Nat
  | [] => 0
  | (_, v) :: rest => max (depth v) (memberDepth rest)

end

/-! ## The machine -/

/-- Feeding the first of several tokens. -/
theorem foldlM_feed?_cons (r : Reading) (t : JsonToken) (ts : List JsonToken) :
    (t :: ts).foldlM feed? r = (feed? r t).bind fun r => ts.foldlM feed? r := rfl

/-- The first token of a value, which is none of a closing bracket. -/
theorem tokens_eq_cons (v : Json) :
    ∃ t ts, tokens v = t :: ts ∧ t ≠ .closeArray := by
  cases v with
  | null | bool | num | str => exact ⟨_, _, rfl, by simp⟩
  | arr items => cases items <;> exact ⟨_, _, rfl, by simp⟩
  | obj members => cases members <;> exact ⟨_, _, rfl, by simp⟩

/-- An array starts its first item as it starts any other. -/
theorem foldlM_feed?_firstItem (v : Json) (stack : List Frame) (rest : List JsonToken) :
    (tokens v ++ rest).foldlM feed? (.firstItem stack)
      = (tokens v ++ rest).foldlM feed? (.value (.array [] :: stack)) := by
  obtain ⟨t, ts, heq, ht⟩ := tokens_eq_cons v
  rw [heq, List.cons_append, foldlM_feed?_cons, foldlM_feed?_cons]
  congr 1
  cases t with
  | closeArray => exact absurd rfl ht
  | _ => rfl

mutual

/-- **The machine takes the tokens of a value and delivers the value**, whatever containers are
open around it. -/
theorem foldlM_feed?_tokens : ∀ (v : Json) (stack : List Frame) (rest : List JsonToken),
    stack.length + depth v ≤ maxOpen →
    (tokens v ++ rest).foldlM feed? (.value stack) = rest.foldlM feed? (deliver v stack)
  | .null, _, _, _ | .bool _, _, _, _ | .num _, _, _, _ | .str _, _, _, _ => rfl
  | .arr [], stack, rest, h => by
    have hopen : stack.length < maxOpen := by
      unfold depth at h
      omega
    show (begin? .openArray stack).bind _ = _
    rw [show begin? .openArray stack = some (.firstItem stack) from if_pos hopen]
    rfl
  | .arr (v :: items), stack, rest, h => by
    have hv : stack.length + 1 + depth v ≤ maxOpen := by
      unfold depth itemDepth at h
      omega
    have hitems : stack.length + 1 + itemDepth items ≤ maxOpen := by
      unfold depth itemDepth at h
      omega
    rw [tokens, List.cons_append, List.cons_append, List.append_assoc, foldlM_feed?_cons]
    -- open the array, read its first item, go on with the others
    rw [show feed? (.value stack) .openArray = some (.firstItem stack) from
      if_pos (by omega), Option.bind_some, foldlM_feed?_firstItem,
      foldlM_feed?_tokens v _ _ (by rw [List.length_cons]; exact hv)]
    show (itemTokens items ++ rest).foldlM feed? (.afterItem [v] stack) = _
    rw [foldlM_feed?_itemTokens items [v] stack rest hitems]
    rfl
  | .obj [], stack, rest, h => by
    have hopen : stack.length < maxOpen := by
      unfold depth at h
      omega
    show (begin? .openObject stack).bind _ = _
    rw [show begin? .openObject stack = some (.firstName stack) from if_pos hopen]
    rfl
  | .obj ((name, v) :: members), stack, rest, h => by
    have hv : stack.length + 1 + depth v ≤ maxOpen := by
      unfold depth memberDepth at h
      omega
    have hmembers : stack.length + 1 + memberDepth members ≤ maxOpen := by
      unfold depth memberDepth at h
      omega
    rw [tokens, List.cons_append, List.cons_append, List.cons_append, List.cons_append,
      List.append_assoc, foldlM_feed?_cons]
    -- the name and the colon are taken before the value of the first member
    rw [show feed? (.value stack) .openObject = some (.firstName stack) from
      if_pos (by omega), Option.bind_some]
    show (tokens v ++ (memberTokens members ++ rest)).foldlM feed?
      (.value (.object [] name :: stack)) = _
    rw [foldlM_feed?_tokens v _ _ (by rw [List.length_cons]; exact hv)]
    show (memberTokens members ++ rest).foldlM feed? (.afterMember [(name, v)] stack) = _
    rw [foldlM_feed?_memberTokens members [(name, v)] stack rest hmembers]
    rfl

/-- The further items of an array, and its end. -/
theorem foldlM_feed?_itemTokens : ∀ (items before : List Json) (stack : List Frame)
    (rest : List JsonToken), stack.length + 1 + itemDepth items ≤ maxOpen →
    (itemTokens items ++ rest).foldlM feed? (.afterItem before stack)
      = rest.foldlM feed? (deliver (.arr (before.reverse ++ items)) stack)
  | [], before, stack, rest, _ => by
    rw [List.append_nil]
    rfl
  | v :: items, before, stack, rest, h => by
    have hv : stack.length + 1 + depth v ≤ maxOpen := by
      unfold itemDepth at h
      omega
    have hitems : stack.length + 1 + itemDepth items ≤ maxOpen := by
      unfold itemDepth at h
      omega
    rw [itemTokens, List.cons_append, List.cons_append, List.append_assoc, foldlM_feed?_cons]
    show (tokens v ++ (itemTokens items ++ rest)).foldlM feed? (.value (.array before :: stack)) = _
    rw [foldlM_feed?_tokens v _ _ (by rw [List.length_cons]; exact hv)]
    show (itemTokens items ++ rest).foldlM feed? (.afterItem (v :: before) stack) = _
    -- items are kept newest first, so the new one moves behind the ones before
    rw [foldlM_feed?_itemTokens items (v :: before) stack rest hitems, List.reverse_cons,
      List.append_assoc, List.singleton_append]

/-- The further members of an object, and its end. -/
theorem foldlM_feed?_memberTokens : ∀ (members before : List (String × Json))
    (stack : List Frame) (rest : List JsonToken),
    stack.length + 1 + memberDepth members ≤ maxOpen →
    (memberTokens members ++ rest).foldlM feed? (.afterMember before stack)
      = rest.foldlM feed? (deliver (.obj (before.reverse ++ members)) stack)
  | [], before, stack, rest, _ => by
    rw [List.append_nil]
    rfl
  | (name, v) :: members, before, stack, rest, h => by
    have hv : stack.length + 1 + depth v ≤ maxOpen := by
      unfold memberDepth at h
      omega
    have hmembers : stack.length + 1 + memberDepth members ≤ maxOpen := by
      unfold memberDepth at h
      omega
    rw [memberTokens, List.cons_append, List.cons_append, List.cons_append, List.cons_append,
      List.append_assoc]
    show (tokens v ++ (memberTokens members ++ rest)).foldlM feed?
      (.value (.object before name :: stack)) = _
    rw [foldlM_feed?_tokens v _ _ (by rw [List.length_cons]; exact hv)]
    show (memberTokens members ++ rest).foldlM feed? (.afterMember ((name, v) :: before) stack) = _
    rw [foldlM_feed?_memberTokens members ((name, v) :: before) stack rest hmembers,
      List.reverse_cons, List.append_assoc, List.singleton_append]

end

/-- The machine reads the tokens of a document as the document. -/
theorem ofTokens?_tokens {v : Json} (h : depth v ≤ maxOpen) : ofTokens? (tokens v) = some v := by
  have hrun := foldlM_feed?_tokens v [] [] (by rw [List.length_nil]; omega)
  rw [List.append_nil] at hrun
  unfold ofTokens?
  rw [hrun]
  rfl

/-! ## Texts of a document -/

open JsonToken (Separated Spelled Text isScalar)

theorem separated_cons {t : JsonToken} {ts : List JsonToken} (ht : t.isScalar = false)
    (hts : Separated ts) : Separated (t :: ts) := by
  refine List.isChain_cons.mpr ⟨?_, hts⟩
  intro u _ h
  rw [ht] at h
  exact absurd h.1 (by decide)

theorem separated_scalar {v : Json} {t : JsonToken} {ts : List JsonToken}
    (ht : t.isScalar = false) (hts : Separated (t :: ts)) : Separated (.scalar v :: t :: ts) := by
  refine List.isChain_cons.mpr ⟨?_, hts⟩
  intro u hu h
  rw [List.head?_cons, Option.mem_some_iff] at hu
  rw [← hu, ht] at h
  exact absurd h.2 (by decide)

/-- The tokens after a value start with a separator or a closing bracket, or there are none. -/
def Follows (rest : List JsonToken) : Prop :=
  Separated rest ∧ ∀ t ∈ rest.head?, t.isScalar = false

theorem follows_cons {t : JsonToken} {ts : List JsonToken} (ht : t.isScalar = false)
    (hts : Separated ts) : Follows (t :: ts) := by
  refine ⟨separated_cons ht hts, ?_⟩
  intro u hu
  rw [List.head?_cons, Option.mem_some_iff] at hu
  rwa [← hu]

theorem separated_scalar_append {v : Json} {rest : List JsonToken} (h : Follows rest) :
    Separated (.scalar v :: rest) := by
  refine List.isChain_cons.mpr ⟨?_, h.1⟩
  intro u hu hboth
  rw [h.2 u hu] at hboth
  exact absurd hboth.2 (by decide)

mutual

/-- No two scalars are neighbours in the tokens of a document. -/
theorem separated_tokens_append : ∀ (v : Json) {rest : List JsonToken}, Follows rest →
    Separated (tokens v ++ rest)
  | .null, _, h | .bool _, _, h | .num _, _, h | .str _, _, h => separated_scalar_append h
  | .arr [], _, h | .obj [], _, h => separated_cons rfl (separated_cons rfl h.1)
  | .arr (v :: items), rest, h => by
    rw [tokens, List.cons_append, List.cons_append, List.append_assoc]
    exact separated_cons rfl (separated_tokens_append v (follows_itemTokens_append items h.1))
  | .obj ((name, v) :: members), rest, h => by
    rw [tokens, List.cons_append, List.cons_append, List.cons_append, List.cons_append,
      List.append_assoc]
    exact separated_cons rfl (separated_scalar rfl (separated_cons rfl
      (separated_tokens_append v (follows_memberTokens_append members h.1))))

theorem follows_itemTokens_append : ∀ (items : List Json) {rest : List JsonToken},
    Separated rest → Follows (itemTokens items ++ rest)
  | [], _, h => follows_cons rfl h
  | v :: items, rest, h => by
    rw [itemTokens, List.cons_append, List.cons_append, List.append_assoc]
    exact follows_cons rfl (separated_tokens_append v (follows_itemTokens_append items h))

theorem follows_memberTokens_append : ∀ (members : List (String × Json))
    {rest : List JsonToken}, Separated rest → Follows (memberTokens members ++ rest)
  | [], _, h => follows_cons rfl h
  | (name, v) :: members, rest, h => by
    rw [memberTokens, List.cons_append, List.cons_append, List.cons_append, List.cons_append,
      List.append_assoc]
    exact follows_cons rfl (separated_scalar rfl (separated_cons rfl
      (separated_tokens_append v (follows_memberTokens_append members h))))

end

theorem separated_tokens (v : Json) : Separated (tokens v) := by
  have hnil : Follows [] := ⟨List.isChain_nil, by simp⟩
  have h := separated_tokens_append v hnil
  rwa [List.append_nil] at h

/-- **Every text of a document of at most 127 levels is read as that document.** -/
theorem parseChars?_of_text {v : Json} {cs : List Char} (hdepth : depth v ≤ maxOpen)
    (h : Text (tokens v) cs) : parseChars? cs = some v := by
  unfold parseChars?
  rw [JsonToken.lex?_of_text (separated_tokens v) h, Option.bind_some, ofTokens?_tokens hdepth]

/-! ## What the printer writes -/

mutual

/-- The numbers of a document. -/
def numbers : Json → List JsonNumber
  | .num n => [n]
  | .arr items => itemNumbers items
  | .obj members => memberNumbers members
  | .null | .bool _ | .str _ => []

/-- The numbers of all items. -/
def itemNumbers : List Json → List JsonNumber
  | [] => []
  | v :: rest => numbers v ++ itemNumbers rest

/-- The numbers in the values of all members. -/
def memberNumbers : List (String × Json) → List JsonNumber
  | [] => []
  | (_, v) :: rest => numbers v ++ memberNumbers rest

end

/-- One more token in front of a text, without any blanks. -/
theorem text_cons {t : JsonToken} {ts : List JsonToken} {cs rest : List Char} (ht : Spelled t cs)
    (h : Text ts rest) : Text (t :: ts) (cs ++ rest) :=
  Text.cons (b := []) (by simp [JsonToken.AllBlank]) ht h

variable {num : JsonNumber → List Char}

mutual

/-- The printer writes a value, whatever text follows it. -/
theorem text_write_append : ∀ (v : Json),
    (∀ n ∈ numbers v, Spelled (.scalar (.num n)) (num n)) →
    ∀ {ts : List JsonToken} {cs : List Char}, Text ts cs →
    Text (tokens v ++ ts) (write num v ++ cs)
  | .null, _, _, _, h => text_cons .null h
  | .bool b, _, _, _, h => text_cons (.bool b) h
  | .num n, hn, _, _, h => text_cons (hn n (by simp [numbers])) h
  | .str s, _, _, _, h => text_cons (JsonToken.spelled_quote s) h
  | .arr [], _, ts, cs, h => by
    show Text (.openArray :: .closeArray :: ts) (['['] ++ ([']'] ++ cs))
    exact text_cons .openArray (text_cons .closeArray h)
  | .obj [], _, ts, cs, h => by
    show Text (.openObject :: .closeObject :: ts) (['{'] ++ (['}'] ++ cs))
    exact text_cons .openObject (text_cons .closeObject h)
  | .arr (v :: items), hn, ts, cs, h => by
    rw [tokens, write, List.cons_append, List.cons_append, List.append_assoc, List.cons_append,
      List.cons_append, List.append_assoc]
    simp only [numbers, itemNumbers, List.mem_append] at hn
    exact text_cons .openArray (text_write_append v (fun n h => hn n (Or.inl h))
      (text_writeItems_append items (fun n h => hn n (Or.inr h)) h))
  | .obj ((name, v) :: members), hn, ts, cs, h => by
    simp only [numbers, memberNumbers, List.mem_append] at hn
    have hrest := text_write_append v (fun n h => hn n (Or.inl h))
      (text_writeMembers_append members (fun n h => hn n (Or.inr h)) h)
    have htext := text_cons .openObject
      (text_cons (JsonToken.spelled_quote name) (text_cons .colon hrest))
    simpa only [tokens, write, List.cons_append, List.append_assoc, List.nil_append] using htext

theorem text_writeItems_append : ∀ (items : List Json),
    (∀ n ∈ itemNumbers items, Spelled (.scalar (.num n)) (num n)) →
    ∀ {ts : List JsonToken} {cs : List Char}, Text ts cs →
    Text (itemTokens items ++ ts) (writeItems num items ++ cs)
  | [], _, _, _, h => text_cons .closeArray h
  | v :: items, hn, ts, cs, h => by
    simp only [itemNumbers, List.mem_append] at hn
    have hrest := text_write_append v (fun n h => hn n (Or.inl h))
      (text_writeItems_append items (fun n h => hn n (Or.inr h)) h)
    have htext := text_cons .comma hrest
    simpa only [itemTokens, writeItems, List.cons_append, List.append_assoc, List.nil_append]
      using htext

theorem text_writeMembers_append : ∀ (members : List (String × Json)),
    (∀ n ∈ memberNumbers members, Spelled (.scalar (.num n)) (num n)) →
    ∀ {ts : List JsonToken} {cs : List Char}, Text ts cs →
    Text (memberTokens members ++ ts) (writeMembers num members ++ cs)
  | [], _, _, _, h => text_cons .closeObject h
  | (name, v) :: members, hn, ts, cs, h => by
    simp only [memberNumbers, List.mem_append] at hn
    have hrest := text_write_append v (fun n h => hn n (Or.inl h))
      (text_writeMembers_append members (fun n h => hn n (Or.inr h)) h)
    have htext := text_cons .comma
      (text_cons (JsonToken.spelled_quote name) (text_cons .colon hrest))
    simpa only [memberTokens, writeMembers, List.cons_append, List.append_assoc, List.nil_append]
      using htext

end

/-- **What the printer writes is a text of the document**, if it spells the numbers. -/
theorem text_write (v : Json) (hn : ∀ n ∈ numbers v, Spelled (.scalar (.num n)) (num n)) :
    Text (tokens v) (write num v) := by
  have h := text_write_append v hn (Text.nil (b := []) (by simp [JsonToken.AllBlank]))
  rwa [List.append_nil, List.append_nil] at h

end MockServer.Json
