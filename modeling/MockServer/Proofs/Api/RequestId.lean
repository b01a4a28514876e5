/-
  MockServer.Proofs.Api.RequestId — the mark of a request, from the
  first server to the last.

  A request brings its mark in the first header of that name, if the
  value can be shown and is neither empty nor too long without the
  blanks around it; else it gets a fresh identifier.  Either way the
  mark is the legal value of a header and is taken from that value
  again.  So none of the places it is written to refuses it, and a
  server that meets the mark of another one keeps it.

  Main definitions:
    * `Accepted` — a value and the mark in it;
    * `Chosen` — the mark of a request;
    * `Given`, `Answered` — what a handler is given, and what comes back;
    * `Visit`, `Visit.Handed` — a mark on its way through servers.

  Main results:
    * `ofValue?_eq_some_iff` — the mark in a value;
    * `accepted_choose` — every mark is taken from its own header;
    * `mark_of_accepted` — no mark is left out;
    * `one_mark_end_to_end` — the mark in every place and at every
      server.
-/
import MockServer.Api.RequestId
import MockServer.Proofs.Header.Field
import MockServer.Proofs.Text.Blank
import MockServer.Proofs.Uuid

namespace MockServer.Api.RequestId

open Header (Fields isVisible)
open Text.Utf8 (ofString)

/-! ## Marks in values -/

/-- A blank that can be shown: a space or a tab. -/
def isPad (b : UInt8) : Bool := b == 32 || b == 9

/-- A value and the mark in it.  The value consists of visible ASCII, spaces and tabs, and the mark
is the value without the spaces and tabs around it, which has from 1 to 128 bytes. -/
structure Accepted (value : List UInt8) (id : RequestId) : Prop where
  visible : ∀ b ∈ value, isVisible b = true
  trimmed : ∃ before after, value = before ++ ofString id.text ++ after ∧
    (∀ b ∈ before, isPad b = true) ∧ (∀ b ∈ after, isPad b = true) ∧
    (∀ b ∈ (ofString id.text).head?, isPad b = false) ∧
    ∀ b ∈ (ofString id.text).getLast?, isPad b = false
  length : 1 ≤ (ofString id.text).length ∧ (ofString id.text).length ≤ 128

/-- The character of a byte. -/
def charOf (b : UInt8) : Char := Char.ofNat b.toNat

theorem isBlank_charOf {b : UInt8} (h : isVisible b = true) :
    Text.isBlank (charOf b) = isPad b := by
  -- a visible byte is ASCII, so there are few enough to look at each
  have hall : ∀ n < 128, isVisible (UInt8.ofNat n) = true →
      Text.isBlank (charOf (UInt8.ofNat n)) = isPad (UInt8.ofNat n) := by decide
  have hb := hall b.toNat (Header.toNat_lt_of_isVisible h)
  rw [UInt8.ofNat_toNat] at hb
  exact hb h

theorem visible_of_isPad {b : UInt8} (h : isPad b = true) : isVisible b = true := by
  unfold isPad at h
  rw [Bool.or_eq_true, beq_iff_eq, beq_iff_eq] at h
  rcases h with rfl | rfl <;> decide

/-- A text with visible bytes has the characters of its bytes. -/
theorem toList_of_visible {text : String} (h : ∀ b ∈ ofString text, isVisible b = true) :
    text.toList = (ofString text).map charOf := by
  have hshown : Header.visibleText? (ofString text)
      = some (String.ofList ((ofString text).map charOf)) :=
    if_pos (List.all_eq_true.mpr h)
  rw [Header.visibleText?_eq_some_iff.mpr ⟨h, rfl⟩, Option.some_inj] at hshown
  rw [← String.toList_ofList (l := (ofString text).map charOf), ← hshown]

/-- Bytes that surround the mark stand for blanks around its text. -/
theorem trimChars_charOf {before bytes after : List UInt8}
    (hbefore : ∀ b ∈ before, isPad b = true) (hafter : ∀ b ∈ after, isPad b = true)
    (hbytes : ∀ b ∈ bytes, isVisible b = true) (hfirst : ∀ b ∈ bytes.head?, isPad b = false)
    (hlast : ∀ b ∈ bytes.getLast?, isPad b = false) :
    Text.trimChars ((before ++ bytes ++ after).map charOf) = bytes.map charOf := by
  have hblank : ∀ {pads : List UInt8}, (∀ b ∈ pads, isPad b = true) →
      Text.AllBlank (pads.map charOf) := by
    intro pads hpads
    refine List.forall_mem_map.mpr fun b hb => ?_
    rw [isBlank_charOf (visible_of_isPad (hpads b hb))]
    exact hpads b hb
  have hend : ∀ {b : UInt8}, b ∈ bytes → isPad b = false → Text.isBlank (charOf b) = false := by
    intro b hb hpad
    rw [isBlank_charOf (hbytes b hb), hpad]
  rw [List.map_append, List.map_append, Text.trimChars_append (hblank hbefore) (hblank hafter)]
  refine Text.trimWhile_eq_self ?_ ?_
  · intro c hc
    rw [List.head?_map] at hc
    obtain ⟨b, hb, rfl⟩ := Option.map_eq_some_iff.mp hc
    exact hend (List.mem_of_head? hb) (hfirst b hb)
  · intro c hc
    rw [List.getLast?_map] at hc
    obtain ⟨b, hb, rfl⟩ := Option.map_eq_some_iff.mp hc
    exact hend (List.mem_of_getLast? hb) (hlast b hb)

/-- The bytes that a value has between the blanks around it. -/
theorem exists_bytes_between {value : List UInt8} (h : ∀ b ∈ value, isVisible b = true) :
    ∃ before bytes after, value = before ++ bytes ++ after ∧
      (∀ b ∈ before, isPad b = true) ∧ (∀ b ∈ after, isPad b = true) ∧
      (∀ b ∈ bytes.head?, isPad b = false) ∧ ∀ b ∈ bytes.getLast?, isPad b = false := by
  obtain ⟨front, back, hchars, hfront, hback, hfirst, hlast⟩ :=
    Text.trimChars_spec (value.map charOf)
  -- the three parts of the text are those of the value
  obtain ⟨rest, after, rfl, hrest, rfl⟩ := List.map_eq_append_iff.mp hchars
  obtain ⟨before, bytes, rfl, rfl, hbytes⟩ := List.map_eq_append_iff.mp hrest
  rw [← hbytes] at hfirst hlast
  have hvisible : ∀ b, b ∈ before ∨ b ∈ bytes ∨ b ∈ after → isVisible b = true := by
    intro b hb
    refine h b ?_
    rw [List.mem_append, List.mem_append, or_assoc]
    exact hb
  refine ⟨before, bytes, after, rfl, ?_, ?_, ?_, ?_⟩
  · intro b hb
    rw [← isBlank_charOf (hvisible b (Or.inl hb))]
    exact hfront _ (List.mem_map_of_mem hb)
  · intro b hb
    rw [← isBlank_charOf (hvisible b (Or.inr (Or.inr hb)))]
    exact hback _ (List.mem_map_of_mem hb)
  · intro b hb
    rw [← isBlank_charOf (hvisible b (Or.inr (Or.inl (List.mem_of_head? hb))))]
    refine hfirst _ ?_
    rw [List.head?_map, hb]
    rfl
  · intro b hb
    rw [← isBlank_charOf (hvisible b (Or.inr (Or.inl (List.mem_of_getLast? hb))))]
    refine hlast _ ?_
    rw [List.getLast?_map, hb]
    rfl

theorem ofValue?_of_visible {before bytes after : List UInt8}
    (hvisible : ∀ b ∈ before ++ bytes ++ after, isVisible b = true)
    (hbefore : ∀ b ∈ before, isPad b = true) (hafter : ∀ b ∈ after, isPad b = true)
    (hfirst : ∀ b ∈ bytes.head?, isPad b = false)
    (hlast : ∀ b ∈ bytes.getLast?, isPad b = false) :
    ofValue? (before ++ bytes ++ after)
      = if 1 ≤ bytes.length ∧ bytes.length ≤ 128 then some ⟨String.ofList (bytes.map charOf)⟩
        else none := by
  have hbytes : ∀ b ∈ bytes, isVisible b = true := fun b hb =>
    hvisible b (List.mem_append_left _ (List.mem_append_right _ hb))
  have hshown : Header.visibleText? (before ++ bytes ++ after)
      = some (String.ofList ((before ++ bytes ++ after).map charOf)) :=
    if_pos (List.all_eq_true.mpr hvisible)
  unfold ofValue? Text.trim maxLength
  rw [hshown, Option.map_some, Option.bind_some, String.toList_ofList,
    trimChars_charOf hbefore hafter hbytes hfirst hlast]
  -- the text has one character for each byte, so both bounds are on the same length
  cases bytes with
  | nil => rfl
  | cons b bytes =>
    have hlength : (String.ofList ((b :: bytes).map charOf)).length = bytes.length + 1 := by
      rw [String.length_ofList, List.length_map, List.length_cons]
    have hempty : (String.ofList ((b :: bytes).map charOf)).isEmpty = false := by
      rw [← Bool.not_eq_true, String.isEmpty_iff, ← String.toList_eq_nil_iff, String.toList_ofList]
      exact List.cons_ne_nil _ _
    rw [hempty, hlength, List.length_cons]
    by_cases hlong : bytes.length + 1 ≤ 128
    · rw [if_pos (show 1 ≤ bytes.length + 1 ∧ bytes.length + 1 ≤ 128 from ⟨by omega, hlong⟩)]
      have hshort : decide (128 < bytes.length + 1) = false := decide_eq_false (by omega)
      refine if_neg ?_
      rw [Bool.false_or, hshort]
      exact Bool.false_ne_true
    · rw [if_neg (show ¬ (1 ≤ bytes.length + 1 ∧ bytes.length + 1 ≤ 128) by omega)]
      refine if_pos ?_
      rw [Bool.false_or, decide_eq_true_eq]
      omega

/-- **The mark in a value is what is accepted.** -/
theorem ofValue?_eq_some_iff {value : List UInt8} {id : RequestId} :
    ofValue? value = some id ↔ Accepted value id := by
  constructor
  · intro h
    have hvisible : ∀ b ∈ value, isVisible b = true := by
      unfold ofValue? at h
      obtain ⟨text, htext, -⟩ := Option.bind_eq_some_iff.mp h
      obtain ⟨shown, hshown, -⟩ := Option.map_eq_some_iff.mp htext
      exact (Header.visibleText?_eq_some_iff.mp hshown).1
    obtain ⟨before, bytes, after, rfl, hbefore, hafter, hfirst, hlast⟩ :=
      exists_bytes_between hvisible
    rw [ofValue?_of_visible hvisible hbefore hafter hfirst hlast] at h
    split at h
    next hlength =>
      -- the mark is the text that the bytes between the blanks are shown as
      have hbytes : ofString id.text = bytes := by
        rw [← Option.some.inj h]
        exact Header.ofString_of_isVisible fun b hb =>
          hvisible b (List.mem_append_left _ (List.mem_append_right _ hb))
      rw [← hbytes] at hfirst hlast hlength
      exact ⟨hvisible, ⟨before, after, by rw [hbytes], hbefore, hafter, hfirst, hlast⟩, hlength⟩
    next => exact absurd h nofun
  · rintro ⟨hvisible, ⟨before, after, rfl, hbefore, hafter, hfirst, hlast⟩, hlength⟩
    have hbytes : ∀ b ∈ ofString id.text, isVisible b = true := fun b hb =>
      hvisible b (List.mem_append_left _ (List.mem_append_right _ hb))
    rw [ofValue?_of_visible hvisible hbefore hafter hfirst hlast, if_pos hlength,
      ← toList_of_visible hbytes, String.ofList_toList]

/-! ## The mark of a request -/

/-- The mark of a request with these headers: what the first value of the header is accepted as,
or the text of a fresh random identifier. -/
inductive Chosen (random : Nat) (headers : Fields) : RequestId → Prop
  | brought {value : List UInt8} {id : RequestId} (hfirst : headers.first? headerName = some value)
      (h : Accepted value id) : Chosen random headers id
  | fresh (hnone : ∀ value id, headers.first? headerName = some value → ¬ Accepted value id)
      (hversion : (Uuid.ofRandom random).isRandom = true) :
      Chosen random headers ⟨(Uuid.ofRandom random).toText⟩

theorem chosen_choose (random : Nat) (headers : Fields) :
    Chosen random headers (choose (Uuid.ofRandom random) headers) := by
  unfold choose
  cases hbrought : (headers.first? headerName).bind ofValue? with
  | some id =>
    obtain ⟨value, hvalue, hid⟩ := Option.bind_eq_some_iff.mp hbrought
    exact .brought hvalue (ofValue?_eq_some_iff.mp hid)
  | none =>
    refine .fresh ?_ (Uuid.isRandom_ofRandom random)
    intro value id hvalue hid
    rw [hvalue, Option.bind_some, ofValue?_eq_some_iff.mpr hid] at hbrought
    exact absurd hbrought nofun

/-- What is accepted is accepted from its own bytes. -/
theorem Accepted.own {value : List UInt8} {id : RequestId} (h : Accepted value id) :
    Accepted (ofString id.text) id := by
  obtain ⟨before, after, hvalue, -, -, hfirst, hlast⟩ := h.trimmed
  refine ⟨?_, ⟨[], [], ?_, List.forall_mem_nil _, List.forall_mem_nil _, hfirst, hlast⟩, h.length⟩
  · intro b hb
    refine h.visible b ?_
    rw [hvalue]
    exact List.mem_append_left _ (List.mem_append_right _ hb)
  · rw [List.nil_append, List.append_nil]

/-- The text of an identifier can be a mark. -/
theorem accepted_toText (u : Uuid) : Accepted (ofString u.toText) ⟨u.toText⟩ := by
  have hchar : ∀ c ∈ u.toText.toList, 33 ≤ c.toNat ∧ c.toNat ≤ 126 := by
    have hdigit : ∀ d < 16, 33 ≤ (Text.Hex.digit d).toNat ∧ (Text.Hex.digit d).toNat ≤ 126 := by
      decide
    intro c hc
    obtain rfl | ⟨d, hd, rfl⟩ := Uuid.mem_toText hc
    · decide
    · exact hdigit d hd
  have hbytes : ofString u.toText = u.toText.toList.map fun c => UInt8.ofNat c.toNat :=
    Text.Utf8.encode_of_ascii fun c hc => Nat.le_trans (hchar c hc).2 (by decide)
  have hplain : ∀ b ∈ ofString u.toText, isVisible b = true ∧ isPad b = false := by
    have hall : ∀ n < 127, 33 ≤ n →
        isVisible (UInt8.ofNat n) = true ∧ isPad (UInt8.ofNat n) = false := by decide
    rw [hbytes]
    refine List.forall_mem_map.mpr fun c hc => hall c.toNat ?_ (hchar c hc).1
    have := (hchar c hc).2
    omega
  refine ⟨fun b hb => (hplain b hb).1, ⟨[], [], ?_, List.forall_mem_nil _, List.forall_mem_nil _,
    fun b hb => (hplain b (List.mem_of_head? hb)).2,
    fun b hb => (hplain b (List.mem_of_getLast? hb)).2⟩, ?_⟩
  · rw [List.nil_append, List.append_nil]
  · rw [hbytes, List.length_map, Uuid.length_toText]
    decide

/-- **Every mark is taken from the header that it is written to.** -/
theorem accepted_choose (random : Nat) (headers : Fields) :
    Accepted (ofString (choose (Uuid.ofRandom random) headers).text)
      (choose (Uuid.ofRandom random) headers) := by
  have hchosen := chosen_choose random headers
  -- where the mark comes from is all that counts, not how it is chosen
  generalize choose (Uuid.ofRandom random) headers = id at hchosen ⊢
  cases hchosen with
  | brought _ h => exact h.own
  | fresh => exact accepted_toText _

/-! ## Where the mark is written -/

theorem isValue_of_visible {value : List UInt8} (h : ∀ b ∈ value, isVisible b = true) :
    Header.isValue value = true := by
  unfold Header.isValue
  rw [List.all_eq_true]
  intro b hb
  have hall : ∀ n < 128, isVisible (UInt8.ofNat n) = true →
      Header.isValueByte (UInt8.ofNat n) = true := by decide
  have hbyte := hall b.toNat (Header.toNat_lt_of_isVisible (h b hb))
  rw [UInt8.ofNat_toNat] at hbyte
  exact hbyte (h b hb)

/-- A mark changes no other header. -/
theorem values_mark_of_other (id : RequestId) (headers : Fields) {name : String}
    (h : Text.sameFold headerName name = false) :
    (id.mark headers).values name = headers.values name := by
  unfold mark
  split
  next => rw [Fields.values_replace, if_neg (by rw [h]; exact Bool.false_ne_true)]
  next => rfl

theorem first?_mark_of_other (id : RequestId) (headers : Fields) {name : String}
    (h : Text.sameFold headerName name = false) :
    (id.mark headers).first? name = headers.first? name := by
  rw [Fields.first?_eq_head?, Fields.first?_eq_head?, values_mark_of_other id headers h]

/-- **A mark that is accepted is left out nowhere.** -/
theorem mark_of_accepted {id : RequestId} (h : Accepted (ofString id.text) id) (headers : Fields) :
    id.mark headers = headers.replace headerName id.bytes :=
  if_pos (isValue_of_visible h.visible)

theorem values_mark {id : RequestId} (h : Accepted (ofString id.text) id) (headers : Fields) :
    (id.mark headers).values headerName = [ofString id.text] := by
  rw [mark_of_accepted h, Fields.values_replace, if_pos (by decide)]
  rfl

/-- A request as its handler is given it, with a mark: in its place of its own and as the only
header of that name. -/
structure Given (id : RequestId) (r seen : Request) : Prop where
  own : seen.requestId = some id
  only : seen.headers.values headerName = [ofString id.text]
  others : ∀ name, Text.sameFold headerName name = false →
    seen.headers.values name = r.headers.values name
  method : seen.method = r.method
  target : seen.target = r.target
  body : seen.body = r.body

/-- A response as it comes back from a server, with a mark as the only header of that name, and
what else the handler gave. -/
structure Answered {α : Type} (id : RequestId) (handled answer : Response × α) : Prop where
  only : answer.1.headers.values headerName = [ofString id.text]
  others : ∀ name, Text.sameFold headerName name = false →
    answer.1.headers.values name = handled.1.headers.values name
  status : answer.1.status = handled.1.status
  body : answer.1.body = handled.1.body
  rest : answer.2 = handled.2

theorem given_attach {id : RequestId} (h : Accepted (ofString id.text) id) (r : Request) :
    Given id r (id.attach r) where
  own := rfl
  only := values_mark h r.headers
  others := fun _ hname => values_mark_of_other id r.headers hname
  method := rfl
  target := rfl
  body := rfl

theorem answered_echo {α : Type} {id : RequestId} (h : Accepted (ofString id.text) id)
    (handled : Response × α) : Answered id handled (id.echo handled.1, handled.2) where
  only := values_mark h handled.1.headers
  others := fun _ hname => values_mark_of_other id handled.1.headers hname
  status := rfl
  body := rfl
  rest := rfl

theorem found_attach (fresh : Uuid) (id : RequestId) (r : Request) :
    found fresh (id.attach r) = id := rfl

theorem around_eq {α : Type} (fresh : Uuid) (handle : Request → Response × α) (r : Request) :
    around fresh handle r
      = ((choose fresh r.headers).echo (handle ((choose fresh r.headers).attach r)).1,
        (handle ((choose fresh r.headers).attach r)).2) := rfl

/-! ## From server to server -/

/-- A request at a server, with the number that the server draws for it. -/
structure Visit where
  random : Nat
  request : Request

namespace Visit

def mark (v : Visit) : RequestId := choose (Uuid.ofRandom v.random) v.request.headers

/-- The request as the handler is given it. -/
def seen (v : Visit) : Request := v.mark.attach v.request

theorem accepted_mark (v : Visit) : Accepted (ofString v.mark.text) v.mark :=
  accepted_choose v.random v.request.headers

/-- Is the mark of the one visit handed on to the other?  The handler sends on what it sees, or the
client sends again what comes back; whatever further headers there are stand behind it. -/
inductive Handed (v w : Visit) : Prop
  | onward (h : w.request.headers.first? headerName = v.seen.headers.first? headerName)
  | again {α : Type} (handle : Request → Response × α)
      (h : w.request.headers.first? headerName
        = (around (Uuid.ofRandom v.random) handle v.request).1.headers.first? headerName)

theorem Handed.first? {v w : Visit} (h : Handed v w) :
    w.request.headers.first? headerName = some (ofString v.mark.text) := by
  -- the request and the response are marked in the same way
  have hmark : ∀ headers : Fields,
      (v.mark.mark headers).first? headerName = some (ofString v.mark.text) := by
    intro headers
    rw [Fields.first?_eq_head?, values_mark v.accepted_mark]
    rfl
  cases h with
  | onward h => exact h.trans (hmark v.request.headers)
  | again handle h => exact h.trans (hmark (handle v.seen).1.headers)

/-- **A mark that is handed on is kept.** -/
theorem Handed.mark_eq {v w : Visit} (h : Handed v w) : w.mark = v.mark := by
  have hbrought := ofValue?_eq_some_iff.mpr v.accepted_mark
  have hfirst := h.first?
  generalize v.mark = id at hbrought hfirst ⊢
  unfold mark choose
  rw [hfirst, Option.bind_some, hbrought, Option.getD_some]

theorem mark_eq_of_isChain {v : Visit} {later : List Visit}
    (h : (v :: later).IsChain Handed) : ∀ w ∈ later, w.mark = v.mark := by
  induction later generalizing v with
  | nil => exact List.forall_mem_nil _
  | cons next later ih =>
    rw [List.isChain_cons_cons] at h
    -- the chain behind the next server starts with the same mark
    have hnext := h.1.mark_eq
    refine List.forall_mem_cons.mpr ⟨hnext, fun w hw => ?_⟩
    rw [ih h.2 w hw, hnext]

end Visit

/-- **A request has one mark in every place and at every server.**  It is the trimmed value of the
first header of that name, if that can be shown and has from 1 to 128 bytes, and else a fresh random
identifier.  Whatever the handler does, it is given the request with this mark in its place and as
the only header of that name, and the response has it as the only header of that name.  And every
server along a chain that hands on the mark of the one before gives the request the same one. -/
theorem one_mark_end_to_end (random : Nat) (r : Request) :
    ∃ id seen, Chosen random r.headers id ∧ Given id r seen ∧
      (∀ fresh, found fresh seen = id) ∧
      (∀ {α : Type} (handle : Request → Response × α),
        Answered id (handle seen) (around (Uuid.ofRandom random) handle r)) ∧
      ∀ later : List Visit, (⟨random, r⟩ :: later).IsChain Visit.Handed →
        ∀ v ∈ later, v.mark = id := by
  have haccepted := accepted_choose random r.headers
  have hchosen := chosen_choose random r.headers
  have hlater : ∀ later : List Visit, (⟨random, r⟩ :: later).IsChain Visit.Handed →
      ∀ v ∈ later, v.mark = choose (Uuid.ofRandom random) r.headers := by
    intro later hchain v hv
    rw [Visit.mark_eq_of_isChain hchain v hv]
    rfl
  refine ⟨_, _, hchosen, given_attach haccepted r, fun fresh => found_attach fresh _ r, ?_, hlater⟩
  intro α handle
  rw [around_eq]
  exact answered_echo haccepted (handle _)

example : choose (Uuid.ofRandom 0) [.ofText "X-Request-Id" " req 1\t", .ofText "x-request-id" "2"]
    = ⟨"req 1"⟩ := by decide

end MockServer.Api.RequestId
