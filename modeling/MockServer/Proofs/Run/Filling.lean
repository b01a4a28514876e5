/-
  MockServer.Proofs.Run.Filling — what filling a text comes to.

  A text is written from plain parts and holes.  Plain parts have no
  doubled opening braces and do not end in an opening brace, so they
  can be put together with holes in any order, and the text is cut at
  the same places again.  Filling it puts the values where the holes
  were, or tells the names without a value.

  Of a text that was written in any other way it is still known where
  its holes are: they are found from the left, and behind one that is
  found the search goes on.  Nothing but the values of their names
  matters.

  Main definitions:
    * `Part`, `Part.WellFormed` — a text as it is written;
    * `Captures` — the names of the holes of any text.

  Main results:
    * `fill_written` — filling a text that is written from parts;
    * `captures_iff` — every text has one list of names;
    * `fill_congr` — only the values of these names matter;
    * `filling_exact` — the three together.
-/
import MockServer.Proofs.Run.Template

namespace MockServer.Run.Template

/-! ## Parts -/

/-- A part of a text that is written in order to be filled. -/
inductive Part where
  | plain (text : String)
  | hole (name : String)
  deriving DecidableEq

namespace Part

/-- The text of a part. -/
def text : Part → String
  | .plain t => t
  | .hole name => "\x7b\x7b" ++ name ++ "\x7d\x7d"

/-- A plain part has no doubled opening braces and does not end in one; a name is not empty and has
no braces. -/
def WellFormed : Part → Prop
  | .plain t => ¬ ['\x7b', '\x7b'] <:+: t.toList ∧ t.toList.getLast? ≠ some '\x7b'
  | .hole name => name ≠ "" ∧ '\x7b' ∉ name.toList ∧ '\x7d' ∉ name.toList

instance : (p : Part) → Decidable p.WellFormed
  | .plain _ => inferInstanceAs (Decidable (_ ∧ _))
  | .hole _ => inferInstanceAs (Decidable (_ ∧ _ ∧ _))

def name? : Part → Option String
  | .plain _ => none
  | .hole name => some name

/-- What a part is filled to. -/
def value (scope : Dict String) : Part → String
  | .plain t => t
  | .hole name => (scope.get? name).getD ""

def pieces : Part → List Piece
  | .plain t => literals t.toList
  | .hole name => [.hole name.toList]

end Part

/-- The names of the holes, in order. -/
def names (parts : List Part) : List String := parts.filterMap Part.name?

/-- The text that is written from parts. -/
def writtenText (parts : List Part) : String := String.join (parts.map Part.text)

/-- Single opening braces open no hole, unless one stands at the end. -/
theorem formed_plain {cs : List Char} (hdouble : ¬ ['\x7b', '\x7b'] <:+: cs)
    (hlast : cs.getLast? ≠ some '\x7b') : Formed (literals cs) := by
  induction cs with
  | nil => trivial
  | cons c cs ih =>
    have hdouble' : ¬ ['\x7b', '\x7b'] <:+: cs := fun h => hdouble (List.infix_cons h)
    cases cs with
    | nil => exact ⟨fun hc => absurd (hc ▸ rfl) hlast, trivial⟩
    | cons d cs =>
      rw [List.getLast?_cons_cons] at hlast
      -- a brace is followed by a character that is none
      refine ⟨fun hc => bne_iff_ne.mpr fun hd => hdouble ?_, ih hdouble' hlast⟩
      rw [hc, hd]
      exact ⟨[], cs, rfl⟩

theorem Part.formed {p : Part} (h : p.WellFormed) : Formed p.pieces := by
  cases p with
  | plain t => exact formed_plain h.1 h.2
  | hole name =>
    have hne : name.toList ≠ [] := fun hnil => h.1 (String.toList_eq_nil_iff.mp hnil)
    exact ⟨⟨hne, h.2.2⟩, trivial⟩

theorem formed_parts {parts : List Part} (h : ∀ p ∈ parts, p.WellFormed) :
    Formed (parts.flatMap Part.pieces) := by
  induction parts with
  | nil => trivial
  | cons p parts ih =>
    rw [List.forall_mem_cons] at h
    exact formed_append (Part.formed h.1) (ih h.2)

theorem Part.written_pieces (p : Part) : written p.pieces = p.text.toList := by
  cases p with
  | plain t => exact flatMap_literals (fun _ => rfl) t.toList
  | hole name =>
    show Template.text (.hole name.toList) ++ [] = ("\x7b\x7b" ++ name ++ "\x7d\x7d").toList
    rw [String.toList_append, String.toList_append, List.append_nil]
    rfl

theorem written_parts (parts : List Part) :
    written (parts.flatMap Part.pieces) = (writtenText parts).toList := by
  unfold writtenText
  rw [String.toList_join, List.flatMap_map, written, List.flatMap_assoc]
  exact List.flatMap_congr fun p _ => p.written_pieces

theorem Part.filled_pieces (scope : Dict String) (p : Part) :
    filled scope p.pieces = (p.value scope).toList := by
  cases p with
  | plain t => exact flatMap_literals (fun _ => rfl) t.toList
  | hole name =>
    show put scope (.hole name.toList) ++ [] = _
    rw [List.append_nil, put, String.ofList_toList]
    rfl

theorem filled_parts (scope : Dict String) (parts : List Part) :
    filled scope (parts.flatMap Part.pieces)
      = (String.join (parts.map (Part.value scope))).toList := by
  rw [String.toList_join, List.flatMap_map, filled, List.flatMap_assoc]
  exact List.flatMap_congr fun p _ => p.filled_pieces scope

theorem Part.missing_pieces (scope : Dict String) (p : Part) :
    missing scope p.pieces = p.name?.toList.filter fun name => !scope.contains name := by
  cases p with
  | plain t => exact (settled_literals scope t.toList).missing
  | hole name =>
    show missing scope [.hole name.toList] = [name].filter fun name => !scope.contains name
    simp only [missing, List.filterMap_cons, List.filterMap_nil, List.filter_singleton,
      String.ofList_toList]
    cases scope.contains name with
    | false => rfl
    | true => rfl

/-- The names without a value are told in order, and as often as they stand there. -/
theorem missing_parts (scope : Dict String) (parts : List Part) :
    missing scope (parts.flatMap Part.pieces)
      = (names parts).filter fun name => !scope.contains name := by
  unfold names
  induction parts with
  | nil => rfl
  | cons p parts ih =>
    have hhead := p.missing_pieces scope
    unfold missing at hhead ih ⊢
    rw [List.flatMap_cons, List.filterMap_append, hhead, ih, List.filterMap_cons,
      ← List.filter_append]
    cases p.name? with
    | none => rfl
    | some name => rfl

theorem fillChars_of_missing {scope : Dict String} {cs : List Char}
    (h : missing scope (parse cs) ≠ []) :
    fillChars scope cs = .error (.missing (missing scope (parse cs))) := by
  cases hmissing : missing scope (parse cs) with
  | nil => exact absurd hmissing h
  | cons name rest => simp only [fillChars, hmissing]

/-- **Filling a text that is written from parts.** -/
theorem fill_written {parts : List Part} (h : ∀ p ∈ parts, p.WellFormed) (scope : Dict String) :
    fill scope (writtenText parts) =
      if ∀ name ∈ names parts, scope.contains name = true then
        .ok (String.join (parts.map (Part.value scope)))
      else .error (.missing ((names parts).filter fun name => !scope.contains name)) := by
  have hformed := formed_parts h
  have hmissing := missing_parts scope parts
  unfold fill
  rw [← written_parts]
  split_ifs with hall
  · have hnone : missing scope (parts.flatMap Part.pieces) = [] := by
      rw [hmissing, List.filter_eq_nil_iff]
      intro name hname
      rw [hall name hname]
      exact Bool.false_ne_true
    rw [fillChars_written hformed hnone, filled_parts, Except.map, String.ofList_toList]
  · have hsome : missing scope (parse (written (parts.flatMap Part.pieces))) ≠ [] := by
      rw [parse_written hformed, hmissing]
      intro hnil
      refine hall fun name hname => ?_
      simpa using List.filter_eq_nil_iff.mp hnil name hname
    rw [fillChars_of_missing hsome, parse_written hformed, hmissing]
    rfl

/-! ## Any text -/

/-- The names of the holes of a text.  A hole at the front is taken, and the search goes on behind
it; without one the search goes on behind the first character. -/
inductive Captures : List Char → List String → Prop where
  | nil : Captures [] []
  | hole {name rest : List Char} {names : List String} (hne : name ≠ []) (hname : '\x7d' ∉ name)
      (h : Captures rest names) :
      Captures (text (.hole name) ++ rest) (String.ofList name :: names)
  | skip {c : Char} {rest : List Char} {names : List String}
      (hnone : ∀ name after, name ≠ [] → '\x7d' ∉ name → c :: rest ≠ text (.hole name) ++ after)
      (h : Captures rest names) : Captures (c :: rest) names

/-- The names of the holes among pieces. -/
def holeNames (pieces : List Piece) : List String :=
  pieces.filterMap fun
    | .literal _ => none
    | .hole name => some (String.ofList name)

/-- A name and what is behind its hole are read off as they were written. -/
theorem eq_of_hole? {cs name rest : List Char} (h : hole? cs = some (name, rest)) :
    name ≠ [] ∧ '\x7d' ∉ name ∧ '\x7b' :: '\x7b' :: cs = text (.hole name) ++ rest := by
  have hcs := List.takeWhile_append_dropWhile (p := isInner) (l := cs)
  have hinner : '\x7d' ∉ cs.takeWhile isInner := by
    intro hmem
    exact absurd (List.all_eq_true.mp List.all_takeWhile _ hmem) (by decide)
  unfold hole? at h
  split at h
  next c name' rest' htake hdrop =>
    rw [htake] at hinner
    rw [htake, hdrop] at hcs
    rw [Option.some_inj, Prod.mk.injEq] at h
    obtain ⟨rfl, rfl⟩ := h
    refine ⟨List.cons_ne_nil _ _, hinner, ?_⟩
    rw [← hcs]
    simp only [text, List.cons_append, List.append_assoc, List.nil_append]
  next => contradiction

/-- A character that begins no hole stands for itself. -/
theorem parse_skip {c : Char} {rest : List Char}
    (hnone : ∀ name after, name ≠ [] → '\x7d' ∉ name → c :: rest ≠ text (.hole name) ++ after) :
    parse (c :: rest) = .literal c :: parse rest := by
  rw [parse.eq_def]
  split
  next inner heq =>
    obtain ⟨rfl, rfl⟩ := List.cons.inj heq
    split
    next name after hhole =>
      obtain ⟨hne, hname, htext⟩ := eq_of_hole? hhole
      exact absurd htext (hnone name after hne hname)
    next => rfl
  next heq =>
    obtain ⟨rfl, rfl⟩ := List.cons.inj heq
    rfl
  next heq => exact absurd heq (List.cons_ne_nil _ _)

theorem captures_parse (cs : List Char) : Captures cs (holeNames (parse cs)) := by
  induction cs using parse.induct with
  | case1 inner name after hhole ih =>
    obtain ⟨hne, hname, htext⟩ := eq_of_hole? hhole
    rw [htext, parse_hole hne hname]
    exact .hole hne hname ih
  | case2 inner hhole ih =>
    have hnone : ∀ name after, name ≠ [] → '\x7d' ∉ name →
        '\x7b' :: '\x7b' :: inner ≠ text (.hole name) ++ after := by
      intro name after hne hname heq
      have hinner : inner = name ++ '\x7d' :: '\x7d' :: after := by
        simpa [text] using heq
      rw [hinner, hole?_name hne hname] at hhole
      exact absurd hhole (Option.some_ne_none _)
    rw [parse_skip hnone]
    exact .skip hnone ih
  | case3 c rest hnot ih =>
    have hnone : ∀ name after, name ≠ [] → '\x7d' ∉ name →
        c :: rest ≠ text (.hole name) ++ after := by
      intro name after hne hname heq
      exact hnot _ (List.cons.inj heq).1 (List.cons.inj heq).2
    rw [parse_skip hnone]
    exact .skip hnone ih
  | case4 =>
    rw [parse]
    exact .nil

/-- **Every text has one list of names**, that of its pieces. -/
theorem captures_iff {cs : List Char} {names : List String} :
    Captures cs names ↔ names = holeNames (parse cs) := by
  constructor
  · intro h
    induction h with
    | nil => rw [parse]; rfl
    | hole hne hname _ ih =>
      rw [parse_hole hne hname, ih]
      rfl
    | skip hnone _ ih =>
      rw [parse_skip hnone, ih]
      rfl
  · rintro rfl
    exact captures_parse cs

/-- **Only the values of the captured names matter.** -/
theorem fill_congr {scope scope' : Dict String} {s : String}
    (h : ∀ name ∈ holeNames (parse s.toList), scope.get? name = scope'.get? name) :
    fill scope s = fill scope' s := by
  have hhole : ∀ name, Piece.hole name ∈ parse s.toList →
      scope.get? (String.ofList name) = scope'.get? (String.ofList name) :=
    fun name hname => h _ (List.mem_filterMap.mpr ⟨_, hname, rfl⟩)
  have hmissing : missing scope (parse s.toList) = missing scope' (parse s.toList) := by
    apply List.filterMap_congr
    intro piece hpiece
    cases piece with
    | literal c => rfl
    | hole name =>
      have hcontains : scope.contains (String.ofList name) = scope'.contains (String.ofList name) :=
        congrArg Option.isSome (hhole name hpiece)
      simp only [hcontains]
  have hfilled : (parse s.toList).flatMap (put scope) = (parse s.toList).flatMap (put scope') := by
    apply List.flatMap_congr
    intro piece hpiece
    cases piece with
    | literal c => rfl
    | hole name => simp only [put, hhole name hpiece]
  simp only [fill, fillChars, hmissing, hfilled]

/-- **Filling is exact and local.**  A text that is written from plain parts and holes is filled
exactly if every name has a value: with the plain parts and the values as they are, one behind the
other.  Otherwise the names without a value are told, in order and as often as they stand there.
And every text whatsoever has one list of captured names; under two scopes that agree on these it is
filled alike, or refused alike. -/
theorem filling_exact :
    (∀ (parts : List Part) (scope : Dict String), (∀ p ∈ parts, p.WellFormed) →
      fill scope (writtenText parts) =
        if ∀ name ∈ names parts, scope.contains name = true then
          .ok (String.join (parts.map (Part.value scope)))
        else .error (.missing ((names parts).filter fun name => !scope.contains name))) ∧
    ∀ text : String, ∃ names, (∀ other, Captures text.toList other ↔ other = names) ∧
      ∀ scope scope' : Dict String, (∀ name ∈ names, scope.get? name = scope'.get? name) →
        fill scope text = fill scope' text :=
  ⟨fun _ scope h => fill_written h scope, fun text => ⟨holeNames (parse text.toList),
    fun _ => captures_iff, fun _ _ h => fill_congr h⟩⟩

/-- A document with braces of its own, and a name that stands in it twice. -/
def order : List Part :=
  [.plain "\x7b\"id\": \"", .hole "id", .plain "\"\x7d", .hole "tail", .hole "tail"]

/-- One of the values looks like a hole. -/
theorem order_filled :
    (∀ p ∈ order, p.WellFormed) ∧
    fill (.ofList [("id", "\x7b\x7btail\x7d\x7d")]) (writtenText order)
      = .error (.missing ["tail", "tail"]) ∧
    fill (.ofList [("id", "\x7b\x7btail\x7d\x7d"), ("tail", "!")]) (writtenText order)
      = .ok "\x7b\"id\": \"\x7b\x7btail\x7d\x7d\"\x7d!!" := by
  have hformed : ∀ p ∈ order, p.WellFormed := by decide
  refine ⟨hformed, ?_, ?_⟩
  · rw [filling_exact.1 order _ hformed]
    decide +kernel
  · rw [filling_exact.1 order _ hformed]
    decide +kernel

end MockServer.Run.Template
