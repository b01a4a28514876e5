/-
  MockServer.Proofs.Run.Comparison — a variable compared with a text.

  The value of a variable is put into a comparison before the sign is
  looked for.  Brackets and connectives in it are characters like any
  other, since groups and parts are cut before; but a comparison sign in
  the value is found like one of the condition.  The signs are looked
  for in a fixed order, and each at its first place, so the sign that
  the condition shows decides unless the value holds it or one that is
  looked for earlier.

  Main definitions:
    * `asked` — the text that compares a variable with a text;
    * `signIn?` — the first sign that is found in a value;
    * `decided` — what the comparison comes to.

  Main results:
    * `comparison_filled` — which sign decides;
    * `leaf_asked` — a comparison with its variable put in;
    * `decided_by_first_sign` — the condition that compares a variable
      with a text.
-/
import MockServer.Proofs.Run.Condition

namespace MockServer.Run.Condition

/-! ## Signs -/

/-- The characters of the signs. -/
def signChars : List Char := ['=', '!', '>', '<']

/-- The comparisons whose signs are looked for before that of `op`. -/
def earlier (op : Operator) : List Operator := operators.takeWhile fun o => o != op

theorem exists_later (op : Operator) : ∃ later, operators = earlier op ++ op :: later := by
  cases op <;> exact ⟨_, rfl⟩

theorem sign_ne_nil (op : Operator) : op.sign ≠ [] := by
  cases op <;> exact List.cons_ne_nil _ _

theorem sign_subset (op : Operator) : op.sign ⊆ signChars := by
  cases op <;> decide

theorem space_not_mem_sign (op : Operator) : ' ' ∉ op.sign := by
  cases op <;> decide

/-- A text without characters of signs holds no sign. -/
theorem splitAt?_sign_eq_none {cs : List Char} (h : ∀ c ∈ cs, c ∉ signChars) (o : Operator) :
    Text.splitAt? o.sign cs = none := by
  rw [← Text.occurs_eq_false_iff, ← Bool.not_eq_true, Text.occurs_iff]
  intro hpart
  obtain ⟨c, rest, hsign⟩ := List.exists_cons_of_ne_nil (sign_ne_nil o)
  have hc : c ∈ o.sign := by rw [hsign]; exact List.mem_cons_self
  exact h c (hpart.mem hc) (sign_subset o hc)

/-- A sign that is looked for earlier does not begin within another one. -/
theorem splitAt?_earlier {op o : Operator} (ho : o ∈ earlier op) {tail : List Char}
    (htail : ∀ c ∈ tail, c ∉ signChars) : Text.splitAt? o.sign (op.sign ++ tail) = none := by
  have hown : ∀ op, ∀ o ∈ earlier op, Text.splitAt? o.sign op.sign = none := by
    intro op
    cases op <;> decide
  cases tail with
  | nil =>
    rw [List.append_nil]
    exact hown op o ho
  | cons c tail =>
    rw [List.forall_mem_cons] at htail
    have hc : c ∉ o.sign := fun hmem => htail.1 (sign_subset o hmem)
    rw [Text.splitAt?_append_cons hc (sign_ne_nil o), hown op o ho,
      splitAt?_sign_eq_none htail.2, Option.map_none]

/-! ## Comparisons -/

/-- A sign in a value, with what stands in front of it and behind it. -/
def findSign (value : List Char) (o : Operator) : Option (Operator × List Char × List Char) :=
  (Text.splitAt? o.sign value).map fun (left, right) => (o, left, right)

/-- The first sign in a value that is looked for no later than that of `op`. -/
def signIn? (op : Operator) (value : List Char) : Option (Operator × List Char × List Char) :=
  (earlier op ++ [op]).findSome? (findSign value)

/-- What a value compared with a text comes to: a sign in the value decides, if there is one that
is looked for early enough, and takes what stands behind it for the right side. -/
def decided (op : Operator) (value text : List Char) : Bool :=
  match signIn? op value with
  | none => op.compare (operand value) (operand text)
  | some (o, left, right) =>
    o.compare (operand left) (operand (right ++ ' ' :: (op.sign ++ ' ' :: text)))

/-- **The first sign in the value decides, else the sign of the condition.**  The induction is on
the signs that are looked for before it. -/
theorem comparison_filled {op : Operator} {value tail : List Char} {later : List Operator} :
    ∀ before : List Operator,
      (∀ o ∈ before, Text.splitAt? o.sign (op.sign ++ tail) = none) →
      comparison (value ++ ' ' :: (op.sign ++ tail)) (before ++ op :: later)
        = match (before ++ [op]).findSome? (findSign value) with
          | none => op.compare (operand (value ++ [' '])) (operand tail)
          | some (o, left, right) =>
            o.compare (operand left) (operand (right ++ ' ' :: (op.sign ++ tail))) := by
  intro before
  induction before with
  | nil =>
    intro _
    rw [List.nil_append, List.nil_append, comparison,
      Text.splitAt?_append_cons (space_not_mem_sign op) (sign_ne_nil op),
      Text.splitAt?_self (sign_ne_nil op), List.findSome?_cons, findSign]
    cases Text.splitAt? op.sign value with
    | none => rfl
    | some parts => rfl
  | cons o before ih =>
    intro hbefore
    rw [List.forall_mem_cons] at hbefore
    rw [List.cons_append, List.cons_append, comparison,
      Text.splitAt?_append_cons (space_not_mem_sign o) (sign_ne_nil o), hbefore.1,
      List.findSome?_cons, findSign]
    cases Text.splitAt? o.sign value with
    | none => exact ih hbefore.2
    | some parts => rfl

/-- Without a sign in the value that of the condition decides. -/
theorem decided_of_not_occurs {op : Operator} {value : List Char}
    (h : ∀ o ∈ earlier op ++ [op], Text.occurs o.sign value = false) (text : List Char) :
    decided op value text = op.compare (operand value) (operand text) := by
  have hnone : signIn? op value = none := by
    rw [signIn?, List.findSome?_eq_none_iff]
    intro o ho
    rw [findSign, Text.occurs_eq_false_iff.mp (h o ho), Option.map_none]
  rw [decided, hnone]

/-! ## The condition -/

/-- The text that compares a variable with a text. -/
def asked (name : List Char) (op : Operator) (text : List Char) : List Char :=
  Template.text (.hole name) ++ ' ' :: (op.sign ++ ' ' :: text)

/-- A name that can stand in braces and has no structure of a condition. -/
def IsName (name : List Char) : Prop :=
  name ≠ [] ∧ '\x7d' ∉ name ∧ ∀ c ∈ name, c ∉ structural

instance (name : List Char) : Decidable (IsName name) :=
  have : Decidable (∀ c ∈ name, c ∉ structural) := List.decidableBAll _ name
  inferInstanceAs (Decidable (_ ∧ _ ∧ _))

/-- A text without signs, structure and braces. -/
def IsLiteral (text : List Char) : Prop :=
  ∀ c ∈ text, c ∉ signChars ∧ c ∉ structural ∧ c ∉ ['\x7b', '\x7d']

instance (text : List Char) : Decidable (IsLiteral text) :=
  List.decidableBAll _ text

theorem operand_append_blank {blanks : List Char} (h : Text.AllBlank blanks) (cs : List Char) :
    operand (cs ++ blanks) = operand cs :=
  congrArg unquote (Text.trimChars_append (List.forall_mem_nil _) h cs)

theorem operand_cons_blank (cs : List Char) : operand (' ' :: cs) = operand cs := by
  have htrim := @Text.trimChars_append [' '] [] (by decide) (by decide) cs
  rw [List.append_nil] at htrim
  exact congrArg unquote htrim

/-- The value of a variable goes in front of what is compared with it. -/
theorem fillChars_asked {scope : Dict String} {name : List Char} {value : String}
    (hname : IsName name) (hvalue : scope.get? (String.ofList name) = some value)
    {rest : List Char} (hrest : '\x7b' ∉ rest) :
    Template.fillChars scope (Template.text (.hole name) ++ rest) = .ok (value.toList ++ rest) := by
  have hformed : Template.Formed (.hole name :: Template.literals rest) :=
    ⟨⟨hname.1, hname.2.1⟩, Template.formed_literals hrest⟩
  have hmissing : Template.missing scope (.hole name :: Template.literals rest) = [] := by
    have hhole : scope.contains (String.ofList name) = true := Option.isSome_of_eq_some hvalue
    have hliterals := (Template.settled_literals scope rest).missing
    unfold Template.missing at hliterals ⊢
    simp only [List.filterMap_cons, hhole, if_true, hliterals]
  have hwritten : Template.written (.hole name :: Template.literals rest)
      = Template.text (.hole name) ++ rest := by
    rw [Template.written, List.flatMap_cons, Template.flatMap_literals fun _ => rfl]
  have hfilled : Template.filled scope (.hole name :: Template.literals rest)
      = value.toList ++ rest := by
    rw [Template.filled, List.flatMap_cons, Template.flatMap_literals fun _ => rfl, Template.put,
      hvalue, Option.getD_some]
  rw [← hwritten, Template.fillChars_written hformed hmissing, hfilled]

/-- **A comparison with its variable put in.** -/
theorem leaf_asked {scope : Dict String} {name : List Char} {value : String} (hname : IsName name)
    (hvalue : scope.get? (String.ofList name) = some value) (op : Operator) {text : List Char}
    (htext : IsLiteral text) :
    leaf scope (asked name op text) = decided op value.toList text := by
  obtain ⟨kept, blanks, hkept, hblanks, hlast⟩ := Text.exists_trimmed (' ' :: text)
  -- what is kept of the text has neither signs nor braces
  have hclean : ∀ c ∈ kept, c ∉ signChars ∧ c ∉ ['\x7b', '\x7d'] := by
    intro c hc
    have hmem : c ∈ ' ' :: text := by rw [hkept]; exact List.mem_append_left _ hc
    rcases List.mem_cons.mp hmem with rfl | hmem
    · decide
    · exact ⟨(htext c hmem).1, (htext c hmem).2.2⟩
  have hasked : asked name op text
      = (Template.text (.hole name) ++ ' ' :: (op.sign ++ kept)) ++ blanks := by
    rw [asked, hkept]
    simp only [List.append_assoc, List.cons_append]
  have htrim : Text.trimChars (asked name op text)
      = Template.text (.hole name) ++ ' ' :: (op.sign ++ kept) := by
    rw [hasked, ← List.nil_append (Template.text _ ++ _),
      Text.trimChars_append (List.forall_mem_nil _) hblanks]
    apply Text.trimWhile_eq_self
    · rintro c ⟨⟩
      decide
    · intro c hc
      have hsign : ∀ d, op.sign.getLast? = some d → Text.isBlank d = false := by
        cases op <;> exact fun d hd => Option.some.inj hd ▸ rfl
      rw [List.getLast?_append_of_ne_nil _ (List.cons_ne_nil _ _),
        List.getLast?_cons_of_ne_nil (List.append_ne_nil_of_left_ne_nil (sign_ne_nil op) _),
        List.getLast?_append, Option.mem_def, Option.or_eq_some_iff] at hc
      rcases hc with hc | ⟨-, hc⟩
      · exact hlast c hc
      · exact hsign c hc
  have hbrace : '\x7b' ∉ ' ' :: (op.sign ++ kept) := by
    intro hmem
    rcases List.mem_cons.mp hmem with heq | hmem
    · exact absurd heq (by decide)
    · rcases List.mem_append.mp hmem with hmem | hmem
      · exact absurd (sign_subset op hmem) (by decide)
      · exact (hclean _ hmem).2 (by decide)
  obtain ⟨later, hlater⟩ := exists_later op
  rw [leaf, htrim, fillChars_asked hname hvalue hbrace]
  dsimp only
  rw [hlater, comparison_filled _ fun o ho => splitAt?_earlier ho fun c hc => (hclean c hc).1,
    decided, signIn?]
  -- the blanks around an operand do not count
  cases (earlier op ++ [op]).findSome? (findSign value.toList) with
  | none =>
    have htail : operand kept = operand text := by
      rw [← operand_append_blank hblanks kept, ← hkept, operand_cons_blank]
    dsimp only
    rw [operand_append_blank (by decide), htail]
  | some found =>
    obtain ⟨o, left, right⟩ := found
    dsimp only
    rw [hkept, ← operand_append_blank hblanks (right ++ _)]
    simp only [List.append_assoc, List.cons_append]

/-- A text without structure is a condition of one comparison. -/
theorem holds?_of_plain {scope : Dict String} {text : List Char} (h : Plain text) :
    holds? scope (String.ofList text) = some (leaf scope text) := by
  have hmem : ∀ c ∈ structural, c ∉ text := fun c hc htext => h.2 c htext hc
  have hblank : ¬ Text.isBlankText (String.ofList text) = true := by
    obtain ⟨c, hc, hblank⟩ := h.1
    rw [Text.isBlankText, String.toList_ofList, List.all_eq_true]
    intro hall
    exact absurd (hall c hc) (by rw [hblank]; exact Bool.false_ne_true)
  rw [holds?, if_neg hblank, String.toList_ofList, ungroup_of_not_mem (hmem '(' (by decide)),
    Option.map_some, flat, Text.splitPair_of_not_mem (hmem '|' (by decide)), List.any_cons,
    List.any_nil, Bool.or_false, Text.splitPair_of_not_mem (hmem '&' (by decide)), List.all_cons,
    List.all_nil, Bool.and_true]

theorem plain_asked {name text : List Char} (hname : IsName name) (op : Operator)
    (htext : IsLiteral text) : Plain (asked name op text) := by
  refine ⟨⟨'\x7b', List.mem_append_left _ List.mem_cons_self, by decide⟩, ?_⟩
  have hsign : ∀ c ∈ op.sign, c ∉ structural := by
    intro c hc hmem
    have hall : op.sign.all (fun d => !structural.elem d) = true := by cases op <;> rfl
    have hnot := List.all_eq_true.mp hall c hc
    rw [List.elem_eq_true_of_mem hmem] at hnot
    exact absurd hnot Bool.false_ne_true
  intro c hc
  simp only [asked, Template.text, List.mem_append, List.mem_cons, List.not_mem_nil,
    or_false] at hc
  rcases hc with (rfl | rfl | hc | rfl | rfl) | rfl | hc | rfl | hc
  · decide
  · decide
  · exact hname.2.2 c hc
  · decide
  · decide
  · decide
  · exact hsign c hc
  · decide
  · exact (htext c hc).2.1

theorem holds?_asked {scope : Dict String} {name : List Char} {value : String} (hname : IsName name)
    (hvalue : scope.get? (String.ofList name) = some value) (op : Operator) {text : List Char}
    (htext : IsLiteral text) :
    holds? scope (String.ofList (asked name op text)) = some (decided op value.toList text) := by
  rw [holds?_of_plain (plain_asked hname op htext), leaf_asked hname hvalue op htext]

/-- **A variable compared with a text comes to what the first sign decides**: brackets and
connectives in the value are characters, but a comparison sign in it that is looked for no later
than that of the condition is taken for the sign.  A value without such signs is compared as the
condition says. -/
theorem decided_by_first_sign (scope : Dict String) (name : List Char) (value : String)
    (op : Operator) (text : List Char) (hname : IsName name)
    (hvalue : scope.get? (String.ofList name) = some value) (htext : IsLiteral text) :
    holds? scope (String.ofList (asked name op text)) = some (decided op value.toList text) ∧
    ((∀ o ∈ earlier op ++ [op], Text.occurs o.sign value.toList = false) →
      holds? scope (String.ofList (asked name op text))
        = some (op.compare (operand value.toList) (operand text))) := by
  have hholds := holds?_asked hname hvalue op htext
  refine ⟨hholds, fun hquiet => ?_⟩
  rw [hholds, decided_of_not_occurs hquiet]

/-- A value with connectives, a bracket and a sign that is looked for later. -/
theorem decided_with_structure :
    holds? (.ofList [("v", "a || (b < c) && d")]) "\x7b\x7bv\x7d\x7d != a" = some true :=
  (decided_by_first_sign (.ofList [("v", "a || (b < c) && d")]) ['v'] _ .ne ['a']
    (by decide) rfl (by decide)).2 (by decide)

/-- A value that ends with `==`, as texts in base 64 do, is not compared as the condition says. -/
theorem sign_in_value :
    holds? (.ofList [("token", "dG9rZW4==")]) "\x7b\x7btoken\x7d\x7d != none" = some false ∧
    Operator.ne.compare (operand "dG9rZW4==".toList) (operand "none".toList) = true := by
  have htoken : holds? (.ofList [("token", "dG9rZW4==")]) _ = _ :=
    @holds?_asked _ "token".toList "dG9rZW4==" (by decide) rfl .ne "none".toList (by decide)
  exact ⟨htoken, by decide⟩

end MockServer.Run.Condition
