/-
  MockServer.Proofs.Run.Condition — conditions are read by their grammar.

  A condition is never parsed: the group that opens last is replaced by
  the word for its value, and once no group is left the text is cut at
  `||` and then at `&&`.  Here a condition is an expression tree, the
  texts that write it are given by a grammar in which `&&` binds tighter
  than `||`, and rewriting such a text comes to the boolean value of the
  tree.

  The induction is on the written text.  Whatever stands behind a part,
  removing the groups turns the part into a text that can be cut where
  the part was joined; the word for a group is such a text, and so is
  a comparison.

  Main definitions:
    * `Connective`, `Expr`, `Expr.value` — conditions as trees and
      their values;
    * `Written` — the texts of a tree;
    * `Reads` — what is left of a text without its groups.

  Main results:
    * `exists_reads` — every written text can be read;
    * `value_of_written` — a written condition has the value of its
      tree, and a comparison with a missing variable is false.
-/
import MockServer.Proofs.Run.Template
import MockServer.Proofs.Text.Blank
import MockServer.Run.Condition

namespace MockServer.Run.Condition

/-! ## Trees -/

/-- How the parts of a condition are joined. -/
inductive Connective where
  | and | or
  deriving DecidableEq, Repr

namespace Connective

def sign : Connective → List Char
  | .and => ['&', '&']
  | .or => ['|', '|']

/-- The value of some parts that are joined. -/
def value : Connective → List Bool → Bool
  | .and, bs => bs.all id
  | .or, bs => bs.any id

/-- May parts joined with `op` stand without brackets among parts joined with `within`?  Not a
disjunction in a conjunction: `&&` binds tighter than `||`. -/
def Fits (op within : Connective) : Prop := op = .and ∨ within = .or

instance (op within : Connective) : Decidable (op.Fits within) :=
  inferInstanceAs (Decidable (_ ∨ _))

theorem value_singleton (op : Connective) (b : Bool) : op.value [b] = b := by
  cases op <;> simp [value]

theorem value_pair (op : Connective) (b : Bool) (bs : List Bool) :
    op.value [b, op.value bs] = op.value (b :: bs) := by
  cases op <;> simp [value]

end Connective

/-- A condition: comparisons, joined parts and groups. -/
inductive Expr where
  | leaf (text : List Char)
  | join (op : Connective) (parts : List Expr)
  | group (e : Expr)
  deriving Repr

namespace Expr

mutual

/-- The boolean value of a condition, given the values of its comparisons. -/
def value (leafValue : List Char → Bool) : Expr → Bool
  | .leaf text => leafValue text
  | .join op parts => op.value (values leafValue parts)
  | .group e => value leafValue e

/-- The values of some conditions. -/
def values (leafValue : List Char → Bool) : List Expr → List Bool
  | [] => []
  | e :: rest => value leafValue e :: values leafValue rest

end

variable {leafValue : List Char → Bool} {op : Connective}

theorem value_join_singleton (e : Expr) : value leafValue (.join op [e]) = value leafValue e := by
  rw [value, values, values, Connective.value_singleton]

theorem value_join_cons (e : Expr) (parts : List Expr) :
    value leafValue (.join op (e :: parts))
      = op.value [value leafValue e, value leafValue (.join op parts)] := by
  rw [value, value, values, Connective.value_pair]

end Expr

/-! ## Texts -/

/-- The characters that give a condition its structure. -/
def structural : List Char := ['(', ')', '|', '&']

/-- Is this the text of a comparison: not blank and without structure? -/
def Plain (text : List Char) : Prop :=
  (∃ c ∈ text, Text.isBlank c = false) ∧ ∀ c ∈ text, c ∉ structural

instance (text : List Char) : Decidable (Plain text) :=
  decidable_of_iff
    ((text.any fun c => !Text.isBlank c) = true ∧ (text.all fun c => !structural.contains c) = true)
    (by simp [Plain])

/-- The texts of a condition that stands among parts joined with a connective.  Every sign and every
bracket has comparisons, groups or brackets beside it, so the blanks around these are the blanks
around the signs and brackets as well. -/
inductive Written : Connective → Expr → List Char → Prop where
  | leaf {within : Connective} {before text after : List Char} :
      Text.AllBlank before → Text.AllBlank after → Plain text →
      Written within (.leaf text) (before ++ text ++ after)
  | group {within : Connective} {e : Expr} {before text after : List Char} :
      Text.AllBlank before → Text.AllBlank after → Written .or e text →
      Written within (.group e) (before ++ '(' :: (text ++ ')' :: after))
  | join {op within : Connective} {parts : List (Expr × List Char)} :
      op.Fits within → parts ≠ [] → (∀ p ∈ parts, Written op p.1 p.2) →
      Written within (.join op (parts.map Prod.fst)) (op.sign.intercalate (parts.map Prod.snd))

theorem not_mem_structural_of_isBlank {c : Char} (h : Text.isBlank c = true) :
    c ∉ structural := by
  intro hc
  simp only [structural, List.mem_cons, List.not_mem_nil, or_false] at hc
  rcases hc with rfl | rfl | rfl | rfl <;> exact absurd h (by decide)

/-- A written condition is not blank. -/
theorem Written.exists_not_blank {within : Connective} {e : Expr} {text : List Char}
    (h : Written within e text) : ∃ c ∈ text, Text.isBlank c = false := by
  induction h with
  | leaf _ _ hplain =>
    obtain ⟨c, hc, hblank⟩ := hplain.1
    exact ⟨c, List.mem_append_left _ (List.mem_append_right _ hc), hblank⟩
  | group =>
    exact ⟨'(', List.mem_append_right _ List.mem_cons_self, by decide⟩
  | @join op _ parts _ hne _ ih =>
    obtain ⟨p, rest, rfl⟩ := List.exists_cons_of_ne_nil hne
    obtain ⟨c, hc, hblank⟩ := ih p List.mem_cons_self
    refine ⟨c, ?_, hblank⟩
    cases rest with
    | nil => simpa [List.intercalate] using hc
    | cons q rest => simp [List.intercalate, hc]

/-! ## Removing the groups -/

variable {scope : Dict String}

theorem ungroup_cons {c : Char} (hc : c ≠ '(') {rest rest' : List Char}
    (h : ungroup scope rest = some rest') : ungroup scope (c :: rest) = some (c :: rest') := by
  rw [ungroup, h]
  exact if_neg hc

theorem ungroup_append {piece : List Char} (hpiece : '(' ∉ piece) {rest rest' : List Char}
    (h : ungroup scope rest = some rest') :
    ungroup scope (piece ++ rest) = some (piece ++ rest') := by
  induction piece with
  | nil => exact h
  | cons c piece ih =>
    rw [List.mem_cons, not_or] at hpiece
    exact ungroup_cons (Ne.symm hpiece.1) (ih hpiece.2)

theorem ungroup_of_not_mem {cs : List Char} (h : '(' ∉ cs) : ungroup scope cs = some cs := by
  have hungroup : ungroup scope (cs ++ []) = some (cs ++ []) := ungroup_append h rfl
  rwa [List.append_nil] at hungroup

/-- A group is replaced when its inner text has none left. -/
theorem ungroup_group {inner rest : List Char} (hinner : ')' ∉ inner) {text : List Char}
    (h : ungroup scope text = some (inner ++ ')' :: rest)) :
    ungroup scope ('(' :: text) = some (word (flat scope inner) ++ rest) := by
  rw [ungroup, h]
  simp only [↓reduceIte, Text.splitFirst_append hinner, Option.map_some]

/-! ## Cutting what is left -/

/-- The value of a text without groups that stands among parts joined with a connective. -/
def Connective.read (scope : Dict String) : Connective → List Char → Bool
  | .and, cs => (Text.splitPair '&' '&' cs).all (leaf scope)
  | .or, cs => flat scope cs

/-- What is left of a text when its groups are removed, whatever follows it, and that the text can
be read from this. -/
structure Reads (scope : Dict String) (op : Connective) (text residue : List Char) (b : Bool) :
    Prop where
  ungroup_eq : ∀ {rest rest' : List Char}, ungroup scope rest = some rest' →
    ungroup scope (text ++ rest) = some (residue ++ rest')
  not_close_mem : ')' ∉ residue
  not_bar_mem : op = .and → '|' ∉ residue
  /-- The residue does not end with half of a sign. -/
  last : ∃ c, residue.getLast? = some c ∧ c ≠ '&' ∧ c ≠ '|'
  read_eq : op.read scope residue = b

namespace Reads

variable {op within : Connective} {text text₁ text₂ residue residue₁ residue₂ : List Char}
  {b b₁ b₂ : Bool}

/-- A part of a conjunction is a disjunction of one part. -/
theorem of_and (h : Reads scope .and text residue b) : Reads scope op text residue b := by
  cases op with
  | and => exact h
  | or =>
    refine ⟨h.ungroup_eq, h.not_close_mem, nofun, h.last, ?_⟩
    show flat scope residue = b
    rw [flat, Text.splitPair_of_not_mem (h.not_bar_mem rfl), List.any_cons, List.any_nil,
      Bool.or_false]
    exact h.read_eq

theorem of_fits (hop : op.Fits within) (h : Reads scope op text residue b) :
    Reads scope within text residue b := by
  rcases hop with rfl | rfl
  · exact h.of_and
  · cases op with
    | and => exact h.of_and
    | or => exact h

/-- A text without structure is its own residue. -/
theorem of_clean (hclean : ∀ c ∈ text, c ∉ structural) (hne : text ≠ []) :
    Reads scope .and text text (leaf scope text) := by
  have hmem : ∀ c ∈ structural, c ∉ text := fun c hc htext => hclean c htext hc
  refine ⟨ungroup_append (hmem '(' (by decide)), hmem ')' (by decide),
    fun _ => hmem '|' (by decide), ?_, ?_⟩
  · refine ⟨text.getLast hne, List.getLast?_eq_some_getLast hne, ?_, ?_⟩
    · exact fun heq => hmem '&' (by decide) (heq ▸ List.getLast_mem hne)
    · exact fun heq => hmem '|' (by decide) (heq ▸ List.getLast_mem hne)
  · rw [Connective.read, Text.splitPair_of_not_mem (hmem '&' (by decide)), List.all_cons,
      List.all_nil, Bool.and_true]

theorem read_append_sign (h : ∃ c, residue₁.getLast? = some c ∧ c ≠ '&' ∧ c ≠ '|') :
    op.read scope (residue₁ ++ (op.sign ++ residue₂))
      = op.value [op.read scope residue₁, op.read scope residue₂] := by
  obtain ⟨c, hlast, hand, hor⟩ := h
  cases op with
  | and =>
    have hcut : Text.splitPair '&' '&' (residue₁ ++ '&' :: '&' :: residue₂) = _ :=
      Text.splitPair_append (by rw [hlast]; simpa using hand) residue₂
    simp only [Connective.read, Connective.sign, List.cons_append, List.nil_append, hcut,
      List.all_append, Connective.value, List.all_cons, List.all_nil, Bool.and_true, id_eq]
  | or =>
    have hcut : Text.splitPair '|' '|' (residue₁ ++ '|' :: '|' :: residue₂) = _ :=
      Text.splitPair_append (by rw [hlast]; simpa using hor) residue₂
    simp only [Connective.read, flat, Connective.sign, List.cons_append, List.nil_append, hcut,
      List.any_append, Connective.value, List.any_cons, List.any_nil, Bool.or_false, id_eq]

/-- **Two parts that are joined are read one by one.** -/
theorem append (h₁ : Reads scope op text₁ residue₁ b₁) (h₂ : Reads scope op text₂ residue₂ b₂) :
    Reads scope op (text₁ ++ (op.sign ++ text₂)) (residue₁ ++ (op.sign ++ residue₂))
      (op.value [b₁, b₂]) where
  ungroup_eq h := by
    have hsign : '(' ∉ op.sign := by cases op <;> decide
    rw [List.append_assoc, List.append_assoc, List.append_assoc, List.append_assoc]
    exact h₁.ungroup_eq (ungroup_append hsign (h₂.ungroup_eq h))
  not_close_mem := by
    have hsign : ')' ∉ op.sign := by cases op <;> decide
    simp only [List.mem_append, not_or]
    exact ⟨h₁.not_close_mem, hsign, h₂.not_close_mem⟩
  not_bar_mem hop := by
    have hsign : '|' ∉ op.sign := by subst hop; decide
    simp only [List.mem_append, not_or]
    exact ⟨h₁.not_bar_mem hop, hsign, h₂.not_bar_mem hop⟩
  last := by
    obtain ⟨c, hlast, hc⟩ := h₂.last
    exact ⟨c, by simp only [List.getLast?_append, hlast, Option.some_or], hc⟩
  read_eq := by rw [read_append_sign h₁.last, h₁.read_eq, h₂.read_eq]

end Reads

/-! ## Every written condition -/

theorem leaf_blank {before after : List Char} (hbefore : Text.AllBlank before)
    (hafter : Text.AllBlank after) (text : List Char) :
    leaf scope (before ++ text ++ after) = leaf scope text := by
  unfold leaf
  rw [Text.trimChars_append hbefore hafter]

/-- Blanks around a comparison do not change what is read. -/
theorem reads_blank {before text after : List Char} (hbefore : Text.AllBlank before)
    (hafter : Text.AllBlank after) (htext : Plain text) :
    Reads scope .and (before ++ text ++ after) (before ++ text ++ after) (leaf scope text) := by
  obtain ⟨d, hd, -⟩ := htext.1
  have hne : before ++ text ++ after ≠ [] :=
    List.ne_nil_of_mem (List.mem_append_left _ (List.mem_append_right _ hd))
  rw [← leaf_blank hbefore hafter text]
  refine Reads.of_clean ?_ hne
  intro c hc
  rw [List.mem_append, List.mem_append] at hc
  rcases hc with (hc | hc) | hc
  · exact not_mem_structural_of_isBlank (hbefore c hc)
  · exact htext.2 c hc
  · exact not_mem_structural_of_isBlank (hafter c hc)

/-- A comparison without holes does not look at the scope. -/
theorem leaf_of_not_mem {text : List Char} (h : '\x7b' ∉ Text.trimChars text) :
    leaf scope text = comparison (Text.trimChars text) operators := by
  unfold leaf
  rw [Template.fillChars_literals (Template.formed_literals h)]

/-- The word for a value has this value. -/
theorem leaf_word (b : Bool) : leaf scope (word b) = b := by
  cases b <;> exact (leaf_of_not_mem (by decide)).trans (by decide)

theorem plain_word (b : Bool) : Plain (word b) := by
  cases b <;> decide

/-- **A group reads as the word for its value.** -/
theorem reads_group {before after text residue : List Char} {b : Bool}
    (hbefore : Text.AllBlank before) (hafter : Text.AllBlank after)
    (h : Reads scope .or text residue b) :
    Reads scope .and (before ++ '(' :: (text ++ ')' :: after)) (before ++ word b ++ after) b := by
  have hword : Reads scope .and (before ++ word b ++ after) _ (leaf scope (word b)) :=
    reads_blank hbefore hafter (plain_word b)
  rw [leaf_word] at hword
  refine { hword with ungroup_eq := ?_ }
  intro rest rest' hrest
  have hbracket : ∀ cs, Text.AllBlank cs → '(' ∉ cs := fun cs hcs hmem =>
    absurd (hcs '(' hmem) (by decide)
  -- from the back: what follows, the closing bracket, the inner text, the opening bracket
  have hclose : ungroup scope (')' :: (after ++ rest)) = some (')' :: (after ++ rest')) :=
    ungroup_cons (by decide) (ungroup_append (hbracket after hafter) hrest)
  have hopen := ungroup_group h.not_close_mem (h.ungroup_eq hclose)
  have hvalue : flat scope residue = b := h.read_eq
  rw [hvalue] at hopen
  simpa using ungroup_append (hbracket before hbefore) hopen

/-- Parts that can be read can be read when they are joined. -/
theorem exists_reads_intercalate {op : Connective} {leafValue : List Char → Bool} :
    ∀ (parts : List (Expr × List Char)), parts ≠ [] →
      (∀ p ∈ parts, ∃ residue, Reads scope op p.2 residue (p.1.value leafValue)) →
      ∃ residue, Reads scope op (op.sign.intercalate (parts.map Prod.snd)) residue
        ((Expr.join op (parts.map Prod.fst)).value leafValue) := by
  intro parts
  induction parts with
  | nil => exact fun hne _ => absurd rfl hne
  | cons p rest ih =>
    intro _ h
    obtain ⟨residue, hreads⟩ := h p List.mem_cons_self
    cases rest with
    | nil =>
      refine ⟨residue, ?_⟩
      rw [List.map_cons (f := Prod.fst), List.map_nil, Expr.value_join_singleton]
      simpa using hreads
    | cons q rest =>
      obtain ⟨residues, hrest⟩ :=
        ih (List.cons_ne_nil q rest) fun r hr => h r (List.mem_cons_of_mem p hr)
      refine ⟨residue ++ (op.sign ++ residues), ?_⟩
      rw [List.map_cons (f := Prod.fst), Expr.value_join_cons]
      simpa using hreads.append hrest

/-- **Every written condition can be read, with the value of its tree.** -/
theorem exists_reads {within : Connective} {e : Expr} {text : List Char}
    (h : Written within e text) :
    ∃ residue, Reads scope within text residue (e.value (leaf scope)) := by
  induction h with
  | leaf hbefore hafter hplain => exact ⟨_, (reads_blank hbefore hafter hplain).of_and⟩
  | group hbefore hafter _ ih =>
    obtain ⟨residue, hreads⟩ := ih
    exact ⟨_, (reads_group hbefore hafter hreads).of_and⟩
  | join hop hne _ ih =>
    obtain ⟨residue, hreads⟩ := exists_reads_intercalate _ hne ih
    exact ⟨residue, hreads.of_fits hop⟩

/-! ## Main results -/

/-- Braces that enclose a name make a hole. -/
theorem mem_parse_of_hole? {cs name rest : List Char}
    (h : Template.hole? cs = some (name, rest)) :
    Piece.hole name ∈ Template.parse ('\x7b' :: '\x7b' :: cs) := by
  rw [Template.parse]
  split
  · next heq =>
    rw [h] at heq
    cases heq
    exact List.mem_cons_self
  · next heq => rw [h] at heq; contradiction

/-- A comparison that names a variable without a value is false. -/
theorem leaf_of_missing {text name : List Char}
    (hhole : Piece.hole name ∈ Template.parse (Text.trimChars text))
    (hname : scope.contains (String.ofList name) = false) : leaf scope text = false := by
  have hmem : String.ofList name ∈ Template.missing scope (Template.parse (Text.trimChars text)) :=
    List.mem_filterMap.mpr ⟨_, hhole, by simp [hname]⟩
  obtain ⟨first, rest, hnames⟩ := List.exists_cons_of_ne_nil (List.ne_nil_of_mem hmem)
  simp only [leaf, Template.fillChars, hnames]

/-- **A written condition has the value of its tree**: the conjunctions, disjunctions and groups are
taken as such, and the comparisons have the values they have alone; one that names a variable
without a value is false and leaves the rest to decide. -/
theorem value_of_written (scope : Dict String) :
    (∀ (e : Expr) (condition : String), Written .or e condition.toList →
      holds? scope condition = some (e.value (leaf scope))) ∧
    (∀ text name : List Char, Piece.hole name ∈ Template.parse (Text.trimChars text) →
      scope.contains (String.ofList name) = false → leaf scope text = false) := by
  refine ⟨fun e condition h => ?_, fun text name => leaf_of_missing⟩
  have hblank : Text.isBlankText condition = false := by
    obtain ⟨c, hc, hblank⟩ := h.exists_not_blank
    exact List.all_eq_false.mpr ⟨c, hc, by rw [hblank]; exact Bool.false_ne_true⟩
  obtain ⟨residue, hreads⟩ : ∃ residue, Reads scope .or condition.toList residue _ := exists_reads h
  have hungroup : ungroup scope (condition.toList ++ []) = some (residue ++ []) :=
    hreads.ungroup_eq rfl
  rw [List.append_nil, List.append_nil] at hungroup
  rw [holds?, if_neg (by rw [hblank]; exact Bool.false_ne_true), hungroup, Option.map_some]
  exact congrArg some hreads.read_eq

/-- A comparison, or else a word together with a group that names a variable. -/
def grouped : Expr :=
  .join .or [.leaf "1 == 2".toList,
    .join .and [.group (.join .or [.leaf "\x7b\x7bforce\x7d\x7d".toList, .leaf "1 == 1".toList]),
      .leaf "yes".toList]]

/-- A text of `grouped`. -/
def groupedText : String := "1 == 2 || ( \x7b\x7bforce\x7d\x7d||1 == 1 ) && yes"

theorem written_grouped : Written .or grouped groupedText.toList := by
  have hforce := @Written.leaf .or [' '] "\x7b\x7bforce\x7d\x7d".toList [] (by decide) (by decide)
    (by decide)
  have hone := @Written.leaf .or [] "1 == 1".toList [' '] (by decide) (by decide) (by decide)
  have hinner := @Written.join .or .or [(_, _), (_, _)] (by decide) (by decide)
    (List.forall_mem_cons.mpr ⟨hforce, List.forall_mem_singleton.mpr hone⟩)
  have hgroup := @Written.group .and _ [' '] _ [' '] (by decide) (by decide) hinner
  have hyes := @Written.leaf .and [' '] "yes".toList [] (by decide) (by decide) (by decide)
  have hand := @Written.join .and .or [(_, _), (_, _)] (by decide) (by decide)
    (List.forall_mem_cons.mpr ⟨hgroup, List.forall_mem_singleton.mpr hyes⟩)
  have htwo := @Written.leaf .or [] "1 == 2".toList [' '] (by decide) (by decide) (by decide)
  have hor := @Written.join .or .or [(_, _), (_, _)] (by decide) (by decide)
    (List.forall_mem_cons.mpr ⟨htwo, List.forall_mem_singleton.mpr hand⟩)
  exact hor

theorem value_of_grouped : Written .or grouped groupedText.toList ∧
    holds? .empty groupedText = some true ∧
    leaf .empty "\x7b\x7bforce\x7d\x7d".toList = false := by
  have hhole : Template.hole? "force\x7d\x7d".toList = some ("force".toList, []) := by decide
  have hforce := (value_of_written .empty).2 "\x7b\x7bforce\x7d\x7d".toList _
    (mem_parse_of_hole? hhole) rfl
  have htwo : leaf .empty "1 == 2".toList = false :=
    (leaf_of_not_mem (by decide)).trans (by decide)
  have hone : leaf .empty "1 == 1".toList = true :=
    (leaf_of_not_mem (by decide)).trans (by decide)
  have hyes : leaf .empty "yes".toList = true := (leaf_of_not_mem (by decide)).trans (by decide)
  refine ⟨written_grouped, ?_, hforce⟩
  rw [(value_of_written .empty).1 grouped groupedText written_grouped, grouped]
  simp only [Expr.value, Expr.values, hforce, htwo, hone, hyes]
  decide

end MockServer.Run.Condition
