/-
  MockServer.Proofs.Cache.Key — when two cached responses share a name.

  The text of a key does not protect a colon inside a field.  Method
  and fingerprint cannot hold one, so they are read off the end of the
  text; what is in front of them, feature, scenario, account and path,
  can be cut in another way as soon as one of these fields holds a colon
  at which another field could end.  Only then: the path starts with a
  slash, so the last cut stands before one, and the feature is not
  empty, so no cut stands before everything.

  Main definitions:
    * `Formed` — the keys that requests ask for;
    * `Ambiguous` — a colon at which another field could end.

  Main results:
    * `toText_eq_iff` — what the text of a key says;
    * `eq_of_toText_eq` — the text of an unambiguous key is its own;
    * `exists_collision` — the text of an ambiguous key is not;
    * `collides_iff_ambiguous` — the two together.
-/
import Mathlib.Data.List.Basic
import MockServer.Cache.Key
import MockServer.Header.Field

namespace MockServer.Cache.Key

attribute [ext] Key

/-! ## Keys of requests -/

/-- Is the character a hexadecimal digit in lower case? -/
def isLowerHex (c : Char) : Bool := c.isDigit || ('a' ≤ c && c ≤ 'f')

/-- The account as it stands in the text, nothing for no account. -/
def accountText (k : Key) : List Char := (k.account.getD "").toList

/-- What every key of a request satisfies. -/
structure Formed (k : Key) : Prop where
  feature : k.feature ≠ ""
  account : k.account ≠ some ""
  path : ∃ rest, k.path.toList = '/' :: rest
  method : Header.isName k.method = true
  hash : k.hash = "" ∨ (k.hash.length = 64 ∧ k.hash.toList.all isLowerHex = true)

/-- Could another field end at a colon of the key? -/
def Ambiguous (k : Key) : Prop :=
  ':' ∈ k.feature.toList.tail ∨ ':' ∈ k.scenario.toList ∨ ':' ∈ k.accountText ∨
    [':', '/'] <:+: k.path.toList

/-! ## The text of a key -/

/-- Feature, scenario and account with colons between them. -/
def names (k : Key) : List Char :=
  k.feature.toList ++ ':' :: (k.scenario.toList ++ ':' :: k.accountText)

/-- The names and the path. -/
def route (k : Key) : List Char := k.names ++ ':' :: k.path.toList

theorem toText_eq (k : Key) :
    k.toText = String.ofList (space.toList ++ ':' ::
      (k.route ++ ':' :: (k.method.toList ++ ':' :: k.hash.toList))) := by
  unfold toText fields route names accountText
  simp only [List.flatMap_cons, List.flatMap_nil, List.append_assoc, List.cons_append,
    List.nil_append]

/-- Two texts without a separator before the first one. -/
theorem append_sep_inj {c : Char} {x x' y y' : List Char} (hx : c ∉ x) (hx' : c ∉ x')
    (h : x ++ c :: y = x' ++ c :: y') : x = x' ∧ y = y' := by
  induction x generalizing x' with
  | nil =>
    cases x' with
    | nil => exact ⟨rfl, (List.cons.inj h).2⟩
    | cons d x' =>
      rw [(List.cons.inj h).1] at hx'
      exact absurd List.mem_cons_self hx'
  | cons d x ih =>
    cases x' with
    | nil =>
      rw [← (List.cons.inj h).1] at hx
      exact absurd List.mem_cons_self hx
    | cons d' x' =>
      obtain ⟨hd, hrest⟩ := List.cons.inj h
      obtain ⟨hxx, hyy⟩ := ih (fun hm => hx (List.mem_cons_of_mem _ hm))
        (fun hm => hx' (List.mem_cons_of_mem _ hm)) hrest
      exact ⟨by rw [hd, hxx], hyy⟩

/-- Two texts without a separator after the last one. -/
theorem append_sep_inj_right {c : Char} {x x' y y' : List Char} (hy : c ∉ y) (hy' : c ∉ y')
    (h : x ++ c :: y = x' ++ c :: y') : x = x' ∧ y = y' := by
  have hreverse : y.reverse ++ c :: x.reverse = y'.reverse ++ c :: x'.reverse := by
    simpa using congrArg List.reverse h
  obtain ⟨hyy, hxx⟩ := append_sep_inj (by rwa [List.mem_reverse]) (by rwa [List.mem_reverse])
    hreverse
  exact ⟨List.reverse_inj.mp hxx, List.reverse_inj.mp hyy⟩

theorem colon_not_mem_method {k : Key} (h : k.Formed) : ':' ∉ k.method.toList := by
  intro hm
  have hname := h.method
  unfold Header.isName at hname
  rw [Bool.and_eq_true, List.all_eq_true] at hname
  exact absurd (hname.2 ':' hm) (by decide)

theorem colon_not_mem_hash {k : Key} (h : k.Formed) : ':' ∉ k.hash.toList := by
  intro hm
  rcases h.hash with hempty | ⟨-, hall⟩
  · rw [hempty] at hm
    exact absurd hm (by decide)
  · rw [List.all_eq_true] at hall
    exact absurd (hall ':' hm) (by decide)

/-- **What the text of a key says**: its method, its fingerprint, and the other four fields in one
piece. -/
theorem toText_eq_iff {k k' : Key} (h : k.Formed) (h' : k'.Formed) :
    k'.toText = k.toText ↔ k'.route = k.route ∧ k'.method = k.method ∧ k'.hash = k.hash := by
  constructor
  · intro heq
    rw [toText_eq, toText_eq, String.ofList_inj, List.append_cancel_left_eq, List.cons_inj_right,
      ← List.cons_append, ← List.append_assoc, ← List.cons_append, ← List.append_assoc] at heq
    obtain ⟨hfront, hhash⟩ :=
      append_sep_inj_right (colon_not_mem_hash h') (colon_not_mem_hash h) heq
    obtain ⟨hroute, hmethod⟩ :=
      append_sep_inj_right (colon_not_mem_method h') (colon_not_mem_method h) hfront
    exact ⟨hroute, String.toList_inj.mp hmethod, String.toList_inj.mp hhash⟩
  · rintro ⟨hroute, hmethod, hhash⟩
    rw [toText_eq, toText_eq, hroute, hmethod, hhash]

/-! ## Unambiguous keys -/

theorem feature_toList {k : Key} (h : k.Formed) : ∃ c rest, k.feature.toList = c :: rest := by
  apply List.exists_cons_of_ne_nil
  intro hnil
  exact h.feature (String.toList_eq_nil_iff.mp hnil)

/-- Colons behind the first character of the names: two of their own, and those of the fields. -/
theorem count_names_tail {k : Key} (h : k.Formed) :
    k.names.tail.count ':' = k.feature.toList.tail.count ':' + k.scenario.toList.count ':' +
      k.accountText.count ':' + 2 := by
  obtain ⟨c, rest, hfeature⟩ := feature_toList h
  unfold names
  rw [hfeature, List.cons_append, List.tail_cons, List.tail_cons, List.count_append,
    List.count_cons_self, List.count_append, List.count_cons_self]
  omega

theorem names_ne_nil {k : Key} (h : k.Formed) : k.names ≠ [] := by
  obtain ⟨c, rest, hfeature⟩ := feature_toList h
  unfold names
  rw [hfeature]
  simp

/-- Names that go on after another key's names have a colon more. -/
theorem count_names_tail_lt {k k' : Key} (h' : k'.Formed) {z : List Char}
    (hnames : k.names = k'.names ++ ':' :: z) :
    k'.names.tail.count ':' < k.names.tail.count ':' := by
  rw [hnames, List.tail_append_of_ne_nil (names_ne_nil h'), List.count_append,
    List.count_cons_self]
  omega

/-- The names of an unambiguous key are the names of every key with its route. -/
theorem names_eq_of_route_eq {k k' : Key} (h : k.Formed) (h' : k'.Formed) (hk : ¬ k.Ambiguous)
    (hroute : k'.route = k.route) : k'.names = k.names := by
  unfold route at hroute
  rcases List.append_eq_append_iff.mp hroute with ⟨z, hnames, hpath⟩ | ⟨z, hnames, hpath⟩
  · cases z with
    | nil => rw [hnames, List.append_nil]
    | cons c z =>
      -- the names of `k` would hold a colon more than its own two
      rw [List.cons_append] at hpath
      rw [← (List.cons.inj hpath).1] at hnames
      have hlt := count_names_tail_lt h' hnames
      rw [count_names_tail h, count_names_tail h'] at hlt
      unfold Ambiguous at hk
      rw [not_or, not_or, not_or] at hk
      rw [List.count_eq_zero.mpr hk.1, List.count_eq_zero.mpr hk.2.1,
        List.count_eq_zero.mpr hk.2.2.1] at hlt
      omega
  · cases z with
    | nil => rw [hnames, List.append_nil]
    | cons c z =>
      -- the path of `k` would hold the colon and the slash in front of the other path
      obtain ⟨rest, hslash⟩ := h'.path
      rw [List.cons_append, hslash] at hpath
      refine absurd (Or.inr (Or.inr (Or.inr ?_))) hk
      exact ⟨z, rest, by rw [(List.cons.inj hpath).2]; simp⟩

theorem account_eq_of_text {k k' : Key} (h : k.Formed) (h' : k'.Formed)
    (heq : k'.accountText = k.accountText) : k'.account = k.account := by
  unfold accountText at heq
  rw [String.toList_inj] at heq
  have hne := h.account
  have hne' := h'.account
  cases hk : k.account with
  | none =>
    cases hk' : k'.account with
    | none => rfl
    | some a =>
      rw [hk, hk'] at heq
      rw [hk'] at hne'
      exact absurd (congrArg some heq) hne'
  | some a =>
    cases hk' : k'.account with
    | none =>
      rw [hk, hk'] at heq
      rw [hk] at hne
      exact absurd (congrArg some heq.symm) hne
    | some b =>
      rw [hk, hk'] at heq
      exact congrArg some heq

/-- **The text of an unambiguous key is the text of no other key.** -/
theorem eq_of_toText_eq {k k' : Key} (h : k.Formed) (h' : k'.Formed) (hk : ¬ k.Ambiguous)
    (heq : k'.toText = k.toText) : k' = k := by
  obtain ⟨hroute, hmethod, hhash⟩ := (toText_eq_iff h h').mp heq
  have hnames := names_eq_of_route_eq h h' hk hroute
  have hpath : k'.path = k.path := by
    unfold route at hroute
    rw [hnames, List.append_cancel_left_eq, List.cons_inj_right] at hroute
    exact String.toList_inj.mp hroute
  unfold Ambiguous at hk
  rw [not_or, not_or, not_or] at hk
  obtain ⟨hf, hs, ha, -⟩ := hk
  -- the other key has no room for a further colon either
  have hcount := congrArg (fun l => l.tail.count ':') hnames
  simp only [count_names_tail h, count_names_tail h', List.count_eq_zero.mpr hf,
    List.count_eq_zero.mpr hs, List.count_eq_zero.mpr ha] at hcount
  have hf' : ':' ∉ k'.feature.toList.tail := List.count_eq_zero.mp (by omega)
  have hs' : ':' ∉ k'.scenario.toList := List.count_eq_zero.mp (by omega)
  obtain ⟨c, rest, hfeature⟩ := feature_toList h
  obtain ⟨c', rest', hfeature'⟩ := feature_toList h'
  rw [hfeature, List.tail_cons] at hf
  rw [hfeature', List.tail_cons] at hf'
  unfold names at hnames
  rw [hfeature, hfeature', List.cons_append, List.cons_append] at hnames
  obtain ⟨hhead, htail⟩ := List.cons.inj hnames
  obtain ⟨hrest, hlater⟩ := append_sep_inj hf' hf htail
  obtain ⟨hscenario, haccount⟩ := append_sep_inj hs' hs hlater
  have hfirst : k'.feature = k.feature := by
    rw [← String.toList_inj, hfeature, hfeature', hhead, hrest]
  exact Key.ext hfirst (String.toList_inj.mp hscenario) (account_eq_of_text h h' haccount) hpath
    hmethod hhash

/-! ## Ambiguous keys -/

/-- The account of a text, none for no text. -/
def accountOfText (cs : List Char) : Option String :=
  if cs = [] then none else some (String.ofList cs)

theorem accountOfText_ne (cs : List Char) : accountOfText cs ≠ some "" := by
  unfold accountOfText
  by_cases h : cs = []
  · rw [if_pos h]
    simp
  · rw [if_neg h]
    intro heq
    have := String.toList_inj.mpr (Option.some.inj heq)
    rw [String.toList_ofList] at this
    exact h this

theorem getD_accountOfText (cs : List Char) : ((accountOfText cs).getD "").toList = cs := by
  unfold accountOfText
  by_cases h : cs = []
  · rw [if_pos h, h]
    rfl
  · rw [if_neg h, Option.getD_some, String.toList_ofList]

/-- A key with the method and the fingerprint of another one. -/
def recut (k : Key) (feature scenario account path : List Char) : Key :=
  ⟨String.ofList feature, String.ofList scenario, accountOfText account, String.ofList path,
    k.method, k.hash⟩

theorem formed_recut {k : Key} (h : k.Formed) {feature path : List Char}
    (scenario account : List Char)
    (hfeature : feature ≠ []) (hpath : ∃ rest, path = '/' :: rest) :
    (k.recut feature scenario account path).Formed := by
  refine ⟨?_, accountOfText_ne account, ?_, h.method, h.hash⟩
  · intro heq
    have := String.toList_inj.mpr heq
    rw [show (k.recut feature scenario account path).feature = String.ofList feature from rfl,
      String.toList_ofList] at this
    exact hfeature this
  · obtain ⟨rest, hrest⟩ := hpath
    exact ⟨rest, by rw [← hrest]; exact String.toList_ofList⟩

theorem route_recut (k : Key) (feature scenario account path : List Char) :
    (k.recut feature scenario account path).route
      = feature ++ ':' :: (scenario ++ ':' :: account) ++ ':' :: path := by
  unfold route names accountText recut
  simp only [String.toList_ofList, getD_accountOfText]

theorem feature_of_recut_eq {k : Key} {feature scenario account path : List Char}
    (h : k.recut feature scenario account path = k) : feature = k.feature.toList := by
  have heq := congrArg (fun k : Key => k.feature.toList) h
  simpa only [recut, String.toList_ofList] using heq

theorem scenario_of_recut_eq {k : Key} {feature scenario account path : List Char}
    (h : k.recut feature scenario account path = k) : scenario = k.scenario.toList := by
  have heq := congrArg (fun k : Key => k.scenario.toList) h
  simpa only [recut, String.toList_ofList] using heq

theorem path_of_recut_eq {k : Key} {feature scenario account path : List Char}
    (h : k.recut feature scenario account path = k) : path = k.path.toList := by
  have heq := congrArg (fun k : Key => k.path.toList) h
  simpa only [recut, String.toList_ofList] using heq

/-- Another cut of the same route is another key of the same text. -/
theorem exists_of_recut {k : Key} (h : k.Formed) (feature scenario account path : List Char)
    (hfeature : feature ≠ []) (hpath : ∃ rest, path = '/' :: rest)
    (hroute : feature ++ ':' :: (scenario ++ ':' :: account) ++ ':' :: path = k.route)
    (hne : k.recut feature scenario account path ≠ k) :
    ∃ k' : Key, k'.Formed ∧ k' ≠ k ∧ k'.toText = k.toText := by
  have hformed := formed_recut h scenario account hfeature hpath
  refine ⟨_, hformed, hne, (toText_eq_iff h hformed).mpr ⟨?_, rfl, rfl⟩⟩
  rw [route_recut, hroute]

/-- **Every ambiguous key shares its text with another key.** -/
theorem exists_collision {k : Key} (h : k.Formed) (hk : k.Ambiguous) :
    ∃ k' : Key, k'.Formed ∧ k' ≠ k ∧ k'.toText = k.toText := by
  obtain ⟨c, first, hfeature⟩ := feature_toList h
  have hne : k.feature.toList ≠ [] := by
    rw [hfeature]
    simp
  rcases hk with hcolon | hcolon | hcolon | hcolon
  · -- the feature ends earlier
    obtain ⟨f₁, f₂, hcut⟩ := List.append_of_mem hcolon
    rw [hfeature, List.tail_cons] at hcut
    refine exists_of_recut h (c :: f₁) f₂ (k.scenario.toList ++ ':' :: k.accountText)
      k.path.toList (by simp) h.path ?_ ?_
    · unfold route names
      rw [hfeature, hcut]
      simp
    · intro heq
      have hlength := congrArg List.length (feature_of_recut_eq heq)
      rw [hfeature, hcut] at hlength
      simp at hlength
  · -- the scenario ends earlier
    obtain ⟨s₁, s₂, hcut⟩ := List.append_of_mem hcolon
    refine exists_of_recut h k.feature.toList s₁ (s₂ ++ ':' :: k.accountText) k.path.toList hne
      h.path ?_ ?_
    · unfold route names
      rw [hcut]
      simp
    · intro heq
      have hlength := congrArg List.length (scenario_of_recut_eq heq)
      rw [hcut] at hlength
      simp at hlength
  · -- the feature ends where the scenario ended
    obtain ⟨a₁, a₂, hcut⟩ := List.append_of_mem hcolon
    refine exists_of_recut h (k.feature.toList ++ ':' :: k.scenario.toList) a₁ a₂ k.path.toList
      (by simp) h.path ?_ ?_
    · unfold route names
      rw [hcut]
      simp
    · intro heq
      have hlength := congrArg List.length (feature_of_recut_eq heq)
      simp at hlength
  · -- the account goes on into the path
    obtain ⟨p₁, p₂, hcut⟩ := hcolon
    refine exists_of_recut h k.feature.toList k.scenario.toList (k.accountText ++ ':' :: p₁)
      ('/' :: p₂) hne ⟨p₂, rfl⟩ ?_ ?_
    · unfold route names
      rw [← hcut]
      simp
    · intro heq
      have hlength := congrArg List.length (path_of_recut_eq heq)
      rw [← hcut] at hlength
      simp at hlength
      omega

/-- **Exactly the ambiguous keys share their text.**  Two keys of requests have one text if and
only if they agree in method, fingerprint and route, which is all the other fields in one piece.
A key has its text in common with another key if and only if there is a colon in its scenario, in
its account, behind the first character of its feature, or in front of a slash of its path. -/
theorem collides_iff_ambiguous (k : Key) (h : k.Formed) :
    (∀ k' : Key, k'.Formed →
      (k'.toText = k.toText ↔ k'.route = k.route ∧ k'.method = k.method ∧ k'.hash = k.hash)) ∧
    ((∃ k' : Key, k'.Formed ∧ k' ≠ k ∧ k'.toText = k.toText) ↔ k.Ambiguous) := by
  refine ⟨fun k' h' => toText_eq_iff h h', ?_, exists_collision h⟩
  rintro ⟨k', h', hne, heq⟩
  by_contra hk
  exact hne (eq_of_toText_eq h h' hk heq)

/-- A key whose feature ends at one of two colons. -/
def twoColons : Key := ⟨"pay:eu", "ok", none, "/a", "GET", ""⟩

theorem formed_twoColons : twoColons.Formed :=
  ⟨by decide, by decide, ⟨['a'], by decide⟩, by decide, Or.inl rfl⟩

theorem collides_twoColons :
    twoColons.Formed ∧ ∃ k' : Key, k'.Formed ∧ k' ≠ twoColons ∧ k'.toText = twoColons.toText :=
  ⟨formed_twoColons, (collides_iff_ambiguous twoColons formed_twoColons).2.mpr
    (Or.inl (by decide))⟩

/-- The text of a key does not determine the key. -/
theorem not_injective_toText :
    ¬ ∀ k k' : Key, k.Formed → k'.Formed → k.toText = k'.toText → k = k' := by
  intro hinj
  have hother : (⟨"pay", "eu:ok", none, "/a", "GET", ""⟩ : Key).Formed :=
    ⟨by decide, by decide, ⟨['a'], by decide⟩, by decide, Or.inl rfl⟩
  exact absurd (hinj twoColons _ formed_twoColons hother (by decide)) (by decide)

end MockServer.Cache.Key
