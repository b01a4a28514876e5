/-
  MockServer.Proofs.Cache.Range — invalidation by ranges of keys.

  A pattern for keys escapes each name in it and ends with a star, and
  the name space and the colons mean nothing to a pattern.  So the
  pattern is the escaped form of a text with a star behind it, and it
  matches the keys that begin with this text.

  Main definitions:
    * `startsWith` — does the key of an entry begin with a text?
    * `Clears` — which entries an invalidation takes away.

  Main results:
    * `clears_startingWith` — a pattern clears what begins with its
      parts;
    * `patterns_clear_ranges` — the ranges of the four patterns.
-/
import MockServer.Proofs.Cache.Basic
import MockServer.Proofs.Glob

namespace MockServer.Cache

/-! ## Patterns as escaped texts -/

theorem fields_cons (part : String) (parts : List String) :
    fields (part :: parts) = part.toList ++ ':' :: fields parts := by
  unfold fields
  rw [List.flatMap_cons, List.append_assoc, List.singleton_append]

theorem fields_map_escape (parts : List String) :
    fields (parts.map Glob.escape) = (fields parts).flatMap Glob.escapeChar := by
  induction parts with
  | nil => rfl
  | cons part parts ih =>
    have hcolon : Glob.escapeChar ':' = [':'] := by decide
    rw [List.map_cons, fields_cons, fields_cons, ih, List.flatMap_append, List.flatMap_cons, hcolon]
    unfold Glob.escape
    rw [String.toList_ofList, List.singleton_append]

/-- The text that the keys of a pattern begin with. -/
def start (parts : List String) : List Char := fields (space :: parts)

theorem startingWith_eq (parts : List String) :
    startingWith parts = String.ofList ((start parts).flatMap Glob.escapeChar ++ ['*']) := by
  have hspace : Glob.escape space = space := by decide
  have hescaped : fields (space :: parts.map Glob.escape)
      = (fields (space :: parts)).flatMap Glob.escapeChar := by
    rw [← fields_map_escape, List.map_cons, hspace]
  unfold startingWith start
  rw [hescaped]

/-! ## What is cleared -/

/-- Does the key of an entry begin with a text? -/
def startsWith (text : String) (e : String × String) : Bool := text.toList.isPrefixOf e.1.toList

/-- Is this a pattern by which exactly the entries whose keys begin with a text are taken away and
counted, whatever the cache holds? -/
def Clears (pattern text : String) : Prop :=
  (∃ tokens, Glob.parse? pattern = .ok tokens) ∧
  ∀ (entries : Dict String) (counters : Counters),
    let removed := entries.entries.countP (startsWith text)
    invalidate ⟨true, entries, counters⟩ pattern =
      .ok (removed, ⟨true, ⟨entries.entries.filter fun e => !startsWith text e⟩,
        counters.invalidate removed⟩)

/-- **A pattern clears the keys that begin with its parts.** -/
theorem clears_startingWith {parts : List String} {text : String}
    (h : text.toList = start parts) : Clears (startingWith parts) text := by
  have hparse : Glob.parse? (startingWith parts)
      = .ok ((start parts).map Glob.literal ++ [.anySequence]) := by
    rw [startingWith_eq, Glob.parse?_escape_star]
  refine ⟨⟨_, hparse⟩, ?_⟩
  intro entries counters
  have hmatch : ∀ e : String × String,
      Glob.isMatch ((start parts).map Glob.literal ++ [.anySequence]) e.1.toList
        = startsWith text e := by
    intro e
    rw [Glob.isMatch_literal_star, ← h]
    rfl
  rw [invalidate_of_parse rfl hparse]
  unfold keep
  simp only [hmatch]

/-- **The ranges of the patterns.**  Each of the patterns is one, whatever characters its names
hold, and takes away the entries whose keys begin with the name space and these names, each with a
colon behind it; it tells their number and leaves every other entry as it was. -/
theorem patterns_clear_ranges (feature scenario account : String) :
    Clears allPattern "mocktool:" ∧
    Clears (featurePattern feature) ("mocktool:" ++ feature ++ ":") ∧
    Clears (scenarioPattern feature scenario) ("mocktool:" ++ feature ++ ":" ++ scenario ++ ":") ∧
    Clears (accountPattern feature scenario account)
      ("mocktool:" ++ feature ++ ":" ++ scenario ++ ":" ++ account ++ ":") := by
  have hspace : "mocktool:".toList = space.toList ++ [':'] := by decide
  have hcolon : ":".toList = [':'] := by decide
  refine ⟨clears_startingWith ?_, clears_startingWith ?_, clears_startingWith ?_,
    clears_startingWith ?_⟩
  all_goals
    unfold start fields
    simp only [String.toList_append, hspace, hcolon, List.flatMap_cons, List.flatMap_nil,
      List.append_nil, List.append_assoc]

end MockServer.Cache
