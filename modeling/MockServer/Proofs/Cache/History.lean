/-
  MockServer.Proofs.Cache.History — a cache follows what was done to it.

  What a key stands for is said by the history alone: the body of the
  latest write of the key, unless a later invalidation matches it.  The
  entries of the cache are shown to hold just that, one operation at a
  time; and the counters keep books.  A write of a key that stands for
  nothing brings one entry in, and an invalidation counts the entries
  that it takes away, so what is left is always the difference.

  Main definitions:
    * `Op`, `Answer`, `step`, `run` — operations on a cache;
    * `Holds` — a history leaves a key with a body;
    * `latest` — the same, computed operation by operation;
    * `Follows` — a cache whose entries show a history;
    * `Booked` — a cache whose counters do.

  Main results:
    * `follows_step`, `booked_step` — what one operation keeps;
    * `countP_isHit_add_countP_isMiss` — what the reads of a run come to;
    * `run_follows_history` — what every sequence of operations shows.
-/
import Mathlib.Data.Finset.Card
import Mathlib.Data.Set.Card
import MockServer.Proofs.Cache.Basic

namespace MockServer.Cache

/-! ## Operations -/

/-- An operation on a cache. -/
inductive Op where
  | get (key : String)
  | set (key body : String)
  | invalidate (pattern : String)
  deriving DecidableEq

/-- What an operation is answered with. -/
inductive Answer where
  | found (body : Option String)
  | stored
  | removed (count : Nat)
  | refused (e : CacheError)
  deriving DecidableEq

/-- One operation. -/
def step (c : Cache) : Op → Answer × Cache
  | .get key => (.found (c.get key).1, (c.get key).2)
  | .set key body => (.stored, c.set key body)
  | .invalidate pattern =>
    match c.invalidate pattern with
    | .ok (n, c) => (.removed n, c)
    | .error e => (.refused e, c)

/-- The answers to a sequence of operations, and the cache after them. -/
def run (c : Cache) : List Op → List Answer × Cache
  | [] => ([], c)
  | op :: ops => ((c.step op).1 :: ((c.step op).2.run ops).1, ((c.step op).2.run ops).2)

theorem run_append (c : Cache) (ops later : List Op) :
    c.run (ops ++ later) =
      ((c.run ops).1 ++ ((c.run ops).2.run later).1, ((c.run ops).2.run later).2) := by
  induction ops generalizing c with
  | nil => rfl
  | cons op ops ih => simp only [List.cons_append, run, ih]

theorem length_run (c : Cache) (ops : List Op) : (c.run ops).1.length = ops.length := by
  induction ops generalizing c with
  | nil => rfl
  | cons op ops ih => exact congrArg (· + 1) (ih _)

theorem run_concat (c : Cache) (ops : List Op) (op : Op) :
    c.run (ops ++ [op]) =
      ((c.run ops).1 ++ [((c.run ops).2.step op).1], ((c.run ops).2.step op).2) :=
  run_append c ops [op]

/-- An operation is answered by the cache that the operations before it leave. -/
theorem getElem?_run (c : Cache) (before after : List Op) (op : Op) :
    (c.run (before ++ op :: after)).1[before.length]? = some ((c.run before).2.step op).1 := by
  rw [run_append, ← length_run c before, List.getElem?_append_right (le_refl _), Nat.sub_self]
  rfl

namespace Op

/-- Does the operation end what a key stands for?  A text that is no pattern matches no key. -/
def ends (key : String) : Op → Bool
  | .get _ => false
  | .set k _ => key == k
  | .invalidate pattern => (Glob.parse? pattern).toOption.any (Glob.isMatch · key.toList)

def isGet : Op → Bool
  | .get _ => true
  | _ => false

def isSet : Op → Bool
  | .set _ _ => true
  | _ => false

end Op

namespace Answer

def isHit : Answer → Bool
  | .found (some _) => true
  | _ => false

def isMiss : Answer → Bool
  | .found none => true
  | _ => false

/-- The number of entries that were taken away. -/
def gone : Answer → Nat
  | .removed n => n
  | _ => 0

end Answer

/-! ## Histories -/

/-- The key was set to the body and nothing has ended that since. -/
def Holds (ops : List Op) (key body : String) : Prop :=
  ∃ before after, ops = before ++ .set key body :: after ∧ ∀ op ∈ after, op.ends key = false

/-- What a key stands for after an operation. -/
def Op.leaves (key : String) (held : Option String) (op : Op) : Option String :=
  if op.ends key then
    match op with
    | .set _ body => some body
    | _ => none
  else held

/-- What a key stands for after a history. -/
def latest (ops : List Op) (key : String) : Option String := ops.foldl (Op.leaves key) none

theorem latest_concat (ops : List Op) (op : Op) (key : String) :
    latest (ops ++ [op]) key = op.leaves key (latest ops key) := by
  unfold latest
  rw [List.foldl_append]
  rfl

theorem holds_concat {ops : List Op} {op : Op} {key body : String} :
    Holds (ops ++ [op]) key body ↔
      op = .set key body ∨ (op.ends key = false ∧ Holds ops key body) := by
  constructor
  · rintro ⟨before, after, heq, hafter⟩
    -- the write is the last operation, or it stands in front of it
    rcases List.eq_nil_or_concat' after with rfl | ⟨after, last, rfl⟩
    · exact Or.inl (List.singleton_inj.mp (List.append_inj' heq rfl).2)
    · rw [← List.cons_append, ← List.append_assoc] at heq
      obtain ⟨hops, hlast⟩ := List.append_inj' heq rfl
      rw [List.singleton_inj.mp hlast]
      exact Or.inr ⟨hafter last List.mem_concat_self, before, after, hops,
        fun op hop => hafter op (List.mem_append_left _ hop)⟩
  · rintro (rfl | ⟨hends, before, after, rfl, hafter⟩)
    · exact ⟨ops, [], rfl, nofun⟩
    · refine ⟨before, after ++ [op], by rw [List.append_assoc, List.cons_append], ?_⟩
      intro other hother
      rcases List.mem_append.mp hother with hmem | hmem
      · exact hafter other hmem
      · rw [List.mem_singleton.mp hmem]
        exact hends

/-- **What a key stands for is the latest write that nothing has ended.** -/
theorem latest_eq_some_iff {ops : List Op} {key body : String} :
    latest ops key = some body ↔ Holds ops key body := by
  induction ops using List.reverseRecOn with
  | nil => exact ⟨nofun, fun ⟨before, after, heq, _⟩ => absurd heq.symm (by simp)⟩
  | append_singleton ops op ih =>
    rw [latest_concat, holds_concat, ← ih]
    cases op with
    | get k => simp [Op.leaves, Op.ends]
    | set k b =>
      by_cases hk : key = k
      · simp [Op.leaves, Op.ends, hk]
      · simp [Op.leaves, Op.ends, hk, Ne.symm hk]
    | invalidate pattern =>
      cases hends : (Op.invalidate pattern).ends key with
      | false => simp [Op.leaves, hends]
      | true => simp [Op.leaves, hends]

/-- Does the operation write a key that stands for nothing? -/
def Op.isFresh (past : List Op) : Op → Bool
  | .set key _ => (latest past key).isNone
  | _ => false

/-- The number of writes of a key that stood for nothing when it was written. -/
def freshWrites (ops : List Op) : Nat :=
  (List.range ops.length).countP fun i => (ops[i]?).any (Op.isFresh (ops.take i))

theorem freshWrites_concat (ops : List Op) (op : Op) :
    freshWrites (ops ++ [op]) = freshWrites ops + if op.isFresh ops then 1 else 0 := by
  unfold freshWrites
  rw [List.length_append, List.length_singleton, List.range_succ, List.countP_append,
    List.countP_singleton, List.getElem?_concat_length, List.take_left' rfl, Option.any_some]
  congr 1
  apply List.countP_congr
  intro i hi
  have hlt : i < ops.length := List.mem_range.mp hi
  rw [List.getElem?_append_left hlt, List.take_append_of_le_length (le_of_lt hlt)]

/-! ## Entries -/

/-- Is the cache on, and does it hold for every key what the key stands for? -/
structure Follows (past : List Op) (c : Cache) : Prop where
  isEnabled : c.isEnabled = true
  increasing : Dict.Increasing c.entries.entries
  get?_eq : ∀ key, c.entries.get? key = latest past key

theorem follows_new : Follows [] (new true) := ⟨rfl, List.Pairwise.nil, fun _ => rfl⟩

/-- **An operation is followed.** -/
theorem follows_step {past : List Op} {c : Cache} (h : Follows past c) (op : Op) :
    Follows (past ++ [op]) (c.step op).2 := by
  cases op with
  | get key =>
    simp only [step, get_eq h.isEnabled]
    refine ⟨h.isEnabled, h.increasing, fun k => ?_⟩
    rw [latest_concat, ← h.get?_eq k]
    rfl
  | set key body =>
    simp only [step, set, if_pos h.isEnabled]
    refine ⟨h.isEnabled, Dict.increasing_insertEntry key body h.increasing, fun k => ?_⟩
    rw [latest_concat, ← h.get?_eq k]
    show (Dict.insertEntry key body c.entries.entries).lookup k = _
    rw [Dict.lookup_insertEntry]
    simp only [Op.leaves, Op.ends, beq_iff_eq]
    rfl
  | invalidate pattern =>
    cases hparse : Glob.parse? pattern with
    | error e =>
      simp only [step, invalidate_of_refused h.isEnabled hparse]
      refine ⟨h.isEnabled, h.increasing, fun k => ?_⟩
      rw [latest_concat, ← h.get?_eq k]
      simp [Op.leaves, Op.ends, hparse, Except.toOption]
    | ok tokens =>
      simp only [step, invalidate_of_parse h.isEnabled hparse]
      refine ⟨h.isEnabled, h.increasing.filter _, fun k => ?_⟩
      rw [latest_concat, ← h.get?_eq k, get?_keep]
      simp [Op.leaves, Op.ends, hparse, Except.toOption]

/-! ## Books -/

/-- What one operation adds to the counters. -/
structure Adds (past : List Op) (op : Op) (answer : Answer) (before after : Cache) : Prop where
  gets : after.counters.gets = before.counters.gets + if op.isGet then 1 else 0
  hits : after.counters.hits = before.counters.hits + if answer.isHit then 1 else 0
  misses : after.counters.misses = before.counters.misses + if answer.isMiss then 1 else 0
  sets : after.counters.sets = before.counters.sets + if op.isSet then 1 else 0
  invalidated : after.counters.invalidated = before.counters.invalidated + answer.gone
  size : after.entries.size + answer.gone = before.entries.size + if op.isFresh past then 1 else 0

theorem adds_step {past : List Op} {c : Cache} (h : Follows past c) (op : Op) :
    Adds past op (c.step op).1 c (c.step op).2 := by
  cases op with
  | get key =>
    simp only [step, get_eq h.isEnabled]
    cases c.entries.get? key with
    | none => exact ⟨rfl, rfl, rfl, rfl, rfl, rfl⟩
    | some body => exact ⟨rfl, rfl, rfl, rfl, rfl, rfl⟩
  | set key body =>
    simp only [step, set, if_pos h.isEnabled]
    refine ⟨rfl, rfl, rfl, rfl, rfl, ?_⟩
    have hlength := Dict.length_insertEntry key body h.increasing
    rw [show c.entries.entries.lookup key = latest past key from h.get?_eq key] at hlength
    exact hlength
  | invalidate pattern =>
    cases hparse : Glob.parse? pattern with
    | error e =>
      simp only [step, invalidate_of_refused h.isEnabled hparse]
      exact ⟨rfl, rfl, rfl, rfl, rfl, rfl⟩
    | ok tokens =>
      simp only [step, invalidate_of_parse h.isEnabled hparse]
      exact ⟨rfl, rfl, rfl, rfl, rfl, size_keep tokens c.entries⟩

/-- A read is answered by a hit or by a miss, and nothing else is. -/
theorem isMiss_eq (c : Cache) (op : Op) :
    (c.step op).1.isMiss = (op.isGet && !(c.step op).1.isHit) := by
  cases op with
  | get key =>
    show (Answer.found (c.get key).1).isMiss = (true && !(Answer.found (c.get key).1).isHit)
    cases (c.get key).1 with
    | none => rfl
    | some body => rfl
  | set key body => rfl
  | invalidate pattern =>
    simp only [step]
    split
    next => rfl
    next => rfl

theorem isGet_of_isHit {c : Cache} {op : Op} (h : (c.step op).1.isHit = true) :
    op.isGet = true := by
  cases op with
  | get key => rfl
  | set key body => exact absurd h Bool.false_ne_true
  | invalidate pattern =>
    simp only [step] at h
    split at h
    next => exact absurd h Bool.false_ne_true
    next => exact absurd h Bool.false_ne_true

/-- The reads of a run are the hits and the misses. -/
theorem countP_isHit_add_countP_isMiss (c : Cache) (ops : List Op) :
    (c.run ops).1.countP Answer.isHit + (c.run ops).1.countP Answer.isMiss
      = ops.countP Op.isGet := by
  induction ops generalizing c with
  | nil => rfl
  | cons op ops ih =>
    rw [run, List.countP_cons, List.countP_cons, List.countP_cons, ← ih (c.step op).2, isMiss_eq]
    cases hhit : (c.step op).1.isHit with
    | true =>
      rw [isGet_of_isHit hhit]
      exact Nat.add_right_comm _ _ _
    | false =>
      -- what is no hit is a miss exactly if it is a read
      rw [Bool.not_false, Bool.and_true, if_neg Bool.false_ne_true, Nat.add_zero, Nat.add_assoc]

/-- Do the counters of a cache show what was asked of it and answered? -/
structure Booked (ops : List Op) (answers : List Answer) (c : Cache) : Prop where
  gets : c.counters.gets = ops.countP Op.isGet
  hits : c.counters.hits = answers.countP Answer.isHit
  misses : c.counters.misses = answers.countP Answer.isMiss
  sets : c.counters.sets = ops.countP Op.isSet
  invalidated : c.counters.invalidated = (answers.map Answer.gone).sum
  balance : c.entries.size + c.counters.invalidated = freshWrites ops

theorem booked_new : Booked [] [] (new true) := ⟨rfl, rfl, rfl, rfl, rfl, rfl⟩

/-- **An operation is booked.** -/
theorem booked_step {past : List Op} {answers : List Answer} {c : Cache}
    (h : Booked past answers c) (hfollows : Follows past c) (op : Op) :
    Booked (past ++ [op]) (answers ++ [(c.step op).1]) (c.step op).2 := by
  have hadds := adds_step hfollows op
  constructor
  · rw [hadds.gets, h.gets, List.countP_append, List.countP_singleton]
  · rw [hadds.hits, h.hits, List.countP_append, List.countP_singleton]
  · rw [hadds.misses, h.misses, List.countP_append, List.countP_singleton]
  · rw [hadds.sets, h.sets, List.countP_append, List.countP_singleton]
  · rw [hadds.invalidated, h.invalidated, List.map_append, List.sum_append, List.map_singleton,
      List.sum_singleton]
  · rw [hadds.invalidated, freshWrites_concat, ← h.balance]
    have hsize := hadds.size
    omega

/-- **Every sequence of operations is followed and booked.** -/
theorem follows_run (ops : List Op) :
    Follows ops ((new true).run ops).2 ∧
      Booked ops ((new true).run ops).1 ((new true).run ops).2 := by
  induction ops using List.reverseRecOn with
  | nil => exact ⟨follows_new, booked_new⟩
  | append_singleton ops op ih =>
    rw [run_concat]
    exact ⟨follows_step ih.1 op, booked_step ih.2 ih.1 op⟩

/-! ## Live keys -/

/-- The keys that stand for a body. -/
def liveKeys (ops : List Op) : Set String := {key | ∃ body, Holds ops key body}

theorem encard_liveKeys {ops : List Op} {c : Cache} (h : Follows ops c) :
    (liveKeys ops).encard = c.entries.size := by
  have hkeys : liveKeys ops = (c.entries.names.toFinset : Set String) := by
    ext key
    rw [List.coe_toFinset]
    show (∃ body, Holds ops key body) ↔ key ∈ c.entries.entries.map Prod.fst
    rw [← Dict.isSome_lookup_iff, Option.isSome_iff_exists]
    exact exists_congr fun body => by rw [← latest_eq_some_iff, ← h.get?_eq]; rfl
  have hcard : c.entries.names.toFinset.card = c.entries.size :=
    (List.toFinset_card_of_nodup h.increasing.nodup_names).trans (List.length_map _)
  rw [hkeys, Set.encard_coe_eq_coe_finsetCard, hcard]

/-- Are the statistics those of a history and its answers? -/
structure Exact (ops : List Op) (answers : List Answer) (s : Stats) : Prop where
  totalGets : s.totalGets = ops.countP Op.isGet
  hits_add_misses : s.hits + s.misses = s.totalGets
  hits : s.hits = answers.countP Answer.isHit
  misses : s.misses = answers.countP Answer.isMiss
  totalSets : s.totalSets = ops.countP Op.isSet
  invalidated : s.invalidated = (answers.map Answer.gone).sum
  live : (liveKeys ops).encard = s.entryCount
  balance : s.entryCount + s.invalidated = freshWrites ops

/-- **A cache is a map with exact books.** -/
theorem run_follows_history :
    (∀ before key after, ∃ found,
      ((new true).run (before ++ .get key :: after)).1[before.length]? = some (.found found) ∧
      ∀ body, found = some body ↔ Holds before key body) ∧
    (∀ before pattern after e, Glob.parse? pattern = .error e →
      ((new true).run (before ++ .invalidate pattern :: after)).1[before.length]?
        = some (.refused (.invalidPattern pattern e)) ∧
      ((new true).run (before ++ [.invalidate pattern])).2 = ((new true).run before).2) ∧
    ∀ ops, Exact ops ((new true).run ops).1 ((new true).run ops).2.stats := by
  refine ⟨fun before key after => ?_, fun before pattern after e hparse => ?_, fun ops => ?_⟩
  · obtain ⟨hfollows, -⟩ := follows_run before
    refine ⟨latest before key, ?_, fun body => latest_eq_some_iff⟩
    rw [getElem?_run, step, get_eq hfollows.isEnabled, hfollows.get?_eq]
  · obtain ⟨hfollows, -⟩ := follows_run before
    have hrefused := invalidate_of_refused hfollows.isEnabled hparse
    rw [getElem?_run, run_concat]
    simp only [step, hrefused]
    exact ⟨trivial, trivial⟩
  · obtain ⟨hfollows, hbooked⟩ := follows_run ops
    have hreads : ((new true).run ops).2.counters.hits + ((new true).run ops).2.counters.misses
        = ((new true).run ops).2.counters.gets := by
      rw [hbooked.hits, hbooked.misses, hbooked.gets]
      exact countP_isHit_add_countP_isMiss (new true) ops
    exact ⟨hbooked.gets, hreads, hbooked.hits, hbooked.misses, hbooked.sets, hbooked.invalidated,
      encard_liveKeys hfollows, hbooked.balance⟩

/-- A key is written over, a text that is no pattern is refused, and two patterns overlap. -/
def overlapping : List Op := [
  .set "ab" "1", .set "ab" "2", .get "ab", .get "c", .invalidate "[", .set "b" "3",
  .invalidate "a*", .invalidate "*b", .get "ab", .set "ab" "4"]

theorem overlapping_exact :
    Glob.parse? "[" = .error ⟨0, .bracket⟩ ∧
    ((new true).run overlapping).1[4]? = some (.refused (.invalidPattern "[" ⟨0, .bracket⟩)) ∧
    Exact overlapping ((new true).run overlapping).1 ((new true).run overlapping).2.stats ∧
    (liveKeys overlapping).encard = 1 ∧ freshWrites overlapping = 3 := by
  have hrefused : Glob.parse? "[" = .error ⟨0, .bracket⟩ := by decide +kernel
  have hexact := run_follows_history.2.2 overlapping
  have hcount : ((new true).run overlapping).2.stats.entryCount = 1 := by decide +kernel
  refine ⟨hrefused, ?_, hexact, ?_, by decide +kernel⟩
  · exact (run_follows_history.2.1 (overlapping.take 4) "[" (overlapping.drop 5) _ hrefused).1
  · rw [hexact.live, hcount]
    rfl

end MockServer.Cache
