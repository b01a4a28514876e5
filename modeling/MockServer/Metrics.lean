/-
  MockServer.Metrics — what the resolver has done so far.

  Counters for cache reads and store look-ups, look-ups again by
  feature, scenario and outcome, and a histogram of the time that
  requests took.

  What is counted one by one is a natural number: a run that fills 64
  bits with it has no end.  The time of all requests is a sum of any
  lengths, so it has the 64 bits of the program.
-/
import MockServer.Decimal.Shortest
import MockServer.Duration
import MockServer.Json.Build

namespace MockServer

open Decimal

/-! ## Histograms -/

/-- Observations by bucket; the last count is for everything beyond the last boundary. -/
structure Histogram where
  /-- Upper boundaries in seconds, in the order they are tried. -/
  boundaries : List Binary64
  counts : List Nat
  total : Nat
  /-- All times together, in microseconds; beyond 64 bits the sum starts over. -/
  sumMicros : UInt64
  deriving DecidableEq, Repr, Inhabited

namespace Histogram

def new (boundaries : List Binary64) : Histogram :=
  ⟨boundaries, List.replicate (boundaries.length + 1) 0, 0, 0⟩

/-- A length of time in seconds: the whole seconds plus the rest. -/
def seconds (d : Duration) : Binary64 :=
  (Binary64.ofNat d.seconds).add
    ((Binary64.ofNat (d.nanos % Nat.pow 10 9)).div (Binary64.ofNat (Nat.pow 10 9)))

/-- The first bucket whose boundary is not exceeded. -/
def bucket (boundaries : List Binary64) (d : Duration) : Nat :=
  (boundaries.findIdx? fun b => decide ((seconds d).units ≤ b.units)).getD boundaries.length

/-- Adds one to the count at an index. -/
def bump : List Nat → Nat → List Nat
  | [], _ => []
  | n :: rest, 0 => (n + 1) :: rest
  | n :: rest, i + 1 => n :: bump rest i

def observe (h : Histogram) (d : Duration) : Histogram :=
  { h with
    counts := bump h.counts (bucket h.boundaries d)
    total := h.total + 1
    sumMicros := h.sumMicros + UInt64.ofNat (d.nanos / 1000) }

def toJson (h : Histogram) : Json :=
  .record [
    .always "buckets" (.arr (h.boundaries.map fun b => .num (.float b))),
    .always "counts" (.arr (h.counts.map .nat)),
    .always "total_count" (.nat h.total),
    .always "sum_seconds"
      (.num (.float ((Binary64.ofNat h.sumMicros.toNat).div (Binary64.ofNat (Nat.pow 10 6)))))]

end Histogram

/-! ## Look-ups -/

/-- What a look-up was for, and how it ended. -/
structure LookupLabel where
  feature : String
  scenario : String
  found : Bool
  deriving DecidableEq, Repr, Inhabited

namespace LookupLabel

def status (l : LookupLabel) : String := if l.found then "found" else "not_found"

/-- The order of labels: by feature, then scenario, then outcome. -/
def before (a b : LookupLabel) : Bool :=
  decide (a.feature < b.feature) ||
    (a.feature == b.feature && (decide (a.scenario < b.scenario) ||
      (a.scenario == b.scenario && decide (a.status < b.status))))

end LookupLabel

/-- Adds one to the count of a label in a list ordered by label. -/
def countLookup (l : LookupLabel) : List (LookupLabel × Nat) → List (LookupLabel × Nat)
  | [] => [(l, 1)]
  | (k, n) :: rest =>
    if l = k then (k, n + 1) :: rest
    else if l.before k then (l, 1) :: (k, n) :: rest
    else (k, n) :: countLookup l rest

/-! ## All counters -/

/-- The counters of the resolver. -/
structure Metrics where
  durations : Histogram
  lookupsFound : Nat
  lookupsNotFound : Nat
  cacheHits : Nat
  cacheMisses : Nat
  lookups : List (LookupLabel × Nat)
  deriving DecidableEq, Repr, Inhabited

namespace Metrics

/-- The boundaries of the histogram: 1, 5, 10, 25, 50, 100, 250 and 500 milliseconds. -/
def boundaries : List Binary64 :=
  [1, 5, 10, 25, 50, 100, 250, 500].map fun n => (Binary64.ofRatio? false n 1000).getD .zero

def new : Metrics := ⟨.new boundaries, 0, 0, 0, 0, []⟩

def observe (m : Metrics) (d : Duration) : Metrics := { m with durations := m.durations.observe d }

def cacheHit (m : Metrics) : Metrics := { m with cacheHits := m.cacheHits + 1 }

def cacheMiss (m : Metrics) : Metrics := { m with cacheMisses := m.cacheMisses + 1 }

def lookup (m : Metrics) (l : LookupLabel) : Metrics :=
  { m with
    lookupsFound := m.lookupsFound + (if l.found then 1 else 0)
    lookupsNotFound := m.lookupsNotFound + (if l.found then 0 else 1)
    lookups := countLookup l m.lookups }

def lookupJson (e : LookupLabel × Nat) : Json :=
  .record [
    .always "feature" (.str e.1.feature),
    .always "scenario" (.str e.1.scenario),
    .always "status" (.str e.1.status),
    .always "count" (.nat e.2)]

def toJson (m : Metrics) : Json :=
  .record [
    .always "resolve_duration_seconds" m.durations.toJson,
    .always "lookups_found" (.nat m.lookupsFound),
    .always "lookups_not_found" (.nat m.lookupsNotFound),
    .always "cache_hits" (.nat m.cacheHits),
    .always "cache_misses" (.nat m.cacheMisses),
    .always "lookups" (.arr (m.lookups.map lookupJson))]

end Metrics

end MockServer
