/-
  MockServer.Cache.Stats — what a cache has done so far.

  Reads, writes and removed entries are counted one by one and are
  natural numbers: a run that fills 64 bits with them has no end.  The
  time of reads is a sum of any lengths, so it has the 64 bits of the
  program.
-/
import MockServer.Decimal.Shortest
import MockServer.Document.Basic
import MockServer.Json.Build

namespace MockServer.Cache

/-- Counters of a cache. -/
structure Counters where
  gets : Nat
  hits : Nat
  misses : Nat
  sets : Nat
  invalidated : Nat
  /-- Time spent in reads, in nanoseconds; beyond 64 bits the sum starts over. -/
  latencyNanos : UInt64
  deriving DecidableEq, Repr, Inhabited

namespace Counters

def zero : Counters := ⟨0, 0, 0, 0, 0, 0⟩

def hit (c : Counters) : Counters := { c with gets := c.gets + 1, hits := c.hits + 1 }

def miss (c : Counters) : Counters := { c with gets := c.gets + 1, misses := c.misses + 1 }

def set (c : Counters) : Counters := { c with sets := c.sets + 1 }

def invalidate (c : Counters) (n : Nat) : Counters := { c with invalidated := c.invalidated + n }

def latency (c : Counters) (nanos : Nat) : Counters :=
  { c with latencyNanos := c.latencyNanos + UInt64.ofNat nanos }

end Counters

/-- Statistics of a cache at one moment. -/
structure Stats where
  totalGets : Nat
  hits : Nat
  misses : Nat
  totalSets : Nat
  invalidated : Nat
  entryCount : Nat
  /-- The share of reads that found a value; zero before the first read. -/
  hitRate : Decimal.Binary64
  /-- The mean time of a read in microseconds, after the first read. -/
  avgGetLatencyMicros : Option Decimal.Binary64
  deriving DecidableEq, Repr

open Decimal in
/-- The statistics of the counters of a cache with a number of entries. -/
def Counters.stats (c : Counters) (entryCount : Nat) : Stats :=
  { totalGets := c.gets
    hits := c.hits
    misses := c.misses
    totalSets := c.sets
    invalidated := c.invalidated
    entryCount
    hitRate :=
      if c.gets = 0 then .zero else (Binary64.ofNat c.hits).div (Binary64.ofNat c.gets)
    avgGetLatencyMicros :=
      if c.gets = 0 then none
      else some (((Binary64.ofNat c.latencyNanos.toNat).div (Binary64.ofNat c.gets)).div
        (Binary64.ofNat 1000)) }

namespace Stats

def toJson (s : Stats) : Json :=
  .record [
    .always "total_gets" (.nat s.totalGets),
    .always "hits" (.nat s.hits),
    .always "misses" (.nat s.misses),
    .always "total_sets" (.nat s.totalSets),
    .always "invalidated" (.nat s.invalidated),
    .always "entry_count" (.nat s.entryCount),
    .always "hit_rate" (.num (.float s.hitRate)),
    .always "avg_get_latency_us"
      ((s.avgGetLatencyMicros.map fun x => .num (.float x)).getD .null)]

def ofDocument? (d : Document) : Option Stats := do
  let f ← d.fields?
    ["total_gets", "hits", "misses", "total_sets", "invalidated", "entry_count", "hit_rate",
     "avg_get_latency_us"]
  let count (name : String) : Option Nat := f.required name (Document.nat? UInt64.size)
  return {
    totalGets := ← count "total_gets"
    hits := ← count "hits"
    misses := ← count "misses"
    totalSets := ← count "total_sets"
    invalidated := ← count "invalidated"
    entryCount := ← count "entry_count"
    hitRate := ← f.required "hit_rate" Document.float?
    avgGetLatencyMicros := ← f.nullable "avg_get_latency_us" Document.float? }

end Stats

end MockServer.Cache
