/-
  MockServer.Duration — lengths of time.

  Lengths are kept in nanoseconds; documents hold whole milliseconds
  or whole seconds.
-/
import MockServer.Document.Basic

namespace MockServer

/-- A length of time. -/
structure Duration where
  nanos : Nat
  deriving DecidableEq, Repr, Inhabited

namespace Duration

def zero : Duration := ⟨0⟩

-- the number stands last, so that a product with an unknown one is not unfolded
def ofMillis (n : Nat) : Duration := ⟨Nat.pow 10 6 * n⟩

def ofSeconds (n : Nat) : Duration := ⟨Nat.pow 10 9 * n⟩

def millis (d : Duration) : Nat := d.nanos / Nat.pow 10 6

def seconds (d : Duration) : Nat := d.nanos / Nat.pow 10 9

def add (a b : Duration) : Duration := ⟨a.nanos + b.nanos⟩

def ofMillisDocument? (d : Document) : Option Duration := (d.nat? UInt64.size).map ofMillis

end Duration

end MockServer
