/-
  MockServer.Supply — where new identifiers and the time come from.

  The server draws an identifier for every new record and every error
  that has no trace identifier of its own.  Draws differ from each
  other; where they start and what time it is, the caller says.
-/
import MockServer.Entity.Feature

namespace MockServer

/-- The identifiers not drawn so far, and the time. -/
structure Supply where
  next : Nat
  now : Timestamp
  deriving DecidableEq, Repr, Inhabited

namespace Supply

def id (s : Supply) : Uuid := Uuid.ofRandom s.next

def stamp (s : Supply) : Stamp := ⟨s.id, s.now⟩

def advance (s : Supply) : Supply := { s with next := s.next + 1 }

end Supply

end MockServer
