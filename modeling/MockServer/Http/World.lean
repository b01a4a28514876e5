/-
  MockServer.Http.World — the network and the clock that requests meet.

  What a server answers, how long it takes and what time it is are not
  for the library to say; it is given a world that tells.  Requests
  whose scheme is not that of the web never reach it.
-/
import MockServer.Duration
import MockServer.Http.Request

namespace MockServer.Http

/-- What comes of a request. -/
inductive Outcome where
  /-- No response comes. -/
  | failed (detail : String)
  /-- A response comes, but its body cannot be read. -/
  | unreadable (status : Nat) (detail : String)
  /-- A response with its body. -/
  | response (status : Nat) (headers : Header.Fields) (body : String)
  deriving DecidableEq, Repr

/-- A network and a clock with states `σ`. -/
structure World (σ : Type) where
  send : Request → σ → Outcome × σ
  now : σ → Duration
  pause : Duration → σ → σ

def isSendable (u : Url) : Bool :=
  u.scheme == "http".toList || u.scheme == "https".toList

def World.transmit {σ : Type} (w : World σ) (r : Request) (s : σ) : Outcome × σ :=
  if isSendable r.url then w.send r s
  else (.failed ("builder error for url (" ++ r.url.toText ++ ")"), s)

/-- What is said of a request that finds no server. -/
def unreachable (r : Request) : String :=
  "error sending request for url (" ++ r.url.toText ++ ")"

/-- A world without servers that counts the pauses; each attempt takes a millisecond. -/
structure Void where
  time : Duration
  slept : Duration
  deriving DecidableEq, Repr, Inhabited

def World.void : World Void where
  send r s := (.failed (unreachable r), { s with time := s.time.add (.ofMillis 1) })
  now s := s.time
  pause d s := { s with slept := s.slept.add d }

end MockServer.Http
