/-
  MockServer.Url.Lookup — the path under which a mock is stored and
  looked up.

  The query of a path is brought to one form: pairs decoded, ordered
  by name with the order of equal names kept, and encoded again.  So
  the order of different names in a query never decides whether a mock
  matches.

  Main definitions:
    * `compose` — a path with a raw query in that form;
    * `canonical` — the same for a text that carries its own query.
-/
import MockServer.Url.Form

namespace MockServer.Url.Lookup

/-- Puts a pair before the first pair with a greater name. -/
def place (p : String × String) : List (String × String) → List (String × String)
  | [] => [p]
  -- behind the pairs of the same name
  | q :: rest => if p.1 < q.1 then p :: q :: rest else q :: place p rest

/-- The pairs ordered by name; pairs of one name keep their order. -/
def order (pairs : List (String × String)) : List (String × String) :=
  pairs.foldl (fun placed p => place p placed) []

/-- A path with its query in canonical form; a query without pairs vanishes. -/
def compose (path : String) (query : Option String) : String :=
  let pairs := order (Form.parse (query.getD ""))
  if pairs.isEmpty then path
  else String.ofList (path.toList ++ '?' :: Form.serialize pairs)

/-- The canonical form of a path that may carry a query after its first question mark. -/
def canonical (pathAndQuery : String) : String :=
  match Text.splitFirst '?' pathAndQuery.toList with
  | some (path, query) => compose (String.ofList path) (some (String.ofList query))
  | none => pathAndQuery

end MockServer.Url.Lookup
