/-
  MockServer.Run.Account — the accounts of a load test.

  Accounts are written as `username-password` between commas.  Blank
  entries are passed over, and so are entries without exactly one
  hyphen.
-/
import MockServer.Text.Blank
import MockServer.Text.Split

namespace MockServer.Run

/-- Who a scenario is run as. -/
structure Account where
  username : String
  password : String
  deriving DecidableEq, Repr, Inhabited

namespace Account

def ofEntry? (entry : List Char) : Option Account :=
  match Text.splitOn '-' (Text.trimChars entry) with
  | [username, password] => some ⟨String.ofList username, String.ofList password⟩
  | _ => none

def parseChars (cs : List Char) : List Account := (Text.splitOn ',' cs).filterMap ofEntry?

def parse (spec : String) : List Account := parseChars spec.toList

end Account

end MockServer.Run
