/-
  MockServer.Http.Method — the methods that a step may use.
-/
import MockServer.Text.Blank
import MockServer.Text.Case

namespace MockServer.Http

/-- A request method. -/
inductive Method where
  | get | post | put | delete | patch | head | options
  deriving DecidableEq, Repr, Inhabited

namespace Method

def name : Method → String
  | get => "GET"
  | post => "POST"
  | put => "PUT"
  | delete => "DELETE"
  | patch => "PATCH"
  | head => "HEAD"
  | options => "OPTIONS"

def all : List Method := [get, post, put, delete, patch, head, options]

def named : List (String × Method) := all.map fun m => (m.name, m)

/-- The method of a name in any case. -/
def parse? (s : String) : Option Method := all.find? fun m => m.name == Text.upper s

/-- The method of a name between blanks; a blank text is the default. -/
def parseOrDefault? (s : String) : Option Method :=
  if Text.isBlankText s then some .get else parse? (Text.trim s)

/-- What is said of a text that names no method. -/
def unknown (s : String) : String :=
  "Invalid HTTP method: '" ++ s ++ "'. Supported methods are: " ++
    ", ".intercalate (all.map name)

end Method

end MockServer.Http
