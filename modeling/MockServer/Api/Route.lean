/-
  MockServer.Api.Route — what the paths of the interface stand for.

  A pattern is a list of segments: a fixed one, one that stands for any
  single segment, or one at the end that stands for the rest of the
  path, which must not be empty.  If several patterns match a path, the
  one that is fixed for longest counts.

  Main definitions:
    * `Endpoint` — what can be asked for, and with which methods;
    * `routes` — the patterns;
    * `find?` — the endpoint of a path, with the segment it names.
-/
import MockServer.Api.Message
import MockServer.Resolve.Request
import MockServer.Text.Split
import MockServer.Url.Percent

namespace MockServer.Api

/-! ## Endpoints -/

/-- What can be asked for. -/
inductive Endpoint where
  | health
  | readiness
  | metrics
  | forward (mode : Resolve.Mode)
  | activeScenario
  | activate
  | deactivate
  | loadTests
  | runLoadTest
  deriving DecidableEq, Repr

/-- The methods of an endpoint; forwarding takes all of them. -/
def Endpoint.methods? : Endpoint → Option (List String)
  | forward _ => none
  | health | readiness | metrics | activeScenario | loadTests => some ["GET", "HEAD"]
  | activate | runLoadTest => some ["POST"]
  | deactivate => some ["DELETE"]

def Endpoint.accepts (e : Endpoint) (method : String) : Bool :=
  (e.methods?.map fun ms => ms.contains method).getD true

/-! ## Patterns -/

/-- A segment of a pattern. -/
inductive Segment where
  /-- The segment itself. -/
  | fixed (text : String)
  /-- Any segment, under a name. -/
  | one (name : String)
  /-- The rest of the path, under a name. -/
  | rest (name : String)
  deriving DecidableEq, Repr

/-- A pattern and what it stands for. -/
structure Route where
  pattern : List Segment
  endpoint : Endpoint
  deriving DecidableEq, Repr

/-- The named part of a path. -/
structure Capture where
  name : String
  raw : String
  deriving DecidableEq, Repr

/-- The named parts of a path that a pattern matches. -/
def capture? : List Segment → List (List Char) → Option (List Capture)
  | [], [] => some []
  | .fixed text :: pattern, s :: path =>
    if text.toList = s then capture? pattern path else none
  | .one name :: pattern, s :: path =>
    (capture? pattern path).map (⟨name, String.ofList s⟩ :: ·)
  | [.rest name], s :: path =>
    -- the rest of a path is its text, slashes included
    let raw := String.ofList (['/'].intercalate (s :: path))
    if raw.isEmpty then none else some [⟨name, raw⟩]
  | _, _ => none

/-- Is the first pattern fixed for longer than the second? -/
def isMoreFixed : List Segment → List Segment → Bool
  | .fixed _ :: a, .fixed _ :: b => isMoreFixed a b
  | .one _ :: a, .one _ :: b => isMoreFixed a b
  | .fixed _ :: _, _ => true
  | .one _ :: _, .rest _ :: _ => true
  | _, _ => false

/-! ## The table -/

def fixedSegments (path : String) : List Segment :=
  (Text.splitOn '/' (path.toList.drop 1)).map fun s => .fixed (String.ofList s)

/-- The segments that all management paths start with; a slash at their end says nothing. -/
def apiSegments (apiPath : String) : List Segment :=
  let segments := fixedSegments apiPath
  if segments.getLast? = some (.fixed "") then segments.dropLast else segments

/-- The patterns of an interface whose management routes are under a path. -/
def routes (apiPath : String) : List Route :=
  let api := apiSegments apiPath
  let scenario : List Segment := [.fixed "scenarios", .one "scenario_id"]
  let tests : List Segment := [.fixed "loadtest", .fixed "scenarios"]
  [ ⟨[.fixed "health"], .health⟩,
    ⟨[.fixed "ready"], .readiness⟩,
    ⟨[.fixed "metrics"], .metrics⟩,
    ⟨[.fixed "forward", .rest "path"], .forward .authenticated⟩,
    ⟨[.fixed "public", .fixed "forward", .rest "path"], .forward .publicly⟩,
    ⟨api ++ [.fixed "scenarios", .fixed "active"], .activeScenario⟩,
    ⟨api ++ scenario ++ [.fixed "activate"], .activate⟩,
    ⟨api ++ scenario ++ [.fixed "deactivate"], .deactivate⟩,
    ⟨api ++ tests, .loadTests⟩,
    ⟨api ++ tests ++ [.one "scenario_id", .fixed "run"], .runLoadTest⟩ ]

/-- A route that matches a path, with the named part of the path. -/
structure Found where
  route : Route
  captures : List Capture
  deriving DecidableEq, Repr

/-- The better of two routes, if there are two. -/
def better (best : Option Found) (other : Found) : Option Found :=
  match best with
  | none => some other
  | some f => if isMoreFixed other.route.pattern f.route.pattern then some other else some f

def find? (table : List Route) (path : String) : Option Found :=
  let segments := Text.splitOn '/' (path.toList.drop 1)
  let found := table.filterMap fun r => (capture? r.pattern segments).map fun cs => ⟨r, cs⟩
  found.foldl better none

/-! ## Parameters -/

/-- Why the parameters of a request make no sense. -/
inductive ParameterError where
  /-- The bytes of a part of the path are no text. -/
  | path (name : String)
  /-- A parameter of the query is repeated. -/
  | repeated (name : String)
  deriving DecidableEq, Repr

def ParameterError.message : ParameterError → String
  | .path name => "Invalid URL: Invalid UTF-8 in \x60" ++ name ++ "\x60"
  | .repeated name =>
    "Failed to deserialize query string: duplicate field \x60" ++ name ++ "\x60"

def Capture.text (c : Capture) : Except ParameterError String :=
  match Url.decodeText? c.raw.toList with
  | some cs => .ok (String.ofList cs)
  | none => .error (.path c.name)

/-- The decoded text of the only named part of a path. -/
def Found.text (f : Found) : Except ParameterError String :=
  match f.captures with
  | c :: _ => c.text
  | [] => .ok ""

end MockServer.Api
