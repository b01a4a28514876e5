/-
  MockServer.Header.Sanitize — which headers a mock may set, and what
  becomes of their values.

  A fixed list of names and everything that starts with `x-custom-`
  may be set.  A value is cut down to one line of printable ASCII
  without white space at its ends, and the characters that mean
  something in HTML are written as entities; an entity that is already
  there is left alone.

  Main definitions:
    * `isAllowed` — may the name be set?
    * `cleanValue` — the safe form of a value;
    * `clean` — a header table with notes on what was dropped or changed.
-/
import MockServer.Dict
import MockServer.Text.Blank
import MockServer.Text.Case
import MockServer.Text.Split

namespace MockServer.Header

/-! ## Names -/

/-- The names, in lower case, that a mock may set. -/
def allowedNames : List String :=
  ["content-type", "content-length", "cache-control", "expires", "last-modified", "etag",
   "access-control-allow-origin", "access-control-allow-methods", "access-control-allow-headers",
   "access-control-expose-headers", "access-control-max-age", "access-control-allow-credentials",
   "x-request-id", "x-trace-id", "x-correlation-id", "x-api-version", "x-ratelimit-limit",
   "x-ratelimit-remaining", "x-ratelimit-reset"]

/-- The start of every name that an application may define. -/
def customStart : String := "x-custom-"

/-- May the name be set?  White space around it and its case do not matter. -/
def isAllowed (name : String) : Bool :=
  let folded := Text.lower (Text.trim name)
  allowedNames.contains folded || (Text.after? customStart.toList folded.toList).isSome

/-! ## Values -/

/-- Characters from the blank to the tilde, and the tab. -/
def isPrintable (c : Char) : Bool := (' ' ≤ c && c ≤ '~') || c = '\t'

/-- What may follow an ampersand that is left alone. -/
def entityTails : List (List Char) :=
  [['a', 'm', 'p', ';'], ['l', 't', ';'], ['g', 't', ';'], ['#', '3', '4', ';'],
   ['#', '3', '9', ';']]

/-- Does an ampersand before this text begin an entity? -/
def beginsEntity (rest : List Char) : Bool :=
  entityTails.any fun tail => (Text.after? tail rest).isSome

def escape : List Char → List Char
  | [] => []
  | c :: rest =>
    if c = '&' then
      -- an ampersand of an entity is left alone, so escaping twice changes nothing
      (if beginsEntity rest then ['&'] else ['&', 'a', 'm', 'p', ';']) ++ escape rest
    else if c = '<' then ['&', 'l', 't', ';'] ++ escape rest
    else if c = '>' then ['&', 'g', 't', ';'] ++ escape rest
    else if c = '"' then ['&', '#', '3', '4', ';'] ++ escape rest
    else if c = '\'' then ['&', '#', '3', '9', ';'] ++ escape rest
    else c :: escape rest

def cleanValue (value : String) : String :=
  String.ofList (escape (Text.trimChars (value.toList.filter isPrintable)))

/-! ## Tables -/

/-- A note about a header that was not taken over as it was. -/
inductive Advisory where
  | dropped (name : String)
  | rewritten (name : String)
  deriving DecidableEq, Repr

def Advisory.message : Advisory → String
  | .dropped name => "Header not allowed: " ++ name
  | .rewritten name => "Header value sanitized: " ++ name

/-- The headers that survive, and notes in the order of the names. -/
structure Cleaned where
  headers : Dict String
  advisories : List Advisory
  deriving Repr

/-- The headers of a table that may be set, with safe values. -/
def cleanEntries (entries : List (String × String)) : List (String × String) :=
  (entries.filter fun e => isAllowed e.1).map fun e => (e.1, cleanValue e.2)

/-- The note about one header, if any. -/
def advise (e : String × String) : Option Advisory :=
  if isAllowed e.1 then (if cleanValue e.2 = e.2 then none else some (.rewritten e.1))
  else some (.dropped e.1)

def clean (headers : Dict String) : Cleaned :=
  ⟨⟨cleanEntries headers.entries⟩, headers.entries.filterMap advise⟩

end MockServer.Header
