/-
  MockServer.Url.Basic — absolute URLs.

  A URL is read by the rules that web browsers follow: blanks around it
  and line breaks inside it do not count, the scheme decides how much of
  the rest is understood, and every part is kept in its normal written
  form.

  Main definitions:
    * `Url`, `Url.toText` — a URL and its normal form;
    * `Url.parse` — reading one.
-/
import MockServer.Text.Blank
import MockServer.Url.Host

namespace MockServer

/-- The part of a URL behind its host. -/
inductive UrlPath where
  | whole (text : List Char)
  | segments (items : List (List Char))
  deriving DecidableEq, Repr, Inhabited

/-- An absolute URL; every part is in its written form. -/
structure Url where
  scheme : List Char
  username : List Char
  password : List Char
  host : Option Url.Host
  port : Option Nat
  path : UrlPath
  query : Option (List Char)
  fragment : Option (List Char)
  deriving DecidableEq, Repr, Inhabited

namespace Url

/-! ## Writing -/

def pathText : UrlPath → List Char
  | .whole text => text
  | .segments items => items.flatMap ('/' :: ·)

/-- The text of a user name and a password. -/
def userText (u : Url) : List Char :=
  if u.username.isEmpty && u.password.isEmpty then []
  else u.username ++ (if u.password.isEmpty then [] else ':' :: u.password) ++ ['@']

def portText : Option Nat → List Char
  | none => []
  | some n => ':' :: Nat.toDigits 10 n

/-- The text of an optional part behind its mark. -/
def marked (mark : Char) : Option (List Char) → List Char
  | none => []
  | some text => mark :: text

/-- The text between the scheme and the path. -/
def authorityText (u : Url) : List Char :=
  match u.host with
  | none => []
  | some h => '/' :: '/' :: userText u ++ h.toText ++ portText u.port

/-- The text of a URL without its fragment. -/
def withoutFragment (u : Url) : List Char :=
  u.scheme ++ ':' :: authorityText u ++ pathText u.path ++ marked '?' u.query

def toText (u : Url) : String := String.ofList (withoutFragment u ++ marked '#' u.fragment)

/-! ## Schemes -/

/-- How the rest of a URL is understood. -/
inductive Kind where
  | common
  | file
  | other
  deriving DecidableEq, Repr

def defaultPorts : List (String × Nat) :=
  [("http", 80), ("https", 443), ("ws", 80), ("wss", 443), ("ftp", 21)]

def defaultPort? (scheme : List Char) : Option Nat := defaultPorts.lookup (String.ofList scheme)

/-- How the rest of a URL with a scheme is understood. -/
def kindOf (scheme : List Char) : Kind :=
  if scheme = "file".toList then .file
  else if (defaultPort? scheme).isSome then .common
  else .other

/-- May the character stand in a scheme behind its first letter? -/
def isSchemeChar (c : Char) : Bool := c.isAlphanum || c = '+' || c = '-' || c = '.'

/-- The scheme in lower case, and what follows its colon. -/
def scheme? (cs : List Char) : Option (List Char × List Char) :=
  match cs.span isSchemeChar with
  | (c :: name, ':' :: rest) =>
    if c.isAlpha then some ((c :: name).map Char.toLower, rest) else none
  | _ => none

/-! ## Encoded characters -/

def inFragmentSet (c : Char) : Bool := Host.isControl c || " \"<>\x60".toList.contains c

def inPathSet (c : Char) : Bool := inFragmentSet c || "#?\x7b\x7d".toList.contains c

/-- Characters encoded in a user name or a password. -/
def inUserSet (c : Char) : Bool := inPathSet c || "/:;=@[\\]^|".toList.contains c

/-- Characters encoded in a query; `isCommon` for the schemes of the web. -/
def inQuerySet (isCommon : Bool) (c : Char) : Bool :=
  Host.isControl c || " \"#<>".toList.contains c || (isCommon && c = '\'')

/-! ## Authority -/

def endsAuthority (kind : Kind) (c : Char) : Bool :=
  c = '/' || c = '?' || c = '#' || (kind ≠ .other && c = '\\')

/-- The user name, the password and the rest of an authority; the last `@` ends the user. -/
def user (authority : List Char) : Option (List Char) × List Char :=
  match Text.splitFirst '@' authority.reverse with
  | none => (none, authority)
  | some (behind, before) => (some before.reverse, behind.reverse)

/-- A user name and a password, encoded. -/
def credentials (cs : List Char) : List Char × List Char :=
  let (name, password) := (Text.splitFirst ':' cs).getD (cs, [])
  (percentEncode inUserSet name, percentEncode inUserSet password)

/-- The host and what follows it; a colon between square brackets does not end it. -/
def hostPart (inBrackets : Bool) : List Char → List Char × List Char
  | [] => ([], [])
  | c :: rest =>
    if c = ':' && !inBrackets then ([], c :: rest)
    else
      let inBrackets := if c = '[' then true else if c = ']' then false else inBrackets
      let (host, after) := hostPart inBrackets rest
      (c :: host, after)

/-- The port behind a host, unless it need not be written. -/
def readPort (scheme : List Char) : List Char → Except UrlError (Option Nat)
  | ':' :: ds =>
    if ds.all Char.isDigit then
      let n := Decimal.natOfDigits ds
      if n ≥ UInt16.size then .error .invalidPort
      else .ok (if ds.isEmpty || defaultPort? scheme = some n then none else some n)
    else .error .invalidPort
  | _ => .ok none

/-! ## Path -/

/-- A dot, plain or encoded, at the beginning of a text, and what follows it. -/
def afterDot? : List Char → Option (List Char)
  | '.' :: rest => some rest
  | '%' :: '2' :: 'e' :: rest | '%' :: '2' :: 'E' :: rest => some rest
  | _ => none

/-- Does the segment stand for the place where it is? -/
def isSingleDot (cs : List Char) : Bool := afterDot? cs == some []

/-- Does the segment stand for the place above? -/
def isDoubleDot (cs : List Char) : Bool := (afterDot? cs).bind afterDot? == some []

/-- Goes along the segments of a path with dots taken into account; `above` holds the segments so
far, the last one first. -/
def walk (above : List (List Char)) : List (List Char) → List (List Char)
  | [] => above.reverse
  | [last] =>
    -- a dot segment at the end leaves a slash behind
    if isDoubleDot last then ([] :: above.tail).reverse
    else if isSingleDot last then ([] :: above).reverse
    else (last :: above).reverse
  | s :: rest =>
    if isDoubleDot s then walk above.tail rest
    else if isSingleDot s then walk above rest
    else walk (s :: above) rest

/-- The segments of a path behind its first slash. -/
def segments (kind : Kind) (cs : List Char) : List (List Char) :=
  let cs := cs.map fun c => if kind ≠ .other && c = '\\' then '/' else c
  walk [] ((Text.splitOn '/' cs).map (percentEncode inPathSet))

/-- A path that begins with a slash, or is empty where the scheme allows it. -/
def structuredPath (kind : Kind) (cs : List Char) : UrlPath :=
  match cs with
  | [] => .segments (if kind = .other then [] else [[]])
  | c :: rest =>
    if c = '/' || (kind ≠ .other && c = '\\') then .segments (segments kind rest)
    else .segments (segments kind cs)

/-! ## Whole URLs -/

def cut (mark : Char) (cs : List Char) : List Char × Option (List Char) :=
  match Text.splitFirst mark cs with
  | none => (cs, none)
  | some (before, behind) => (before, some behind)

/-- What follows the path, and the path in front of it. -/
structure Tail where
  path : List Char
  query : Option (List Char)
  fragment : Option (List Char)

/-- Splits a text into path, query and fragment. -/
def tail (kind : Kind) (cs : List Char) : Tail :=
  let (cs, fragment) := cut '#' cs
  let (path, query) := cut '?' cs
  { path
    query := query.map (percentEncode (inQuerySet (kind ≠ .other)))
    fragment := fragment.map (percentEncode inFragmentSet) }

/-- Reads what follows the two slashes behind a scheme. -/
def withAuthority (scheme cs : List Char) : Except UrlError Url := do
  let kind := kindOf scheme
  let (authority, rest) := cs.span fun c => !endsAuthority kind c
  let (userPart, address) := user authority
  -- an `@` with nothing on either side
  if userPart = some [] && address.isEmpty && !rest.isEmpty then throw .emptyHost
  let (username, password) := (userPart.map credentials).getD ([], [])
  let (hostText, portText) := hostPart false address
  if kind = .common && hostText.isEmpty then throw .emptyHost
  let host ← if kind = .other then Host.parseOpaque hostText else Host.parse hostText
  -- another scheme may have no host, but then nothing beside it
  if hostText.isEmpty && (!portText.isEmpty || !username.isEmpty || !password.isEmpty) then
    throw .emptyHost
  let port ← readPort scheme portText
  let t := tail kind rest
  return {
    scheme
    username
    password
    host := some host
    port
    path := structuredPath kind t.path
    query := t.query
    fragment := t.fragment }

/-- Reads what follows the scheme of a file; only the local host has no name. -/
def ofFile (scheme cs : List Char) : Except UrlError Url := do
  let isSlash (c : Char) : Bool := c = '/' || c = '\\'
  let (host, rest) ← match cs with
    | a :: b :: more =>
      if isSlash a && isSlash b then
        let (hostText, rest) := more.span fun c => !endsAuthority .file c
        let host ← if hostText.isEmpty then pure (Host.name "") else Host.parse hostText
        pure (if host = .name "localhost" then Host.name "" else host, rest)
      else pure (Host.name "", cs)
    | cs => pure (Host.name "", cs)
  let t := tail .file rest
  return {
    scheme
    username := []
    password := []
    host := some host
    port := none
    path := structuredPath .file t.path
    query := t.query
    fragment := t.fragment }

/-- Reads what follows any other scheme without two slashes. -/
def withoutAuthority (scheme cs : List Char) : Url :=
  let t := tail .other cs
  { scheme
    username := []
    password := []
    host := none
    port := none
    path := match t.path with
      | '/' :: rest => .segments (segments .other rest)
      | path => .whole (percentEncode Host.isControl path)
    query := t.query
    fragment := t.fragment }

def parseChars (cs : List Char) : Except UrlError Url :=
  match scheme? cs with
  | none => .error .relative
  | some (scheme, rest) =>
    match kindOf scheme with
    -- any number of slashes may stand behind the scheme
    | .common => withAuthority scheme (rest.dropWhile fun c => c = '/' || c = '\\')
    | .file => ofFile scheme rest
    | .other =>
      match rest with
      | '/' :: '/' :: rest => withAuthority scheme rest
      | rest => .ok (withoutAuthority scheme rest)

/-- Is the character left out wherever it stands? -/
def isIgnored (c : Char) : Bool := c = '\t' || c = '\n' || c = '\r'

def parse (s : String) : Except UrlError Url :=
  parseChars ((Text.trimWhile (fun c => c ≤ ' ') s.toList).filter fun c => !isIgnored c)

end Url

end MockServer
