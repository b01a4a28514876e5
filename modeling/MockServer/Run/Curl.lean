/-
  MockServer.Run.Curl — steps given as `curl` commands.

  Only the parts of a command line that describe a request count: the
  address, the method (`-X`, `--request`), headers (`-H`, `--header`)
  and data (`-d`, `--data`, `--data-raw`, `--data-binary`).  The line is
  brought to single blanks first, and each part is then searched for on
  its own, from the left, so text inside quotes can be taken for a
  flag.

  Main definitions:
    * `CurlCommand` — the request that a command describes;
    * `CurlCommand.parse?` — reading one;
    * `CurlCommand.render` — writing one.
-/
import MockServer.Dict
import MockServer.Text.Blank
import MockServer.Text.Split

namespace MockServer.Run

/-- The request that a command describes. -/
structure CurlCommand where
  url : String
  method : String
  headers : Dict String
  body : String
  deriving DecidableEq, Repr, Inhabited

/-- Why a command describes no request. -/
inductive CurlError where
  | empty
  | withoutUrl
  deriving DecidableEq, Repr

def CurlError.message : CurlError → String
  | .empty => "empty curl command"
  | .withoutUrl => "could not extract URL from curl command"

namespace Curl

/-! ## The command line -/

/-- Is it a command rather than an address? -/
def isCommand (path : String) : Bool :=
  let cs := Text.trimChars path.toList
  (Text.after? "curl ".toList cs).isSome || (Text.after? "curl\t".toList cs).isSome

/-- The line without the backslashes that continue it. -/
def joinLines : List Char → List Char
  | '\\' :: '\n' :: rest => '\n' :: joinLines rest
  | '\\' :: '\r' :: '\n' :: rest => '\n' :: joinLines rest
  | c :: rest => c :: joinLines rest
  | [] => []

/-- One blank for every run of blanks; `afterBlank` if a blank was just written. -/
def squeeze (afterBlank : Bool) : List Char → List Char
  | [] => []
  | c :: rest =>
    if Text.isBlank c then
      if afterBlank then squeeze true rest else ' ' :: squeeze true rest
    else c :: squeeze false rest

/-- The command on one line with single blanks. -/
def oneLine (cs : List Char) : List Char := Text.trimChars (squeeze false (joinLines cs))

/-! ## Searching -/

/-- The first place at which a reader succeeds. -/
def search {α : Type} (read : List Char → Option α) : List Char → Option α
  | [] => read []
  | c :: cs => (read (c :: cs)).orElse fun _ => search read cs

/-- What a reader finds from left to right, going on behind each find; `skip` characters belong
to the last one. -/
def searchAll {α : Type} (read : List Char → Option (α × List Char)) :
    Nat → List Char → List α
  | _, [] => []
  | skip + 1, _ :: cs => searchAll read skip cs
  | 0, c :: cs =>
    match read (c :: cs) with
    | some (x, rest) => x :: searchAll read (cs.length - rest.length) cs
    | none => searchAll read 0 cs

/-- The rest behind one of several words and a blank. -/
def afterFlag? (words : List String) (cs : List Char) : Option (List Char) :=
  words.findSome? fun w => Text.after? (w.toList ++ [' ']) cs

def isQuote (c : Char) : Bool := c = '"' || c = '\''

/-- The non-empty text up to the next quote of a kind, and what follows the quote. -/
def upTo? (isEnd : Char → Bool) (cs : List Char) : Option (List Char × List Char) :=
  match cs.span fun c => !isEnd c with
  | ([], _) | (_, []) => none
  | (inner, _ :: rest) => some (inner, rest)

/-- The text between quotes of either kind, and what follows. -/
def quoted? : List Char → Option (List Char × List Char)
  | c :: rest => if isQuote c then upTo? isQuote rest else none
  | [] => none

/-! ## Parts of a request -/

/-- The rest behind the word `curl` and the flag that follows redirects. -/
def afterCurl? (cs : List Char) : Option (List Char) :=
  (Text.after? "curl ".toList cs).map fun rest =>
    match Text.after? "--location ".toList rest with
    | some rest => rest
    | none => rest

def firstWord? (cs : List Char) : Option (List Char) :=
  match cs.takeWhile (· ≠ ' ') with
  | [] => none
  | w => some w

def isWebAddress (cs : List Char) : Bool :=
  (Text.after? "http://".toList cs).isSome || (Text.after? "https://".toList cs).isSome

/-- The address: quoted behind `curl`, else the word behind `curl`, and if that is a flag the
first word that is a web address. -/
def url? (line : List Char) : Option (List Char) :=
  match search (fun cs => (afterCurl? cs).bind quoted?) line with
  | some (url, _) => some url
  | none =>
    match search (fun cs => (afterCurl? cs).bind firstWord?) line with
    | none => none
    -- a flag comes first, so the address is searched for in the whole line
    | some ('-' :: _) =>
      ((Text.splitOn ' ' line).map (Text.trimWhile isQuote)).find? isWebAddress
    | some word => some word

/-- The method behind its flag, in capital letters and possibly quoted. -/
def methodFlag? (cs : List Char) : Option (List Char) :=
  (afterFlag? ["-X", "--request"] cs).bind fun rest =>
    let rest := match rest with
      | c :: more => if isQuote c then more else rest
      | [] => []
    match rest.takeWhile Char.isUpper with
    | [] => none
    | m => some m

/-- The method: the one named, else that of a request with data or without. -/
def method (line : List Char) : List Char :=
  match search methodFlag? line with
  | some m => m
  | none =>
    if Text.occurs "--data".toList line || Text.occurs "-d ".toList line then "POST".toList
    else "GET".toList

def headerFlag? (cs : List Char) : Option (List Char × List Char) :=
  (afterFlag? ["-H", "--header"] cs).bind quoted?

/-- The name and the value of a header; nothing if the name is blank. -/
def headerOf? (cs : List Char) : Option (String × String) :=
  match Text.splitFirst ':' cs with
  | none => none
  | some (name, value) =>
    match Text.trimChars name with
    | [] => none
    | name => some (String.ofList name, String.ofList (Text.trimChars value))

/-- The headers; of a repeated name the last one counts. -/
def headers (line : List Char) : Dict String :=
  .ofList ((searchAll headerFlag? 0 line).filterMap headerOf?)

def dataFlags : List String := ["--data-raw", "--data-binary", "--data", "-d"]

def quotedData? (quote : Char) (cs : List Char) : Option (List Char) :=
  match afterFlag? dataFlags cs with
  | some (c :: rest) => if c = quote then (upTo? (· = quote) rest).map Prod.fst else none
  | _ => none

/-- Data between braces, which belong to it. -/
def bracedData? (cs : List Char) : Option (List Char) :=
  match afterFlag? dataFlags cs with
  | some ('\x7b' :: rest) =>
    (upTo? (· = '\x7d') rest).map fun (inner, _) => '\x7b' :: inner ++ ['\x7d']
  | _ => none

/-- The data: in single quotes, else in double quotes, else in braces. -/
def body (line : List Char) : List Char :=
  ((search (quotedData? '\'') line).or
    ((search (quotedData? '"') line).or (search bracedData? line))).getD []

end Curl

namespace CurlCommand

def parse? (command : String) : Except CurlError CurlCommand :=
  if command.isEmpty then .error .empty
  else
    let line := Curl.oneLine command.toList
    match Curl.url? line with
    | none => .error .withoutUrl
    | some url =>
      .ok {
        url := String.ofList url
        method := String.ofList (Curl.method line)
        headers := Curl.headers line
        body := String.ofList (Curl.body line) }

/-- A request written as a command; quotes inside it stay as they are. -/
def render (method url : String) (headers : List (String × String)) (body : String) : String :=
  " ".intercalate (["curl", "'" ++ url ++ "'", "-X " ++ method] ++
    headers.map (fun h => "-H '" ++ h.1 ++ ": " ++ h.2 ++ "'") ++
    (if body.isEmpty then [] else ["-d '" ++ body ++ "'"]))

end CurlCommand

end MockServer.Run
