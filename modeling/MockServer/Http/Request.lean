/-
  MockServer.Http.Request — outgoing requests.

  A request is built from texts: the URL must be absolute, every header
  must have a legal name and value, and a later header replaces an
  earlier one of its name.  A user in the URL becomes an authorization
  header and leaves the URL; what names no user, because it is not text
  once it is decoded, stays where it is.

  Main definitions:
    * `Http.Request`, `Http.Request.build` — a request and its parts;
    * `Http.User` — who a request is made for;
    * `Http.RequestError` — why there is none.
-/
import MockServer.Header.Field
import MockServer.Http.Method
import MockServer.Text.Base64
import MockServer.Url.Basic

namespace MockServer.Http

/-- Why a request cannot be made. -/
inductive RequestError where
  /-- The text names no method. -/
  | method (text : String)
  /-- The text is no absolute URL. -/
  | url (text : String) (e : UrlError)
  /-- The text is no name of a header. -/
  | headerName (text : String)
  /-- The value of this header is not legal. -/
  | headerValue (name : String)
  /-- There is no client to send requests with. -/
  | client
  /-- The URL names no host. -/
  | hostless (url : Url)
  deriving DecidableEq, Repr

def RequestError.message : RequestError → String
  | .method text => "Invalid HTTP method: " ++ Method.unknown text
  | .url text e => "Invalid URL: " ++ text ++ ": " ++ e.message
  | .headerName text => "Invalid header name: " ++ text
  | .headerValue name => "Invalid header value for " ++ name
  | .client => "Network error: builder error"
  | .hostless u => "Network error: builder error for url (" ++ u.toText ++ ")"

/-- An outgoing request; header names are in lower case. -/
structure Request where
  method : Method
  url : Url
  headers : Header.Fields
  body : String
  deriving DecidableEq, Repr

/-- Who a request is made for. -/
structure User where
  name : List Char
  password : Option (List Char)
  deriving DecidableEq, Repr

namespace User

/-- The value of an authorization header for a user. -/
def authorization (x : User) : String :=
  "Basic " ++ String.ofList
    (Text.Base64.encode (Text.Utf8.encode (x.name ++ ':' :: x.password.getD [])))

/-- The user that a URL names: somebody with a name, a password or both.  A name that is not text
once it is decoded names nobody; such a password is none. -/
def ofUrl? (u : Url) : Option User :=
  match Url.decodeText? u.username with
  | none => none
  | some name =>
    let password := if u.password.isEmpty then none else Url.decodeText? u.password
    if name.isEmpty && password.isNone then none else some { name, password }

end User

namespace Request

/-- The authorization header that stands for the user of a URL. -/
def userFields (u : Url) : Header.Fields :=
  match User.ofUrl? u with
  | none => []
  | some user => [.ofText "authorization" user.authorization]

/-- A URL without the user that it names. -/
def withoutUser (u : Url) : Url :=
  if (User.ofUrl? u).isSome then { u with username := [], password := [] } else u

/-- Sets headers in order, up to the first that is not legal. -/
def setHeaders : Header.Fields → List (String × String) → Except RequestError Header.Fields
  | fs, [] => .ok fs
  | fs, (name, value) :: rest =>
    let bytes := Text.Utf8.ofString value
    if !Header.isName name then .error (.headerName name)
    else if !Header.isValue bytes then .error (.headerValue name)
    else setHeaders (fs.replace (Text.lower name) bytes) rest

/-- The request of a method, a URL, headers and a body. -/
def build (method : Method) (url : String) (headers : List (String × String)) (body : String) :
    Except RequestError Request :=
  match Url.parse url with
  | .error e => .error (.url url e)
  | .ok u =>
    match setHeaders (userFields u) headers with
    | .error e => .error e
    | .ok fs =>
      .ok { method, url := withoutUser u, headers := fs, body }

end Request

end MockServer.Http
