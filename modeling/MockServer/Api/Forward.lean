/-
  MockServer.Api.Forward — forwarded requests and the responses of mocks.

  What is left of the path is taken with one slash at its front.  The
  account and the feature come from headers.  The headers of a mock are
  set in order on its response; one that has no legal name or value is
  left out.
-/
import MockServer.Api.Message
import MockServer.Resolve.Basic

namespace MockServer.Api.Forward

/-- The forwarded request behind a request, for what is left of its path. -/
def request (mode : Resolve.Mode) (path : String) (r : Request) : Resolve.Request :=
  { mode
    path := String.ofList ('/' :: path.toList.dropWhile (· == '/'))
    query := r.target.query
    method := r.method
    body := r.body
    account := r.header? "x-account-id"
    feature := r.header? "x-feature-name" }

/-- Sets the headers of a mock that are legal. -/
def setHeaders : List (String × String) → Header.Fields → Header.Fields
  | [], fs => fs
  | (name, value) :: rest, fs =>
    let bytes := Text.Utf8.ofString value
    if Header.isName name && Header.isValue bytes then
      setHeaders rest (fs.replace (Text.lower name) bytes)
    else setHeaders rest fs

def render (x : Resolve.Response) : Response := ⟨200, setHeaders x.headers [], x.body⟩

def answer (mode : Resolve.Mode) (path : String) (r : Request) (s : Service) :
    Response × Service :=
  match Resolve.resolve s (request mode path r) .zero with
  | (.ok x, s) => (render x, s)
  | (.error e, s) => fail (.resolve e) s

end MockServer.Api.Forward
