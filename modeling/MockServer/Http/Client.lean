/-
  MockServer.Http.Client — the client that sends the requests of load
  tests.

  A client introduces itself by a name, which must be the legal value
  of a header; settings with another name make no client.  A request
  made with a client is checked part by part: the client, the method,
  the URL, the headers in order, and last that the URL names a host.
-/
import MockServer.Config.Basic
import MockServer.Http.Request

namespace MockServer

/-- Can a client be made with these settings? -/
def Config.Client.isUsable (x : Config.Client) : Bool :=
  Header.isValue (Text.Utf8.ofString x.userAgent)

namespace Http

/-- The request that a client with some settings makes of texts. -/
def Request.make (x : Config.Client) (method url : String) (headers : List (String × String))
    (body : String) : Except RequestError Request :=
  if !x.isUsable then .error .client
  else
    match Method.parseOrDefault? method with
    | none => .error (.method (Text.trim method))
    | some method =>
      match build method url headers body with
      | .error e => .error e
      | .ok r => if r.url.host.isSome then .ok r else .error (.hostless r.url)

end Http

end MockServer
