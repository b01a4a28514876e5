/-
  MockServer.Api.Cors — requests from the pages of other sites.

  A browser asks with the method `OPTIONS` whether a page may send a
  request; that question is answered here and never handled.  Every
  other response is told which pages may read it, and that the mark of
  the request may be read.
-/
import MockServer.Api.RequestId
import MockServer.Config.Basic

namespace MockServer.Api

namespace Cors

/-- The headers that an answer to a browser depends on. -/
def varying : Header.Fields :=
  [.ofText "vary" "origin, access-control-request-method, access-control-request-headers"]

/-- The pages that may read a response to this request. -/
def allowedOrigin (x : Config.Cors) (r : Request) : Header.Fields :=
  let name := "access-control-allow-origin"
  if x.allowedOrigins.contains "*" then [.ofText name "*"]
  else
    let origins := (x.allowedOrigins.map Text.Utf8.ofString).filter Header.isValue
    match r.headers.first? "origin" with
    | some origin => if origins.contains origin then [⟨name, origin⟩] else []
    | none => []

/-- The answer to the question of a browser. -/
def permission (x : Config.Cors) (r : Request) : Response :=
  { status := 200
    headers := allowedOrigin x r ++ varying ++
      [.ofText "access-control-allow-methods" "*", .ofText "access-control-allow-headers" "*",
       .ofText "access-control-max-age" (Nat.repr x.maxAge.toNat)]
    body := "" }

def setAll (fields : Header.Fields) (headers : Header.Fields) : Header.Fields :=
  fields.foldl (fun hs f => hs.replace f.name f.value) headers

/-- The response with what a browser has to know. -/
def extend (x : Config.Cors) (r : Request) (response : Response) : Response :=
  let shown : Header.Fields := [.ofText "access-control-expose-headers" RequestId.headerName]
  -- what a handler says on `vary` stays beside this, the rest replaces it
  { response with headers := setAll (allowedOrigin x r ++ shown) (response.headers ++ varying) }

/-- Handles a request unless it is the question of a browser. -/
def around {α : Type} (x : Config.Cors) (handle : Request → α → Response × α) (r : Request)
    (s : α) : Response × α :=
  if r.method = "OPTIONS" then (permission x r, s)
  else
    let (response, s) := handle r s
    (extend x r response, s)

end Cors

end MockServer.Api
