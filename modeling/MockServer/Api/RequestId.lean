/-
  MockServer.Api.RequestId — one mark from the first server to the last.

  The mark of a request is the first one that came with it, if it can be
  shown and has from 1 to 128 characters without the blanks around it;
  otherwise it is a fresh identifier.  What handles the request sees the
  mark as the only one, and so does who gets the response.
-/
import MockServer.Api.Message

namespace MockServer.Api

namespace RequestId

def headerName : String := "x-request-id"

def maxLength : Nat := 128

/-- The mark in the value of a header, if it can be one. -/
def ofValue? (value : List UInt8) : Option RequestId :=
  ((Header.visibleText? value).map Text.trim).bind fun text =>
    if text.isEmpty || maxLength < text.length then none else some ⟨text⟩

/-- The mark of a request with these headers. -/
def choose (fresh : Uuid) (headers : Header.Fields) : RequestId :=
  ((headers.first? headerName).bind ofValue?).getD ⟨fresh.toText⟩

def bytes (id : RequestId) : List UInt8 := Text.Utf8.ofString id.text

/-- Headers with the mark as the only one; a mark that no header can have leaves them alone. -/
def mark (id : RequestId) (headers : Header.Fields) : Header.Fields :=
  if Header.isValue id.bytes then headers.replace headerName id.bytes else headers

def attach (id : RequestId) (r : Request) : Request :=
  { r with headers := id.mark r.headers, requestId := some id }

def echo (id : RequestId) (r : Response) : Response := { r with headers := id.mark r.headers }

def around {α : Type} (fresh : Uuid) (handle : Request → Response × α) (r : Request) :
    Response × α :=
  let id := choose fresh r.headers
  let (response, rest) := handle (id.attach r)
  (id.echo response, rest)

/-- The mark that a handler finds on a request, or a fresh one. -/
def found (fresh : Uuid) (r : Request) : RequestId := r.requestId.getD ⟨fresh.toText⟩

end RequestId

end MockServer.Api
