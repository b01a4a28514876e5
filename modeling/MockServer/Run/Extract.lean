/-
  MockServer.Run.Extract — variables taken from a response.

  A source that begins with `header.` names a header of the response;
  any other source is a place in its body, read as JSON.  A source that
  leads to nothing leaves its variable as it was.
-/
import MockServer.Header.Field
import MockServer.Json.Path
import MockServer.Json.Printer

namespace MockServer.Run.Extract

/-- The beginning of a source that names a header. -/
def headerStart : List Char := "header.".toList

/-- What is kept of a value: a text itself, anything else as compact JSON. -/
def kept : Json → String
  | .str s => s
  | v => v.compact

/-- The value of a header that can be shown and is not empty. -/
def fromHeader? (headers : Header.Fields) (name : String) : Option String :=
  ((headers.first? name).bind Header.visibleText?).filter fun v => !v.isEmpty

def find? (headers : Header.Fields) (body : Option Json) (source : String) : Option String :=
  match Text.after? headerStart source.toList with
  | some name => fromHeader? headers (String.ofList name)
  | none => (body.bind fun v => Json.Path.get? v source).map kept

/-- Sets one variable, if it has a name and its source leads to a value. -/
def setOne (headers : Header.Fields) (body : Option Json) (scope : Dict String)
    (directive : String × String) : Dict String :=
  if directive.1.isEmpty || directive.2.isEmpty then scope
  else
    match find? headers body directive.2 with
    | some value => scope.insert directive.1 value
    | none => scope

/-- Sets the variables that a response has values for. -/
def set (directives : Dict String) (headers : Header.Fields) (body : String)
    (scope : Dict String) : Dict String :=
  directives.entries.foldl (setOne headers (Json.value? body)) scope

end MockServer.Run.Extract
