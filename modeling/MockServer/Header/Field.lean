/-
  MockServer.Header.Field — header fields of requests and responses.

  A name is a non-empty token and is compared up to ASCII case; a value
  is a sequence of bytes without control characters other than tab.  A
  value is shown as a text only if all its bytes are printable ASCII or
  tabs.
-/
import MockServer.Text.Case
import MockServer.Text.Utf8

namespace MockServer.Header

/-- A header field. -/
structure Field where
  name : String
  value : List UInt8
  deriving DecidableEq, Repr, Inhabited

def isTokenChar (c : Char) : Bool :=
  c.isAlphanum || "!#$%&'*+-.^_`|~".toList.contains c

def isName (name : String) : Bool := !name.isEmpty && name.toList.all isTokenChar

def isValueByte (b : UInt8) : Bool := (32 ≤ b && b != 127) || b == 9

def isValue (value : List UInt8) : Bool := value.all isValueByte

/-- Is the byte printable ASCII or a tab? -/
def isVisible (b : UInt8) : Bool := (32 ≤ b && b < 127) || b == 9

/-- A value as a text, if all of it can be shown. -/
def visibleText? (value : List UInt8) : Option String :=
  if value.all isVisible then some (String.ofList (value.map fun b => Char.ofNat b.toNat)) else none

/-- A field with a text as its value. -/
def Field.ofText (name value : String) : Field := ⟨name, Text.Utf8.ofString value⟩

/-- A list of fields in the order in which they were added. -/
abbrev Fields := List Field

namespace Fields

def first? (fs : Fields) (name : String) : Option (List UInt8) :=
  (fs.find? fun f => Text.sameFold f.name name).map Field.value

def without (fs : Fields) (name : String) : Fields := fs.filter fun f => !Text.sameFold f.name name

/-- The fields with one value for a name; it takes the place of the first one there was. -/
def replace (fs : Fields) (name : String) (value : List UInt8) : Fields :=
  match fs with
  | [] => [⟨name, value⟩]
  | f :: rest =>
    if Text.sameFold f.name name then ⟨name, value⟩ :: without rest name
    else f :: replace rest name value

end Fields

end MockServer.Header
