/-
  MockServer.Json.Path — places in a document.

  A path is a list of segments between dots; a backslash takes the next
  character literally.  A segment names a member of an object or counts
  to an item of an array.  The segment `#` of an array is its length,
  and with more segments behind it the array of what they find in the
  items.
-/
import MockServer.Json.Build
import MockServer.Json.Parser
import MockServer.Text.Split

namespace MockServer.Json.Path

def parse : List Char → List (List Char)
  | [] => [[]]
  | '\\' :: c :: rest => Text.consFirst c (parse rest)
  | ['\\'] => [[]]
  | '.' :: rest => [] :: parse rest
  | c :: rest => Text.consFirst c (parse rest)

/-- The digits of a number without its plus sign. -/
def unsigned : List Char → List Char
  | '+' :: cs => cs
  | cs => cs

def index? (segment : List Char) : Option Nat :=
  let digits := unsigned segment
  if !digits.isEmpty && digits.all Char.isDigit then some (Decimal.natOfDigits digits) else none

def find? : List (List Char) → Json → Option Json
  | [], v => some v
  | ['#'] :: rest, .arr items =>
    if rest.isEmpty then some (.nat items.length)
    else some (.arr (items.filterMap (find? rest)))
  -- a segment into a list is an index
  | segment :: rest, .arr items => do
    let i ← index? segment
    let item ← items[i]?
    find? rest item
  | segment :: rest, .obj members => do
    let v ← (Json.obj members).member? (String.ofList segment)
    find? rest v
  | _ :: _, _ => none

/-- What is at a place written as a text. -/
def get? (v : Json) (path : String) : Option Json := find? (parse path.toList) v

end MockServer.Json.Path
