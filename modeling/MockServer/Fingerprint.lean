/-
  MockServer.Fingerprint — one digest for all spellings of a body.

  A mock and a request meet when their bodies have the same
  fingerprint.  The body of a JSON object is brought to a canonical
  text first: members ordered by name at every depth, no blanks, and
  every number spelled by its value, so `100`, `100.0` and `1e2` are
  one number.  Anything that is not an object is taken as it stands.

  Main definitions:
    * `canonicalText` — the canonical text of a document;
    * `ofBody` — the fingerprint of the bytes of a request;
    * `ofValue` — the fingerprint of a declared input.
-/
import MockServer.Digest.Sha256
import MockServer.Json.Parser
import MockServer.Json.Printer

namespace MockServer.Fingerprint

open Decimal

def double : JsonNumber → Binary64
  | .int n => Binary64.ofInt n
  | .float x => x

/-- The whole numbers up to this magnitude are spelled as integers. -/
def maxExact : Nat := Nat.pow 2 53

/-- A number by its value as a double: an integer up to `2^53`, else the text of the double. -/
def canonicalNumber (n : JsonNumber) : List Char :=
  let x := double n
  match x.toInt? with
  -- beyond that not every integer is a double
  | some k => if k.natAbs ≤ maxExact then Json.integer k else Json.floatLayout.render x
  | none => Json.floatLayout.render x

def canonicalText (v : Json) : String :=
  String.ofList (Json.write canonicalNumber v.settle)

def ofText (s : String) : String := Digest.Sha256.hexDigest (Text.Utf8.ofString s)

/-- The fingerprint of the body of a request: empty for an empty body, of the canonical text for a
JSON object, of the bytes themselves for any other body. -/
def ofBody (bytes : List UInt8) : String :=
  if bytes.isEmpty then ""
  else match Json.parseBytes? bytes with
    | some (.obj members) => ofText (canonicalText (.obj members))
    | _ => Digest.Sha256.hexDigest bytes

/-- The fingerprint of a declared input: empty for null, of the canonical text for an object, of
the compact text for any other value. -/
def ofValue : Json → String
  | .null => ""
  | .obj members => ofText (canonicalText (.obj members))
  | v => ofText v.settle.compact

end MockServer.Fingerprint
