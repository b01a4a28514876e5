/-
  MockServer.Config.Fault — what can be wrong with a setting, and the
  single checks that say so.

  A check of one value either passes or names the fault; the sections
  of a configuration are checked by such checks in order, and the first
  fault counts.
-/
import MockServer.Decimal.Shortest
import MockServer.Files
import MockServer.Json.Printer
import MockServer.Text.Blank
import MockServer.Text.Case
import MockServer.Url.Basic

namespace MockServer.Config

/-! ## Faults -/

/-- What is wrong with a setting. -/
inductive Fault where
  /-- A text says nothing. -/
  | blank (setting : String)
  /-- A number of a port is zero. -/
  | zeroPort (setting : String)
  /-- A number is zero or less. -/
  | notPositive (setting : String) (value : JsonNumber)
  /-- A text is no absolute URL. -/
  | url (setting : String) (e : UrlError)
  /-- A text is none of the choices there are. -/
  | choice (setting value : String) (choices : List String)
  /-- The routes of the interface do not start at the root. -/
  | unrooted (value : String)
  /-- The file of fixtures has no known extension. -/
  | fixtureKind (path : String)
  /-- More redirects are followed than can be. -/
  | redirects
  /-- A log directive says nothing. -/
  | blankDirective
  /-- There is white space in a log directive. -/
  | brokenDirective (directive : String)
  deriving DecidableEq, Repr

def plainNumber : JsonNumber → String
  | .int n => String.ofList (Json.integer n)
  | .float x => String.ofList (Decimal.Layout.plain.render x)

def Fault.message : Fault → String
  | .blank setting => setting ++ " cannot be empty"
  | .zeroPort setting => setting ++ " cannot be 0"
  | .notPositive setting value => setting ++ " must be greater than 0, got " ++ plainNumber value
  | .url setting e => setting ++ " has invalid URL format: " ++ e.message
  | .choice setting value choices =>
    setting ++ " has invalid value '" ++ value ++ "'. Valid choices: " ++ ", ".intercalate choices
  | .unrooted value => "api_prefix must start with '/', got '" ++ value ++ "'"
  | .fixtureKind path =>
    "fixtures_path must point to a .yaml, .yml or .json file, got '" ++ path ++ "'"
  | .redirects => "max_redirects cannot exceed 100"
  | .blankDirective => "log directives cannot be empty"
  | .brokenDirective directive =>
    "log directive '" ++ directive ++ "' must not contain whitespace"

/-! ## Checks -/

/-- Passes a value that is as it should be. -/
def ensure (holds : Bool) (otherwise : Fault) : Except Fault Unit :=
  if holds then .ok () else .error otherwise

def isPositive : JsonNumber → Bool
  | .int n => 0 < n
  | .float x => !x.neg && x.mant != 0

def checkText (setting value : String) : Except Fault Unit :=
  ensure (!Text.isBlankText value) (.blank setting)

def checkPort (setting : String) (value : UInt16) : Except Fault Unit :=
  ensure (value != 0) (.zeroPort setting)

def checkPositive (setting : String) (value : JsonNumber) : Except Fault Unit :=
  ensure (isPositive value) (.notPositive setting value)

def checkUrl (setting value : String) : Except Fault Unit :=
  if value.isEmpty then .error (.blank setting)
  else match Url.parse value with
    | .ok _ => .ok ()
    | .error e => .error (.url setting e)

/-- One of some choices, up to the case of ASCII letters. -/
def checkChoice (setting value : String) (choices : List String) : Except Fault Unit :=
  ensure (choices.any fun c => Text.sameFold c value) (.choice setting value choices)

end MockServer.Config
