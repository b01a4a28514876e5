/-
  MockServer.Log.Level — how much is logged, and in which form.

  Settings name a level or a form exactly.  A name given by hand may be
  in any case, and there `warning` is a second name for `warn`; no
  letter outside ASCII folds into one of these names.
-/
import MockServer.Text.Case

namespace MockServer.Log

/-! ## Levels -/

/-- The least severe event that is logged. -/
inductive Level where
  | error | warn | info | debug | trace
  deriving DecidableEq, Repr, Inhabited

namespace Level

def name : Level → String
  | error => "error"
  | warn => "warn"
  | info => "info"
  | debug => "debug"
  | trace => "trace"

def named : List (String × Level) := [error, warn, info, debug, trace].map fun l => (l.name, l)

/-- The level of a name given by hand. -/
def parse? (s : String) : Option Level :=
  let s := Text.lower s
  if s = "warning" then some warn else named.lookup s

/-- What is said of a text that names no level. -/
def unknown (s : String) : String := "Invalid log level: " ++ s

end Level

/-! ## Formats -/

/-- The form of the log. -/
inductive Format where
  | json | text | compact | pretty
  deriving DecidableEq, Repr, Inhabited

namespace Format

def name : Format → String
  | json => "json"
  | text => "text"
  | compact => "compact"
  | pretty => "pretty"

def named : List (String × Format) := [json, text, compact, pretty].map fun f => (f.name, f)

/-- The form of a name given by hand. -/
def parse? (s : String) : Option Format := named.lookup (Text.lower s)

/-- What is said of a text that names no form. -/
def unknown (s : String) : String := "Invalid log format: " ++ s

end Format

end MockServer.Log
