/-
  MockServer.Config.Environment — settings that environment variables
  override.

  A variable is named by a common beginning, an underscore and a name of
  its own.  Each variable sets one setting; they are looked at in a
  fixed order, and the first whose value makes no sense is reported.
  Numbers and truth values may have blanks around them.
-/
import MockServer.Config.Basic
import MockServer.Decimal.Numeral
import MockServer.Text.Blank

namespace MockServer.Config

/-! ## Values -/

/-- Why the value of a variable makes no sense. -/
inductive ValueError where
  | empty
  | digit
  | range
  | truth
  | name (value : String)
  deriving DecidableEq, Repr

def ValueError.message : ValueError → String
  | .empty => "cannot parse integer from empty string"
  | .digit => "invalid digit found in string"
  | .range => "number too large to fit in target type"
  | .truth => "provided string was not \x60true\x60 or \x60false\x60"
  | .name value => value

/-- Reads digits on from a number; the first character that is no digit, or makes the number too
large, is the fault. -/
def digitsBelow (bound : Nat) : Nat → List Char → Except ValueError Nat
  | n, [] => .ok n
  | n, c :: rest =>
    if !c.isDigit then .error .digit
    else
      let next := n * 10 + Decimal.digitValue c
      if next < bound then digitsBelow bound next rest else .error .range

/-- A natural number below a bound, with an optional plus sign. -/
def natBelow (bound : Nat) : List Char → Except ValueError Nat
  | [] => .error .empty
  -- a lone sign is a character that is no digit
  | ['+'] => .error .digit
  | '+' :: ds => digitsBelow bound 0 ds
  | ds => digitsBelow bound 0 ds

def uint16Value (value : String) : Except ValueError UInt16 :=
  (natBelow UInt16.size (Text.trimChars value.toList)).map UInt16.ofNat

def uint64Value (value : String) : Except ValueError UInt64 :=
  (natBelow UInt64.size (Text.trimChars value.toList)).map UInt64.ofNat

def boolValue (value : String) : Except ValueError Bool :=
  match Text.trim value with
  | "true" => .ok true
  | "false" => .ok false
  | _ => .error .truth

/-- A value that must be known by name. -/
def namedValue {α : Type} (parse? : String → Option α) (value : String) : Except ValueError α :=
  match parse? value with
  | some x => .ok x
  | none => .error (.name value)

/-! ## Variables -/

/-- A variable: its name, and what its value does to the settings. -/
structure Variable where
  name : String
  set : String → Config → Except ValueError Config

def Variable.of {α : Type} (name : String) (read : String → Except ValueError α)
    (put : α → Config → Config) : Variable :=
  ⟨name, fun value x => (read value).map fun v => put v x⟩

/-- The variables in the order in which they are looked at. -/
def Variable.all : List Variable := [
  .of "SERVER_BIND_ADDRESS" .ok fun v x => { x with server.bindAddress := v },
  .of "SERVER_PORT" uint16Value fun v x => { x with server.port := v },
  .of "SERVER_API_PREFIX" .ok fun v x => { x with server.apiPrefix := v },
  .of "CACHE_ENABLED" boolValue fun v x => { x with cache.enabled := v },
  .of "CACHE_TTL" uint64Value fun v x => { x with cache.ttl := if v = 0 then none else some v },
  .of "CACHE_MAX_CAPACITY" uint64Value fun v x => { x with cache.maxCapacity := v },
  .of "FIXTURES_PATH" .ok fun v x =>
    { x with storage.fixturesPath := if Text.isBlankText v then none else some v },
  .of "HTTP_TIMEOUT" uint64Value fun v x => { x with http.timeout := v },
  .of "HTTP_USER_AGENT" .ok fun v x => { x with http.userAgent := v },
  .of "HTTP_VERIFY_SSL" boolValue fun v x => { x with http.verifySsl := v },
  .of "LOG_LEVEL" (namedValue Log.Level.parse?) fun v x => { x with logging.level := v },
  .of "LOG_FORMAT" (namedValue Log.Format.parse?) fun v x => { x with logging.format := v },
  .of "LOADTEST_RETRY_INTERVAL_MS" uint64Value fun v x => { x with loadtest.retryInterval := v },
  .of "LOADTEST_MAX_CONCURRENCY" uint64Value fun v x => { x with loadtest.maxConcurrency := v }]

/-- The variables of a process whose names have a common beginning. -/
structure Environment where
  values : Dict String
  beginning : String := "MOCKTOOL"
  deriving DecidableEq, Repr, Inhabited

namespace Environment

def nameOf (env : Environment) (v : Variable) : String := env.beginning ++ "_" ++ v.name

def get? (env : Environment) (v : Variable) : Option String := env.values.get? (env.nameOf v)

/-- Sets what some variables say, in order; a value that makes no sense is reported with the name
of its variable. -/
def override (env : Environment) :
    List Variable → Config → Except (String × ValueError) Config
  | [], x => .ok x
  | v :: rest, x =>
    match env.get? v with
    | none => override env rest x
    | some value =>
      match v.set value x with
      | .ok x => override env rest x
      | .error e => .error (v.name, e)

end Environment

end MockServer.Config
