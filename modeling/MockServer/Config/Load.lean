/-
  MockServer.Config.Load — settings from a file and the environment.

  A file whose extension is `json` holds JSON, any other YAML.  The
  environment overrides what the file says, and the result is checked
  as a whole; so a variable can mend a fault of the file.
-/
import MockServer.Config.Check
import MockServer.Config.Environment
import MockServer.Yaml.Node

namespace MockServer

/-- Why settings cannot be loaded. -/
inductive ConfigError where
  /-- The file cannot be read. -/
  | file (e : FileError)
  /-- The text is no settings in YAML. -/
  | yaml
  /-- The text is no settings in JSON. -/
  | json
  /-- The value of a variable makes no sense. -/
  | variable (name : String) (e : Config.ValueError)
  /-- A setting is not accepted. -/
  | setting (domain : String) (fault : Config.Fault)
  deriving DecidableEq, Repr

def ConfigError.message : ConfigError → String
  | .file e => "Failed to read config file: " ++ e.message
  | .yaml => "Failed to parse config"
  | .json => "Failed to parse JSON"
  | .variable name e => "Environment variable error: Invalid " ++ name ++ ": " ++ e.message
  | .setting domain fault =>
    "Domain configuration error in " ++ domain ++ ": " ++ fault.message

namespace Config

def ofJsonText (text : String) : Except ConfigError Config :=
  match (Document.ofJsonText? text).bind ofDocument? with
  | some x => .ok x
  | none => .error .json

def ofYamlText (text : String) : Except ConfigError Config :=
  match (Document.ofYamlText? text).bind ofDocument? with
  | some x => .ok x
  | none => .error .yaml

def ofFile (files : Files) (path : String) : Except ConfigError Config :=
  match files.read path with
  | .error e => .error (.file e)
  -- the extension counts letter by letter: `JSON` is not `json`
  | .ok text => if FileName.extension? path = some "json" then ofJsonText text else ofYamlText text

def checked (x : Config) : Except ConfigError Config :=
  match x.check with
  | .ok () => .ok x
  | .error (domain, fault) => .error (.setting domain fault)

/-- Settings after the environment, checked. -/
def adjusted (env : Environment) (x : Config) : Except ConfigError Config :=
  match env.override Variable.all x with
  | .ok x => checked x
  | .error (name, e) => .error (.variable name e)

/-- Loads settings, from a file or from nothing but the environment. -/
def load (files : Files) (path : Option String) (env : Environment) : Except ConfigError Config :=
  match path with
  | none => adjusted env {}
  | some path =>
    match ofFile files path with
    | .ok x => adjusted env x
    | .error e => .error e

end Config

end MockServer
