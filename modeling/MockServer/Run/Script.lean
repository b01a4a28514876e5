/-
  MockServer.Run.Script — the steps to run, with the accounts declared
  beside them.

  A script comes from a YAML file or from a load test in the store.  A
  file without a name is named after itself.
-/
import MockServer.Entity.LoadTest
import MockServer.Files
import MockServer.Yaml.Node

namespace MockServer.Run

/-- What to run. -/
structure Script where
  name : String
  concurrency : Nat
  /-- `username-password` pairs between commas. -/
  accounts : String
  steps : List Step
  deriving DecidableEq, Repr, Inhabited

/-- Why a script cannot be loaded. -/
inductive ScriptError where
  | file (e : FileError)
  | yaml
  deriving DecidableEq, Repr

def ScriptError.message : ScriptError → String
  | .file e => "failed to read scenario file: " ++ e.message
  | .yaml => "failed to parse scenario YAML"

namespace Script

def ofLoadTest (x : LoadTest) : Script := ⟨x.name, x.concurrency, x.accounts, x.steps⟩

def ofDocument? (d : Document) : Option Script := do
  let f ← d.fields? ["name", "concurrency", "accounts", "steps"]
  return {
    name := ← f.text "name"
    concurrency := ← f.optional "concurrency" 0 (Document.nat? UInt64.size)
    accounts := ← f.text "accounts"
    steps := ← f.optional "steps" [] (Document.listOf? Step.ofDocument?) }

/-- The script with a name, if it has none. -/
def orNamed (s : Script) (name : String) : Script := if s.name.isEmpty then { s with name } else s

/-- The script of a YAML text, with a name for one that has none. -/
def ofYaml (text defaultName : String) : Except ScriptError Script :=
  match (Document.ofYamlText? text).bind ofDocument? with
  | some s => .ok (s.orNamed defaultName)
  | none => .error .yaml

def ofFile (files : Files) (path : String) : Except ScriptError Script :=
  match files.read path with
  | .error e => .error (.file e)
  | .ok text => ofYaml text (FileName.stem path)

/-- The script of a name: the file that ends in `.yaml`, else the one that ends in `.yml`. -/
def named (files : Files) (name : String) : Except ScriptError Script :=
  match files.read (name ++ ".yaml") with
  | .ok text => ofYaml text name
  | .error _ =>
    match files.read (name ++ ".yml") with
    | .ok text => ofYaml text name
    | .error e => .error (.file e)

end Script

end MockServer.Run
