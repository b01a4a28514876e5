/-
  MockServer.Fixture.File — fixtures in files.

  The extension of a file says how it is written; it is looked at after
  the file is read.
-/
import MockServer.Files
import MockServer.Fixture.Basic
import MockServer.Yaml.Node

namespace MockServer.Fixture

def ofJsonText (text : String) : Except StoreError Fixture :=
  match (Document.ofJsonText? text).bind ofDocument? with
  | some x => .ok x
  | none => .error .json

def ofYamlText (text : String) : Except StoreError Fixture :=
  match (Document.ofYamlText? text).bind ofDocument? with
  | some x => .ok x
  | none => .error .yaml

/-- The fixture of a file; `shown` is how its path is reported. -/
def ofFile (files : Files) (path shown : String) : Except StoreError Fixture :=
  match files.read path with
  | .error e => .error (.file e.message)
  | .ok text =>
    match FileName.extension? path with
    | some "json" => ofJsonText text
    | some "yaml" | some "yml" => ofYamlText text
    | extension => .error (.unknownKind extension shown)

end MockServer.Fixture
