/-
  MockServer.Main — the program.

  It reads the files that a command line names, and prints what the
  command comes to.  The command line and the settings decide which
  files these are.
-/
import MockServer.Cli.Outcome

namespace MockServer.Cli

def named (i : Invocation) : List String :=
  i.config.toList ++
    match i.command with
    | .serve _ _ fixtures => fixtures.toList
    | .loadTest file _ _ _ => [file]
    | .printConfig => []

/-- The files with one more, if it can be read. -/
def withFile (files : Files) (path : String) : IO Files := do
  try
    let text ← IO.FS.readFile path
    return ⟨files.texts.insert path text⟩
  catch _ => return files

/-- The variables of the process that hold settings. -/
def environment : IO Config.Environment := do
  let mut env : Config.Environment := { values := .empty }
  for v in Config.Variable.all do
    let name := env.nameOf v
    if let some value ← IO.getEnv name then
      env := { env with values := env.values.insert name value }
  return env

/-- What a command finds when it is called; no identifier and no time of a record is shown. -/
def surroundings (i : Invocation) : IO Surroundings := do
  let files ← (named i).foldlM withFile .empty
  let around : Surroundings :=
    { files
      environment := ← environment
      logFilter := ← IO.getEnv filterVariable
      supply := default }
  match i.settings around with
  | .error _ => return around
  | .ok x => return { around with files := ← x.storage.fixturesPath.toList.foldlM withFile files }

end MockServer.Cli

open MockServer Cli

/-- Runs a command line and gives back the code of the process. -/
def main (words : List String) : IO UInt32 := do
  match Invocation.parse words with
  | .error .help => IO.print usage; return 0
  | .error .version => IO.print version; return 0
  | .error .usage => IO.eprint usage; return 2
  | .ok i =>
    let outcome := i.outcome (← surroundings i)
    IO.print outcome.output
    if let some report := outcome.report? then IO.eprintln report
    return UInt32.ofNat outcome.code
