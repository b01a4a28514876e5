/-
  MockServer.Cli.Outcome — what a command line comes to.

  Every command loads the settings first.  A command that fails says
  why and ends with code 1; a load test that ran prints its result
  before it fails on account of it.  There is no network: requests find
  no server, and nothing can be listened on.

  Main definitions:
    * `Outcome` — what is printed, and whether the command failed;
    * `Invocation.outcome` — what a command comes to.
-/
import MockServer.Cli.Arguments
import MockServer.Config.Load
import MockServer.Log.Filter
import MockServer.Run.Pool
import MockServer.Start
import MockServer.Yaml.Printer

namespace MockServer.Cli

/-! ## Outcomes -/

/-- Why a command fails. -/
inductive Failure where
  /-- The settings cannot be loaded. -/
  | config (e : ConfigError)
  /-- A text names no level of the log. -/
  | logLevel (text : String)
  /-- Options of the command make settings that are not accepted. -/
  | overrides (e : ConfigError)
  /-- The settings of the log make no filter. -/
  | logFilter (directives : String)
  /-- A server cannot be made. -/
  | start (e : StartError)
  /-- An address cannot be listened on. -/
  | bind (address : String)
  /-- A script cannot be loaded. -/
  | script (path : String) (e : Run.ScriptError)
  /-- There are no accounts to run a script for. -/
  | noAccounts (scriptName : String)
  /-- A load test failed for some accounts. -/
  | failedAccounts (failed total : Nat)
  deriving DecidableEq, Repr

def Failure.message : Failure → String
  | .config _ => "Failed to load configuration"
  | .logLevel text => Log.Level.unknown text
  | .overrides _ => "Invalid configuration after command line overrides"
  | .logFilter directives => "Invalid log filter directives: " ++ directives
  | .start e => e.message
  | .bind address => "Failed to bind " ++ address
  | .script path _ => "Failed to load scenario from " ++ path
  | .noAccounts scriptName => "no accounts configured for scenario '" ++ scriptName ++ "'"
  | .failedAccounts failed total =>
    Nat.repr failed ++ " of " ++ Nat.repr total ++ " accounts failed"

/-- What is printed, and why a command failed if it did. -/
structure Outcome where
  output : String
  failure : Option Failure
  deriving DecidableEq, Repr

namespace Outcome

def failed (f : Failure) : Outcome := ⟨"", some f⟩

def code (o : Outcome) : Nat := if o.failure.isSome then 1 else 0

/-- The line that says why a command failed. -/
def report? (o : Outcome) : Option String := o.failure.map fun f => "Error: " ++ f.message

end Outcome

/-! ## Surroundings -/

/-- The variable that holds a filter of the log from outside. -/
def filterVariable : String := "RUST_LOG"

/-- What a command finds when it is called. -/
structure Surroundings where
  files : Files
  environment : Config.Environment
  logFilter : Option String
  supply : Supply
  deriving DecidableEq, Repr

/-! ## Serving -/

def overridden (x : Config) (bind : Option String) (port : Option UInt16)
    (fixtures : Option String) : Config :=
  { x with
    server := {
      x.server with
      bindAddress := bind.getD x.server.bindAddress
      port := port.getD x.server.port }
    storage := { x.storage with fixturesPath := fixtures.or x.storage.fixturesPath } }

def serve (around : Surroundings) (x : Config) : Failure :=
  match x.checked with
  | .error e => .overrides e
  | .ok x =>
    let directives := Log.Filter.text x.logging.level x.logging.directives
    -- the log is set up before the server is made
    match Log.Filter.choose? around.logFilter directives with
    | none => .logFilter directives
    | some _ =>
      match Service.start around.files x around.supply with
      | .error e => .start e
      | .ok _ => .bind x.server.socketAddress

/-! ## Load tests -/

/-- The script of a file, and the accounts to run it for. -/
def scriptAndAccounts (files : Files) (file : String) (accounts : Option String)
    (concurrency : Option Nat) : Except Failure (Run.Script × List Run.Account) :=
  match Run.Script.ofFile files file with
  | .error e => .error (.script file e)
  | .ok script =>
    let script := { script with concurrency := concurrency.getD script.concurrency }
    match Run.Account.parse (accounts.getD script.accounts) with
    | [] => .error (.noAccounts script.name)
    | accounts => .ok (script, accounts)

/-- What the result of a load test comes to. -/
def ofResult (json : Bool) (result : Run.RunResult) : Outcome :=
  { output := if json then result.toJson.pretty ++ "\n" else result.summary
    failure :=
      if result.failures = 0 then none
      else some (.failedAccounts result.failures result.totalAccounts) }

def loadTest (around : Surroundings) (x : Config) (file : String) (accounts : Option String)
    (concurrency : Option Nat) (json : Bool) : Outcome :=
  match scriptAndAccounts around.files file accounts concurrency with
  | .error e => .failed e
  | .ok (script, accounts) =>
    if !x.http.isUsable then .failed (.start .client)
    else
      let interval := Duration.ofMillis x.loadtest.retryInterval.toNat
      let cap := x.loadtest.maxConcurrency.toNat
      ofResult json (Run.runAll .void interval cap script accounts default).1

/-! ## Commands -/

def Invocation.settings (i : Invocation) (around : Surroundings) : Except Failure Config :=
  match Config.load around.files i.config around.environment with
  | .error e => .error (.config e)
  | .ok x =>
    match i.logLevel with
    | none => .ok x
    | some text =>
      match Log.Level.parse? text with
      | none => .error (.logLevel text)
      | some level => .ok { x with logging := { x.logging with level } }

def Invocation.outcome (i : Invocation) (around : Surroundings) : Outcome :=
  match i.settings around with
  | .error e => .failed e
  | .ok x =>
    match i.command with
    | .serve bind port fixtures => .failed (serve around (overridden x bind port fixtures))
    | .loadTest file accounts concurrency json => loadTest around x file accounts concurrency json
    | .printConfig => ⟨x.toJson.toYaml, none⟩

end MockServer.Cli
