/-
  MockServer.Cli.Arguments — the words of a command line.

  A command line names a command, among options that stand for all
  commands and in front of options of the command.  A value follows its
  option as the next word or behind an equals sign; a word of its own
  that begins with a hyphen is a value only if it is nothing but that.
  An option is given at most once before the command and at most once
  behind it, where it counts more.

  Words are looked at in order, so help that is asked for before a fault
  is given.  A value that is a word of its own is looked at together
  with what follows it; behind the last option before the command these
  are the words of the command.

  Main definitions:
    * `Command`, `Invocation` — what is to be done;
    * `Reading.read` — the options at one level;
    * `Invocation.parse` — a command line.
-/
import MockServer.Config.Environment

namespace MockServer.Cli

/-! ## Commands -/

/-- What is to be done. -/
inductive Command where
  /-- Serve requests; what is given here counts more than the settings. -/
  | serve (bind : Option String) (port : Option UInt16) (fixtures : Option String)
  /-- Run the script of a file. -/
  | loadTest (file : String) (accounts : Option String) (concurrency : Option Nat) (json : Bool)
  /-- Print the settings. -/
  | printConfig
  deriving DecidableEq, Repr

/-- A command with the options that stand for all commands. -/
structure Invocation where
  config : Option String
  logLevel : Option String
  command : Command
  deriving DecidableEq, Repr

/-- Why nothing is to be done. -/
inductive Stop where
  | usage
  | help
  | version
  deriving DecidableEq, Repr

/-! ## Options -/

/-- What belongs to an option. -/
inductive Arity where
  | flag
  | value (accepts : String → Bool)

/-- What can be given at one level of a command line. -/
structure Level where
  options : List (String × Arity)
  commands : List String
  hasVersion : Bool

def count? (text : String) : Option Nat := (Config.natBelow UInt64.size text.toList).toOption

/-- The number of a port; zero may have a minus sign. -/
def port? (text : String) : Option UInt16 :=
  match text.toList with
  | '-' :: zeros => if !zeros.isEmpty && zeros.all (· == '0') then some 0 else none
  | cs => (Config.natBelow UInt16.size cs).toOption.map UInt16.ofNat

def anyText : Arity := .value fun _ => true

/-- A path, which has characters. -/
def path : Arity := .value fun v => !v.isEmpty

def commonOptions : List (String × Arity) := [("config", path), ("log-level", anyText)]

def Level.top : Level := ⟨commonOptions, ["serve", "loadtest", "print-config", "help"], true⟩

def Level.behind (command : String) : Level :=
  let own := match command with
    | "serve" => [("bind", anyText), ("port", .value fun v => (port? v).isSome), ("fixtures", path)]
    | "loadtest" =>
      [("file", path), ("accounts", anyText),
       ("concurrency", .value fun v => (count? v).isSome), ("json", .flag)]
    | _ => []
  ⟨commonOptions ++ own, [], false⟩

/-! ## Reading -/

/-- The options of a level read so far. -/
structure Reading where
  given : List (String × String)
  /-- An option that is not looked at yet. -/
  pending : Option (String × String)
  deriving DecidableEq, Repr

namespace Reading

def empty : Reading := ⟨[], none⟩

def get? (r : Reading) (name : String) : Option String := r.given.lookup name

def settle (l : Level) (r : Reading) : Except Stop Reading :=
  match r.pending with
  | none => .ok r
  | some (name, value) =>
    let isAccepted := match l.options.lookup name with
      | some (.value accepts) => accepts value
      | _ => true
    if (r.get? name).isSome || !isAccepted then .error .usage
    else .ok ⟨(name, value) :: r.given, none⟩

/-- Reads an option whose value may be looked at later. -/
def give (l : Level) (name value : String) (r : Reading) : Except Stop Reading :=
  (r.settle l).map fun r => { r with pending := some (name, value) }

def giveWhole (l : Level) (name value : String) (r : Reading) : Except Stop Reading := do
  let r ← r.give l name value
  r.settle l

/-- Stops, unless what is pending makes no sense. -/
def stop {α : Type} (l : Level) (why : Stop) (r : Reading) : Except Stop α :=
  match r.settle l with
  | .ok _ => .error why
  | .error e => .error e

/-- Reads options that stand behind a single hyphen; there are only those that ask for something. -/
def readShort {α : Type} (l : Level) (c : Char) (r : Reading) : Except Stop α :=
  if c = 'h' then r.stop l .help
  else if c = 'V' && l.hasVersion then r.stop l .version
  else .error .usage

/-- Reads the options of a level, up to its end or to a command: what was read, and the command
with the words behind it. -/
def read (l : Level) : Reading → List String → Except Stop (Reading × Option (String × List String))
  | r, [] => .ok (r, none)
  | r, word :: rest =>
    if l.commands.contains word then .ok (r, some (word, rest))
    else
      match word.toList with
      | '-' :: '-' :: cs =>
        match Text.splitFirst '=' cs with
        | some (name, value) =>
          match l.options.lookup (String.ofList name) with
          | some (.value _) =>
            match r.giveWhole l (String.ofList name) (String.ofList value) with
            | .ok r => read l r rest
            | .error e => .error e
          | _ => .error .usage
        | none =>
          match l.options.lookup (String.ofList cs), rest with
          | some .flag, rest =>
            match r.giveWhole l (String.ofList cs) "" with
            | .ok r => read l r rest
            | .error e => .error e
          | some (.value _), value :: rest =>
            -- a word with a hyphen is an option and no value
            if value.toList.head? == some '-' && value != "-" then .error .usage
            else
              match r.give l (String.ofList cs) value with
              | .ok r => read l r rest
              | .error e => .error e
          | some (.value _), [] => .error .usage
          | none, _ =>
            if cs = "help".toList then r.stop l .help
            else if cs = "version".toList && l.hasVersion then r.stop l .version
            else .error .usage
      | '-' :: c :: _ => r.readShort l c
      | _ => .error .usage

end Reading

/-! ## Texts -/

def usage : String :=
  "Usage: mocktool [--config FILE] [--log-level LEVEL] COMMAND\n\n" ++
  "  serve [--bind ADDR] [--port PORT] [--fixtures FILE]\n" ++
  "  loadtest --file FILE [--accounts ACCOUNTS] [--concurrency N] [--json]\n" ++
  "  print-config\n" ++
  "  help [COMMAND]\n"

/-- The name and the version of the program. -/
def version : String := "mocktool-server 0.4.11\n"

/-! ## Command lines -/

/-- Asks for help on a command, or in general. -/
def helpOn : List String → Stop
  | [] => .help
  | [command] => if Level.top.commands.contains command then .help else .usage
  | _ => .usage

def Command.ofReading (name : String) (r : Reading) : Except Stop Command :=
  match name with
  | "serve" => .ok (.serve (r.get? "bind") ((r.get? "port").bind port?) (r.get? "fixtures"))
  | "loadtest" =>
    match r.get? "file" with
    | none => .error .usage
    | some file =>
      let concurrency := (r.get? "concurrency").bind count?
      .ok (.loadTest file (r.get? "accounts") concurrency (r.get? "json").isSome)
  | _ => .ok .printConfig

def Invocation.parse (words : List String) : Except Stop Invocation := do
  match ← Reading.empty.read .top words with
  | (_, none) => throw .usage
  | (common, some (name, rest)) =>
    if name = "help" then throw (helpOn rest)
    let level := Level.behind name
    -- what is pending before the command waits until the command is read
    let (own, _) ← Reading.empty.read level rest
    let own ← own.settle level
    let command ← Command.ofReading name own
    let common ← common.settle .top
    return {
      config := (own.get? "config").or (common.get? "config")
      logLevel := (own.get? "log-level").or (common.get? "log-level")
      command }

end MockServer.Cli
