import Lorebook.Command.Options
import Lorebook.Engine.Build
import Lorebook.Engine.Worker
import Lorebook.Generation.Chat

set_option autoImplicit false

/-! # The worker command

The command builds an engine from settings and processes the queue. It does so once, when stale
leases are recovered and then jobs are run until there is nothing to do, or it goes on polling. -/

namespace Lorebook

/-- A call of the worker command. -/
structure WorkerCall where
  /-- The settings file; without one the settings are the defaults in the environment. -/
  settingsPath : Option String := none
  /-- Whether the queue is processed once. -/
  once : Bool := false
deriving DecidableEq, Repr

namespace WorkerCommand

open Studio Operation

/-! ## Calls -/

/-- The options of the command. -/
def options : OptionTable where
  valued := [("--config", OptionTable.isPath)]
  flags := ["--once"]
  hasVersion := true

/-- How the command is used. -/
def usage : List String := [
  "Processes queued world generation jobs",
  "",
  "Usage: worldsmith-worker [OPTIONS]",
  "",
  "Options:",
  "      --config <CONFIG>  RON configuration file. Defaults plus environment overrides when absent",
  "      --once             Drain the queue once and exit instead of polling",
  "  -h, --help             Print help",
  "  -V, --version          Print version"]

/-- The command with its version. -/
def version : String := "worldsmith-worker 0.1.0"

/-- The call that words stand for. -/
def parseCall (words : List String) : Except CallRefusal WorkerCall := do
  let w ← options.read words
  return { settingsPath := w.value? "--config", once := w.hasFlag "--once" }

/-! ## Processing the queue -/

variable {m : Type → Type} [Monad m] [MonadStateOf Studio m]

/-- The plan of the engine that settings describe, for a database and the files that the settings
name. -/
def plan (settings : Settings) (environment : String → Option String)
    (database : DatabaseSource) (modules prompts : Option FileText) : EnginePlan where
  database := some database
  modulesFile := modules
  promptsFile := prompts
  hasGenerator := true
  keyring := settings.keys.keyring environment
  timeout := .ofSeconds settings.generator.timeoutSecs

/-- The generator that settings describe, for a transport. -/
def generator (settings : Settings) (send : Chat.Post → m Chat.Response) : Generator m :=
  fun _ request => do
    return some (← Chat.complete (fun e => do tell e) send settings.generator request)

/-- Log an error of the command. -/
def tellError (message : String) (e : EngineError) : m PUnit :=
  tell ⟨.error, .command, message, [("error", .str e.message)]⟩

/-- The exit code of a command that broke off. -/
def brokenOff : Nat := 101

/-- Process the queue once; gives the exit code. The limit bounds the number of jobs. -/
def once (settings : Settings) (plan : EnginePlan) (g : Generator m) (limit : Nat) : m Nat := do
  match ← perform (Engine.build plan) with
  | .error e =>
    tellError "failed to start engine" e
    return 1
  | .ok engine =>
    match ← Worker.recover settings.worker with
    | .error .calendarExceeded => return brokenOff
    | .error e => tellError "stale lease recovery failed" e
    | .ok _ => pure ()
    let (stats, _) ← Worker.drain engine g limit
    tell ⟨.info, .command, "queue drained",
      [("succeeded", .nat stats.succeeded), ("failed", .nat stats.failed)]⟩
    return if 0 < stats.storeErrors then 1 else 0

/-- Process the queue until a pause says to stop, for at most so many rounds; gives the exit
code. -/
def poll (settings : Settings) (plan : EnginePlan) (g : Generator m) (pace : Pace m)
    (limit : Nat) : m Nat := do
  match ← perform (Engine.build plan) with
  | .error e =>
    tellError "failed to start engine" e
    return 1
  | .ok engine =>
    match ← (Worker.run engine g settings.worker pace limit).run with
    | .error _ => return brokenOff
    | .ok _ => return 0

end WorkerCommand

end Lorebook
