import Lorebook.Command.Worker
import Lorebook.Json.Printer
import Lorebook.Lint.Command
import Lorebook.Preview.Command

set_option autoImplicit false

/-! # The command line

The first word names a command, and the words after it are the call of that command. This module
reads the files that a call names, prints what the command prints, and decides nothing else.

The database of the worker lives in memory, and no server can be reached from here, so that a worker
started from this command line finds an empty queue. -/

namespace Lorebook.CommandLine

/-! ## Files and transcripts -/

/-- The text of a file. -/
def readFile (path : String) : IO FileText := do
  try
    return .ok (← IO.FS.readFile path)
  catch e =>
    return .error (toString e)

/-- The text of a file that a call may name, with its path. -/
def readNamed (path : Option String) : IO (Option NamedFile) :=
  path.mapM fun path => return ⟨path, ← readFile path⟩

/-- Print what a command printed; gives its exit code. -/
def replay (t : Transcript) : IO UInt32 := do
  t.err.forM IO.eprintln
  t.out.forM IO.println
  return t.code.toUInt32

/-- Answer what is no call. -/
def refuse (usage : List String) (r : CallRefusal) (version : String := "") : IO UInt32 := do
  if r = .misuse then usage.forM IO.eprintln
  replay (r.transcript usage version)

/-! ## Lint and preview -/

/-- Run the lint command. -/
def lint (words : List String) : IO UInt32 := do
  match Lint.parseCall words with
  | .error r => refuse Lint.usage r
  | .ok (modules, prompts) => replay (Lint.command (← readNamed modules) (← readNamed prompts))

/-- Run the preview command. -/
def preview (words : List String) : IO UInt32 := do
  match Preview.parseCall words with
  | .error r => refuse Preview.usage r
  | .ok call =>
    let fixture : NamedFile := ⟨call.fixturePath, ← readFile call.fixturePath⟩
    let modules ← readNamed call.modulesPath
    let prompts ← readNamed call.promptsPath
    replay (Preview.command default call.request fixture modules prompts)

/-! ## Worker -/

/-- What a worker runs in here. -/
abbrev Shop := StateT Studio IO

/-- The values of the variables of the environment among names. -/
def readEnvironment (names : List String) : IO (String → Option String) := do
  let values ← names.filterMapM fun name => return (← IO.getEnv name).map (name, ·)
  return fun name => values.lookup name

/-- The variables that settings look at, whatever they are. -/
def settingsVariables : List String := [
  "RUST_LOG", "WORLDSMITH_DATABASE", "WORLDSMITH_LOG", "WORLDSMITH_BASE_URL", "WORLDSMITH_MODEL"]

/-- An event as a line. -/
def eventLine (e : LogEvent) : String :=
  s!"{e.level.text} {e.fieldsJson.compact}"

/-- Print the events that a filter shows, and forget all. -/
def flushLog (filter : LogFilter) : Shop Unit := do
  let events ← modifyGet fun s => (s.log.reverse, { s with log := [] })
  (events.filter fun e => filter.shows e.level).forM fun e => IO.println (eventLine e)

/-- Wait as settings say, printing the log meanwhile. -/
def pace (filter : LogFilter) : Pace Shop where
  elapsed := IO.monoNanosNow
  jitter := fun most => IO.rand 0 most
  pause := fun span => do
    flushLog filter
    IO.sleep (span.toNanos / 1000000).toUInt32
    return true

/-- The settings of a call. -/
def loadSettings (call : WorkerCall) (environment : String → Option String) :
    IO (Except SettingsError Settings) := do
  match call.settingsPath with
  | none => return .ok (Settings.ofEnvironment environment)
  | some path =>
    match ← readFile path with
    | .error detail => return .error (.io path detail)
    | .ok text => return Settings.load text environment

/-- Run a worker with settings. -/
def workWith (call : WorkerCall) (settings : Settings) : IO UInt32 := do
  let environment ← readEnvironment (settings.keys.keyVariable.toList ++ settingsVariables)
  let modules ← settings.modulesPath.mapM readFile
  let prompts ← settings.promptsPath.mapM readFile
  let filter := LogFilter.choose (environment "RUST_LOG") settings.log.level
  let plan := WorkerCommand.plan settings environment
    (.file settings.databasePath (.ok .empty)) modules prompts
  let generator : Generator Shop :=
    WorkerCommand.generator settings fun _ => return .unreachable "no transport"
  let work : Shop Nat := do
    let code ← if call.once then WorkerCommand.once settings plan generator (twoPow 64)
      else WorkerCommand.poll settings plan generator (pace filter) (twoPow 64)
    flushLog filter
    return code
  return (← work.run' { db := .empty, minted := 0, clock := default, log := [] }).toUInt32

/-- Run the worker command. -/
def work (words : List String) : IO UInt32 := do
  match WorkerCommand.parseCall words with
  | .error r => refuse WorkerCommand.usage r WorkerCommand.version
  | .ok call =>
    match ← loadSettings call (← readEnvironment settingsVariables) with
    | .error e => replay { code := 1, err := [s!"ERROR: {e.message}"] }
    | .ok settings => workWith call settings

/-! ## Commands -/

/-- The commands. -/
def commands : List (String × (List String → IO UInt32)) := [
  ("schema_linter", lint), ("prompt_preview", preview), ("worldsmith-worker", work)]

/-- Run the command of a call. -/
def run : List String → IO UInt32
  | [] => refuse (commands.map (·.1)) .help
  | name :: words =>
    match commands.lookup name with
    | some command => command words
    | none => refuse (commands.map (·.1)) .misuse

end Lorebook.CommandLine

/-- Run the command that the words name. -/
def main (words : List String) : IO UInt32 :=
  Lorebook.CommandLine.run words
