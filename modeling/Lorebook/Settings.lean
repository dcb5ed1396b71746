import Lorebook.Exchange.Json
import Lorebook.Generation.Credentials
import Lorebook.Generation.Temperature
import Lorebook.Ron.Reader

set_option autoImplicit false

/-! # Settings

The settings say where the database and the definition files are, how the generator is reached, how
the worker polls, and which keys owners have. They are read from a file in RON, in which everything
has a default; some are replaced by variables of the environment. -/

namespace Lorebook

/-! ## The settings and their defaults -/

/-- How the text generator is reached. -/
structure GeneratorSettings where
  baseUrl : String := "https://api.openai.com/v1"
  model : String := "gpt-4o-mini"
  /-- The bound on a call, in seconds. -/
  timeoutSecs : Nat := 120
  temperature : Temperature := .standard
deriving DecidableEq

/-- How the worker polls. -/
structure WorkerSettings where
  pollIntervalMs : Nat := 2000
  /-- The greatest delay that an idle poll adds at random. -/
  idleJitterMs : Nat := 500
  /-- The age in seconds from which on a running job counts as abandoned. -/
  leaseTimeoutSecs : Nat := 600
deriving DecidableEq, Repr

/-- What is logged. -/
structure LogSettings where
  level : String := "info"
  json : Bool := false
deriving DecidableEq, Repr

/-- The keys of owners. -/
structure KeySettings where
  /-- The variable of the environment that holds the fallback key. -/
  keyVariable : Option String := some "WORLDSMITH_API_KEY"
  owners : Dictionary Credentials := .empty

/-- All settings. -/
structure Settings where
  databasePath : String := "worldsmith.db"
  /-- The file of module definitions, in place of the packaged ones. -/
  modulesPath : Option String := none
  /-- The file of prompts, in place of the packaged ones. -/
  promptsPath : Option String := none
  generator : GeneratorSettings := {}
  worker : WorkerSettings := {}
  log : LogSettings := {}
  keys : KeySettings := {}

instance : Inhabited Settings := ⟨{}⟩

/-! ## Checks -/

/-- What makes settings unacceptable. -/
inductive SettingsFault where
  | zeroTimeout
  | zeroPollInterval
  /-- A lease may expire while its call is still allowed to run. -/
  | leaseWithinTimeout
deriving DecidableEq, Repr

/-- The text of a fault. -/
def SettingsFault.message : SettingsFault → String
  | .zeroTimeout => "generator.timeout_secs must be positive"
  | .zeroPollInterval => "worker.poll_interval_ms must be positive"
  | .leaseWithinTimeout => "worker.lease_timeout_secs must exceed generator.timeout_secs"

/-- Why there are no settings. -/
inductive SettingsError where
  /-- The file at a path cannot be read. -/
  | io (path detail : String)
  /-- The text is no settings file. -/
  | malformed (detail : String)
  | invalid (fault : SettingsFault)
deriving DecidableEq, Repr

/-- The word for a kind of error. -/
def SettingsError.kind : SettingsError → String
  | .io .. => "Io"
  | .malformed _ => "Ron"
  | .invalid _ => "Invalid"

/-- The text of a settings error. -/
def SettingsError.message : SettingsError → String
  | .io path detail => s!"IO error reading {path}: {detail}"
  | .malformed detail => s!"RON deserialization error: {detail}"
  | .invalid fault => s!"invalid configuration: {fault.message}"

namespace Settings

/-- The first fault of settings. -/
def fault? (s : Settings) : Option SettingsFault :=
  if s.generator.timeoutSecs = 0 then some .zeroTimeout
  else if s.worker.pollIntervalMs = 0 then some .zeroPollInterval
  else if s.worker.leaseTimeoutSecs ≤ s.generator.timeoutSecs then some .leaseWithinTimeout
  else none

/-- Refuse settings that have a fault. -/
def validate (s : Settings) : Except SettingsError Unit :=
  match s.fault? with
  | some fault => .error (.invalid fault)
  | none => .ok ()

/-! ## The environment -/

/-- The settings with those replaced that variables of the environment give; blank variables
count as missing. -/
def override (s : Settings) (environment : String → Option String) : Settings :=
  let get (name : String) := (environment name).filter fun v => !Text.isBlank v
  { s with
    databasePath := (get "WORLDSMITH_DATABASE").getD s.databasePath
    log := { s.log with level := (get "WORLDSMITH_LOG").getD s.log.level }
    generator := { s.generator with
      baseUrl := (get "WORLDSMITH_BASE_URL").getD s.generator.baseUrl
      model := (get "WORLDSMITH_MODEL").getD s.generator.model } }

/-- The default settings in an environment. -/
def ofEnvironment (environment : String → Option String) : Settings :=
  override {} environment

end Settings

/-- The keyring of the settings; the fallback key is taken from the environment. -/
def KeySettings.keyring (s : KeySettings) (environment : String → Option String) : Keyring where
  owners := s.owners
  fallback := s.keyVariable.bind environment

/-! ## Records -/

/-- The form of credentials in a settings file. -/
def Credentials.shape : Ron.Shape :=
  .record "OwnerCredentials" [
    ("api_key", .text), ("base_url", .option .text), ("model", .option .text)]

/-- The form of a settings file. -/
def Settings.shape : Ron.Shape :=
  .record "EngineConfig" [
    ("database_path", .text), ("modules_path", .option .text), ("prompts_path", .option .text),
    ("generator", .record "GeneratorConfig" [
      ("base_url", .text), ("model", .text), ("timeout_secs", .nat 64), ("temperature", .float)]),
    ("worker", .record "WorkerConfig" [
      ("poll_interval_ms", .nat 64), ("idle_jitter_ms", .nat 64),
      ("lease_timeout_secs", .nat 64)]),
    ("log", .record "LogConfig" [("level", .text), ("json", .bool)]),
    ("credentials", .record "CredentialsConfig" [
      ("api_key_env", .option .text), ("owners", .map Credentials.shape)])]

/-- The credentials of a record. -/
def Credentials.decode : Json.Decoder Credentials := fun v => do
  match ← v.members? ["api_key", "base_url", "model"] with
  | [apiKey, baseUrl, model] =>
    return {
      apiKey := ← apiKey.required Json.decodeText
      baseUrl := ← baseUrl.withDefault none (Json.decodeOption Json.decodeText)
      model := ← model.withDefault none (Json.decodeOption Json.decodeText) }
  | _ => none

/-- The settings of keys of a record. -/
def KeySettings.decode : Json.Decoder KeySettings := fun v => do
  let standard : KeySettings := {}
  match ← v.members? ["api_key_env", "owners"] with
  | [keyVariable, owners] =>
    return {
      keyVariable :=
        ← keyVariable.withDefault standard.keyVariable (Json.decodeOption Json.decodeText)
      owners := ← owners.withDefault standard.owners (Json.decodeMap Credentials.decode) }
  | _ => none

/-- The temperature of its literal. -/
def Temperature.decode : Json.Decoder Temperature
  | .str literal => some (.ofLiteral literal)
  | _ => none

/-- The settings of the generator of a record. -/
def GeneratorSettings.decode : Json.Decoder GeneratorSettings := fun v => do
  let standard : GeneratorSettings := {}
  match ← v.members? ["base_url", "model", "timeout_secs", "temperature"] with
  | [baseUrl, model, timeoutSecs, temperature] =>
    return {
      baseUrl := ← baseUrl.withDefault standard.baseUrl Json.decodeText
      model := ← model.withDefault standard.model Json.decodeText
      timeoutSecs := ← timeoutSecs.withDefault standard.timeoutSecs (Json.decodeNat 64)
      temperature := ← temperature.withDefault standard.temperature Temperature.decode }
  | _ => none

/-- The settings of the worker of a record. -/
def WorkerSettings.decode : Json.Decoder WorkerSettings := fun v => do
  let standard : WorkerSettings := {}
  match ← v.members? ["poll_interval_ms", "idle_jitter_ms", "lease_timeout_secs"] with
  | [pollIntervalMs, idleJitterMs, leaseTimeoutSecs] =>
    return {
      pollIntervalMs := ← pollIntervalMs.withDefault standard.pollIntervalMs (Json.decodeNat 64)
      idleJitterMs := ← idleJitterMs.withDefault standard.idleJitterMs (Json.decodeNat 64)
      leaseTimeoutSecs :=
        ← leaseTimeoutSecs.withDefault standard.leaseTimeoutSecs (Json.decodeNat 64) }
  | _ => none

/-- The settings of the log of a record. -/
def LogSettings.decode : Json.Decoder LogSettings := fun v => do
  let standard : LogSettings := {}
  match ← v.members? ["level", "json"] with
  | [level, json] =>
    return {
      level := ← level.withDefault standard.level Json.decodeText
      json := ← json.withDefault standard.json Json.decodeBool }
  | _ => none

/-- The settings of a record. -/
def Settings.decode : Json.Decoder Settings := fun v => do
  let standard : Settings := {}
  let optionalText := Json.Member.withDefault none (Json.decodeOption Json.decodeText)
  match ← v.members? ["database_path", "modules_path", "prompts_path", "generator", "worker",
    "log", "credentials"] with
  | [databasePath, modulesPath, promptsPath, generator, worker, log, keys] =>
    return {
      databasePath := ← databasePath.withDefault standard.databasePath Json.decodeText
      modulesPath := ← optionalText modulesPath
      promptsPath := ← optionalText promptsPath
      generator := ← generator.withDefault {} GeneratorSettings.decode
      worker := ← worker.withDefault {} WorkerSettings.decode
      log := ← log.withDefault {} LogSettings.decode
      keys := ← keys.withDefault {} KeySettings.decode }
  | _ => none

/-- The settings of a settings file's text. -/
def Settings.parse (text : String) : Except SettingsError Settings := do
  match (Ron.parse? shape text).bind decode with
  | none => .error (.malformed "not a settings file")
  | some s =>
    s.validate
    return s

/-- The settings of a settings file's text in an environment. -/
def Settings.load (text : String) (environment : String → Option String) :
    Except SettingsError Settings :=
  return (← parse text).override environment

end Lorebook
