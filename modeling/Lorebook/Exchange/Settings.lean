import Lorebook.Settings

set_option autoImplicit false

/-! # The JSON form of settings

Keys are written out in full, so this form is not for logs. -/

namespace Lorebook

/-- The members of credentials. -/
def Credentials.toJson (c : Credentials) : Json :=
  Json.object [
    ("api_key", .str c.apiKey),
    ("base_url", .optionStr c.baseUrl),
    ("model", .optionStr c.model)]

/-- The members of the settings of a generator. -/
def GeneratorSettings.toJson (s : GeneratorSettings) : Json :=
  Json.object [
    ("base_url", .str s.baseUrl),
    ("model", .str s.model),
    ("timeout_secs", .nat s.timeoutSecs),
    ("temperature", .str s.temperature.text)]

/-- The members of the settings of a worker. -/
def WorkerSettings.toJson (s : WorkerSettings) : Json :=
  Json.object [
    ("poll_interval_ms", .nat s.pollIntervalMs),
    ("idle_jitter_ms", .nat s.idleJitterMs),
    ("lease_timeout_secs", .nat s.leaseTimeoutSecs)]

/-- The members of the settings of keys. -/
def KeySettings.toJson (s : KeySettings) : Json :=
  Json.object [
    ("api_key_env", .optionStr s.keyVariable),
    ("owners", .obj (s.owners.map (·.toJson)).entries)]

/-- The members of settings. -/
def Settings.toJson (s : Settings) : Json :=
  Json.object [
    ("database_path", .str s.databasePath),
    ("modules_path", .optionStr s.modulesPath),
    ("prompts_path", .optionStr s.promptsPath),
    ("generator", s.generator.toJson),
    ("worker", s.worker.toJson),
    ("log", Json.object [("level", .str s.log.level), ("json", .bool s.log.json)]),
    ("credentials", s.keys.toJson)]

end Lorebook
