import Lorebook.Engine.Publication
import Lorebook.Engine.Snapshot
import Lorebook.Engine.Worker
import Lorebook.Exchange.Json

set_option autoImplicit false

/-! # The JSON form of what the engine reports -/

namespace Lorebook

/-- The members of a publication. -/
def Publication.toJson (p : Publication) : Json :=
  Json.object [
    ("world", p.world.toJson),
    ("modules_to_generate", .strings p.generate),
    ("modules_to_reuse", .strings p.reuse),
    ("jobs", .arr (p.jobs.map (·.toJson)))]

/-- The members of a job of a snapshot. -/
def JobSnapshot.toJson (j : JobSnapshot) : Json :=
  Json.object [
    ("moduleKey", .str j.moduleKey),
    ("label", .str j.label),
    ("sequence", .nat j.sequence),
    ("status", .str j.status.text),
    ("attempts", .nat j.attempts),
    ("lastError", .optionStr j.lastError),
    ("startedAt", Instant.optionToJson j.startedAt),
    ("finishedAt", Instant.optionToJson j.finishedAt),
    ("moduleStatus", .optionStr (j.moduleStatus.map (·.text)))]

/-- The members of a snapshot. -/
def GenerationSnapshot.toJson (s : GenerationSnapshot) : Json :=
  Json.object [
    ("worldId", .str s.world.text),
    ("status", .str s.status.text),
    ("version", .int s.version),
    ("publishedAt", Instant.optionToJson s.publishedAt),
    ("jobs", .arr (s.jobs.map (·.toJson)))]

/-- The members of an outcome, which depend on its kind. -/
def QueueOutcome.toJson (o : QueueOutcome) : Json :=
  Json.object <| ("idle", .bool o.isIdle) ::
    match o with
    | .idle => [("outcome", .str "Idle")]
    | .succeeded job world module activated => [
        ("outcome", .str "Succeeded"),
        ("job_id", .str job.text),
        ("world_id", .str world.text),
        ("module_key", .str module),
        ("world_activated", .bool activated)]
    | .failed job world module message => [
        ("outcome", .str "Failed"),
        ("job_id", .str job.text),
        ("world_id", .str world.text),
        ("module_key", .str module),
        ("message", .str message)]
    | .leaseLost job => [("outcome", .str "LeaseLost"), ("job_id", .str job.text)]
    | .storeUnavailable message => [
        ("outcome", .str "StoreUnavailable"),
        ("message", .str message)]

/-- The members of what a worker counted. -/
def WorkerStats.toJson (s : WorkerStats) : Json :=
  Json.object [
    ("succeeded", .nat s.succeeded),
    ("failed", .nat s.failed),
    ("lease_lost", .nat s.leaseLost),
    ("idle_polls", .nat s.idlePolls),
    ("store_errors", .nat s.storeErrors),
    ("recovered", .nat s.recovered)]

end Lorebook
