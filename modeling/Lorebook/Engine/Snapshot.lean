import Lorebook.Engine.Basic

set_option autoImplicit false

/-! # Snapshots of a publication

A snapshot tells an owner where the generation of a world stands: the world and its queue, each job
with the label and the status of its module. -/

namespace Lorebook

/-- A job as shown to the owner of its world. -/
structure JobSnapshot where
  moduleKey : String
  label : String
  sequence : Nat
  status : JobStatus
  attempts : Nat
  lastError : Option String
  startedAt : Option Instant
  finishedAt : Option Instant
  /-- The status of the module, if it is stored. -/
  moduleStatus : Option ModuleStatus
deriving DecidableEq

/-- Where the generation of a world stands. -/
structure GenerationSnapshot where
  world : WorldId
  status : WorldStatus
  version : Int
  publishedAt : Option Instant
  jobs : List JobSnapshot
deriving DecidableEq

namespace GenerationSnapshot

/-- Whether every job is settled. -/
def isComplete (s : GenerationSnapshot) : Bool :=
  s.jobs.all (·.status.isTerminal)

/-- The failed jobs. -/
def failed (s : GenerationSnapshot) : List JobSnapshot :=
  s.jobs.filter fun j => j.status = .failed

end GenerationSnapshot

namespace Engine

open Studio Operation

/-- A job with the label of its module, or its key when the registry does not define it. -/
def jobSnapshot (e : Engine) (stored : List WorldModule) (job : Job) : JobSnapshot where
  moduleKey := job.moduleKey
  label := ((e.registry.find? job.moduleKey).map (·.label)).getD job.moduleKey
  sequence := job.sequence
  status := job.status
  attempts := job.attempts
  lastError := job.lastError
  startedAt := job.startedAt
  finishedAt := job.finishedAt
  moduleStatus := (stored.find? (·.key == job.moduleKey)).map (·.status)

/-- Where the generation of a world stands, for its owner. -/
def generationStatus (e : Engine) (id : WorldId) (owner : OwnerId) :
    Operation GenerationSnapshot :=
  atomically do
    let world ← ownedWorld id owner
    let queue ← store (Jobs.listForWorld id)
    let stored ← store (Modules.listForWorld id)
    return {
      world := world.id
      status := world.status
      version := world.version
      publishedAt := world.publishedAt
      jobs := queue.map (e.jobSnapshot stored) }

end Engine

end Lorebook
