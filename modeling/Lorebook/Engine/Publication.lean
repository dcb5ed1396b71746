import Lorebook.Engine.Basic

set_option autoImplicit false

/-! # Publication

Publishing a world checks every module of the registry, takes over those whose content was completed
from their current fields, and queues one job for each of the others. When none is left the world
is activated at once. All of it happens as a whole: a refusal changes nothing. -/

namespace Lorebook

/-- What publishing did. -/
structure Publication where
  /-- The world as stored. -/
  world : World
  /-- The keys of the modules that are queued, in the order of the registry. -/
  generate : List String
  /-- The keys of the modules that are taken over. -/
  reuse : List String
  /-- The new queue. -/
  jobs : List Job

/-- Whether the world was activated at once. -/
def Publication.activated (p : Publication) : Bool :=
  p.generate.isEmpty

namespace Engine

open Studio Operation

/-! ## The queue -/

/-- New jobs for modules, with ascending sequence from a number on. -/
def newJobs (world : WorldId) (sequence : Nat) : List String → Operation (List Job)
  | [] => return []
  | key :: rest => do
    let id := JobId.mint (← mint)
    let job := Job.newWaiting id world key sequence (← readClock)
    return job :: (← newJobs world (sequence + 1) rest)

/-- Replace the queue of a world by one job for each key, unless one of its jobs is running. -/
def rebuildJobs (world : WorldId) (keys : List String) : Operation (List Job) := do
  match ← store (Jobs.runningOf? world) with
  | some running => throw (.conflict (.worldGenerating world running.moduleKey))
  | none =>
    let jobs ← newJobs world 1 keys
    store (Jobs.replaceForWorld world jobs)
    return jobs

/-- Replace the queue of a world by one job for each key. -/
def initializeJobs (e : Engine) (world : WorldId) (keys : List String) :
    Operation (List Job) := do
  keys.forM fun key => do
    let _ ← e.definition key
  atomically do
    let _ ← store (Worlds.require world)
    rebuildJobs world keys

/-! ## Publishing -/

/-- The required fields of a module that stand in the way of publication. -/
def violationsOf (definition : ModuleDefinition) (m : WorldModule) :
    List (String × String × FieldViolation) :=
  definition.requiredFields.filterMap fun f =>
    (f.violation? (m.field? f.key)).map fun v => (definition.key, f.key, v)

/-- Every module of the registry for a world, with what stands in the way of publication. -/
def currentModules (world : WorldId) :
    List ModuleDefinition → Operation (List WorldModule × List (String × String × FieldViolation))
  | [] => return ([], [])
  | d :: rest => do
    let m ← moduleOrNew world d
    let (ms, vs) ← currentModules world rest
    return (m :: ms, violationsOf d m ++ vs)

/-- A module once its content is asked for. -/
def awaiting (owner : OwnerId) (now : Instant) (m : WorldModule) : WorldModule :=
  { m with status := .awaitingGeneration }.touch (some owner) now

/-- Mark the modules that cannot be taken over as awaiting generation; gives the keys of the
modules to generate and of those to reuse. -/
def splitModules (owner : OwnerId) (now : Instant) :
    List WorldModule → Operation (List String × List String)
  | [] => return ([], [])
  | m :: rest => do
    if m.isReusable then
      let (generate, reuse) ← splitModules owner now rest
      return (generate, m.key :: reuse)
    else
      store (Modules.save (awaiting owner now m))
      let (generate, reuse) ← splitModules owner now rest
      return (m.key :: generate, reuse)

/-- Refuse while required fields stand in the way of publication. -/
def ensurePublishable (violations : List (String × String × FieldViolation)) : Operation Unit :=
  if violations.isEmpty then return ()
  else throw (.validation (.violations violations))

/-- Publish a world. -/
def publish (e : Engine) (id : WorldId) (owner : OwnerId) : Operation Publication :=
  atomically do
    let world ← ownedWorld id owner
    let (current, violations) ← currentModules id e.registry.modules
    ensurePublishable violations
    let now ← readClock
    let (generate, reuse) ← splitModules owner now current
    if generate.isEmpty then
      let world := world.activate now
      store (Worlds.update world)
      tell ⟨.info, .publication, "world activated without generation",
        [("version", .int world.version)]⟩
      return ⟨world, generate, reuse, []⟩
    else
      let world := world.beginGeneration now
      store (Worlds.update world)
      let jobs ← rebuildJobs id generate
      tell ⟨.info, .publication, "world queued for generation",
        [("generate", .nat generate.length), ("reuse", .nat reuse.length)]⟩
      return ⟨world, generate, reuse, jobs⟩

end Engine

end Lorebook
