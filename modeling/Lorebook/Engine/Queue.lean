import Lorebook.Engine.Publication

set_option autoImplicit false

/-! # The generation queue

Processing the queue takes one job through its life: `leaseNext` takes it, `requestFor` reads what
the generator is to be asked, the generator answers, and `complete` or `fail` settles the job. Each
of these is an operation of its own, so other operations may come between them; a result whose lease
or world is gone by then is discarded, and `release` frees the lease if it is still held. -/

namespace Lorebook

/-- What processing the queue once came to. -/
inductive QueueOutcome where
  /-- No job could be leased. -/
  | idle
  | succeeded (job : JobId) (world : WorldId) (module : String) (activated : Bool)
  | failed (job : JobId) (world : WorldId) (module message : String)
  /-- The lease or the world was gone; the result was discarded. -/
  | leaseLost (job : JobId)
  /-- The database could not be read or written. -/
  | storeUnavailable (message : String)
deriving DecidableEq, Repr

namespace QueueOutcome

/-- Whether no job could be leased. -/
def isIdle : QueueOutcome → Bool
  | .idle => true
  | _ => false

/-- Whether there is nothing to do for now. -/
def isPause : QueueOutcome → Bool
  | .idle => true
  | .storeUnavailable _ => true
  | _ => false

end QueueOutcome

namespace Engine

open Studio Operation

/-! ## Transactions -/

/-- Set the status of a job's module, if it is stored. -/
def markModule (job : Job) (status : ModuleStatus) (now : Instant) : Operation Unit := do
  match ← store (Modules.find? job.world job.moduleKey) with
  | some m => store (Modules.save ({ m with status := status }.touch none now))
  | none => return ()

/-- Lease the next job, if there is one that can be leased. -/
def leaseNext : Operation (Option Job) :=
  atomically do
    let now ← readClock
    match ← store (Jobs.leaseNext now) with
    | none => return none
    | some job =>
      markModule job .generating now
      return some job

/-- What the generator is to be asked for a job. Nothing is changed. -/
def requestFor (e : Engine) (job : Job) : Operation GenerationRequest := do
  let definition ← e.definition job.moduleKey
  let (world, siblings) ← store do
    return (← Worlds.require job.world, ← Modules.listForWorld job.world)
  match siblings.find? (·.key == job.moduleKey) with
  | none => throw (.notFound (.moduleKey job.moduleKey))
  | some m =>
    let input : ContextInput :=
      { world := world, definition := definition, module := m, others := siblings }
    let prompt ← e.renderPrompt .final definition.key (Context.final input e.registry)
    let credentials ← e.credentialsFor world
    return { prompt := prompt, credentials := credentials }

/-- A module with the content that was generated from its current fields. -/
def completed (content : String) (now : Instant) (m : WorldModule) : WorldModule :=
  { m with
    content := some content
    hash := some (contentHash m.fields)
    status := .completed }.touch none now

/-- Settle a job as succeeded and store the content. The world is activated when no job of it is
outstanding any more; tells whether it was. -/
def complete (job : Job) (content : String) : Operation Bool :=
  atomically do
    let now ← readClock
    -- A world that was deleted in the meantime gets nothing.
    let world ← store (Worlds.require job.world)
    store (Jobs.markSucceeded job.id now)
    let m ← store (Modules.require job.world job.moduleKey)
    store (Modules.save (completed content now m))
    if 0 < (← store (Jobs.countOutstanding job.world)) then return false
    let world := world.activate now
    store (Worlds.update world)
    tell ⟨.info, .queue, "world activated",
      [("world_id", .str world.id.text), ("version", .int world.version)]⟩
    return true

/-- Settle a job as failed, with its module. -/
def fail (job : Job) (message : String) : Operation Unit :=
  atomically do
    let now ← readClock
    store (Jobs.markFailed job.id message now)
    markModule job .failed now

/-- Fail a job whose result was discarded if it still holds its lease; tells whether it did. -/
def release (job : Job) (cause : EngineError) : Operation Bool :=
  atomically do
    let now ← readClock
    match ← statement (Jobs.markFailed job.id s!"result discarded: {cause.message}" now) with
    | .error (.conflict _) => return false
    | .error (.notFound _) => return false
    | .error e => throw (.ofStore e)
    | .ok () =>
      markModule job .failed now
      return true

/-! ## Processing -/

variable {m : Type → Type} [Monad m] [MonadStateOf Studio m]

/-- The values of an event about a job. -/
def jobFields (job : Job) : List (String × Json) :=
  [("job_id", .str job.id.text), ("module_key", .str job.moduleKey)]

/-- An event about a job and an error. -/
def errorEvent (level : LogLevel) (message : String) (job : Job) (e : EngineError) : LogEvent :=
  ⟨level, .queue, message, [("job_id", .str job.id.text), ("error", .str e.message)]⟩

/-- Discard a result that could not be recorded. -/
def discard (job : Job) (e : EngineError) : m QueueOutcome := do
  if e.isLoss then
    tell (errorEvent .warn "lease lost, result discarded" job e)
    match ← perform (release job e) with
    | .ok true =>
      tell ⟨.warn, .queue, "lease released after discarded result", [("job_id", .str job.id.text)]⟩
    | .ok false => pure ()
    | .error e => tell (errorEvent .error "failed to release lease" job e)
    return .leaseLost job.id
  else
    tell (errorEvent .error "failed to record job result" job e)
    return .storeUnavailable e.message

/-- Record the content of a job; gives what stood in the way, if something did. -/
def recordSuccess (job : Job) (content : String) : m (Except EngineError QueueOutcome) := do
  match ← perform (complete job content) with
  | .ok activated =>
    tell ⟨.info, .queue, "job succeeded", jobFields job⟩
    return .ok (.succeeded job.id job.world job.moduleKey activated)
  | .error e => return .error e

/-- Record the failure of a job; gives what stood in the way, if something did. -/
def recordFailure (job : Job) (cause : EngineError) : m (Except EngineError QueueOutcome) := do
  tell ⟨.warn, .queue, "job failed",
    jobFields job ++ [("kind", .str cause.kind), ("error", .str cause.message)]⟩
  match ← perform (fail job cause.message) with
  | .ok () => return .ok (.failed job.id job.world job.moduleKey cause.message)
  | .error e => return .error e

/-- Record what a job's call came to: its content, or why there is none. -/
def record (job : Job) (content : Except EngineError String) :
    m (Except EngineError QueueOutcome) :=
  match content with
  | .ok content => recordSuccess job content
  | .error cause => recordFailure job cause

/-- Settle a job by what its call came to. -/
def settle (job : Job) (content : Except EngineError String) : m QueueOutcome := do
  match ← record job content with
  | .ok outcome => return outcome
  | .error e => discard job e

/-- The content that a reply gives: its text without the white space around it, unless that is all
there is. -/
def contentOf (reply : GenerationReply) : Except EngineError String :=
  match reply with
  | .error e => .error (.generation e)
  | .ok text =>
    match Text.trimmed? text with
    | some content => .ok content
    | none => .error (.generation .emptyResponse)

/-- Read what the generator is to be asked for a job. -/
def askFor (e : Engine) (job : Job) : m (Except EngineError GenerationRequest) := do
  match ← perform (e.requestFor job) with
  | .error cause => return .error cause
  | .ok request =>
    tell ⟨.debug, .queue, "calling generator",
      [("job_id", .str job.id.text), ("prompt_chars", .nat request.prompt.utf8ByteSize)]⟩
    return .ok request

/-- Run a leased job to its end. -/
def runJob (e : Engine) (generator : Generator m) (job : Job) : m QueueOutcome := do
  match ← e.askFor job with
  | .error cause => settle job (.error cause)
  | .ok request => settle job (contentOf (← generator.call e.timeout request))

/-- Lease the next job. -/
def takeJob : m (Except EngineError (Option Job)) := do
  match ← perform leaseNext with
  | .error cause =>
    tell ⟨.error, .queue, "failed to lease next job", [("error", .str cause.message)]⟩
    return .error cause
  | .ok none => return .ok none
  | .ok (some job) =>
    tell ⟨.info, .queue, "job leased",
      jobFields job ++ [("world_id", .str job.world.text), ("attempt", .nat job.attempts)]⟩
    return .ok (some job)

/-- Lease the next job and run it to its end. Every problem ends up on the job or in the outcome. -/
def processQueue (e : Engine) (generator : Generator m) : m QueueOutcome := do
  match ← takeJob with
  | .error cause => return .storeUnavailable cause.message
  | .ok none => return .idle
  | .ok (some job) => e.runJob generator job

end Engine

end Lorebook
