import Lorebook.Engine.Drafting
import Lorebook.Engine.Recovery
import Lorebook.Engine.Editing
import Lorebook.Engine.Snapshot
import Lorebook.Proofs.Runs

set_option autoImplicit false

/-! # Calls that interleave

While a call of the queue waits for its generator, anything else may be committed. A `System` is the
studio together with the calls in flight, each at the transaction that it has committed last; an
`Event` is the next transaction of one of them, a new call, an operation that is one transaction, or
the clock being set. A run is a list of events, so every order of transactions is the order of some
run, and what the generator answers comes with the events.

The transactions of a call are those of `Engine.processQueue` and, for a draft, those of
`Engine.generateModule`, which `processQueue_eq` and `generateModule_eq` say. -/

namespace Lorebook

open Studio Operation Engine

/-! ## Calls of the queue -/

theorem StateM.bind_run {σ α β : Type} (x : StateM σ α) (f : α → StateM σ β) (s : σ) :
    (x >>= f) s = f (x s).1 (x s).2 := rfl

/-- Taking a job leases it. -/
theorem takeJob_run (s : Studio) :
    (takeJob : StateM Studio _) s =
      match leaseNext s with
      | (.ok (some job), t) => (.ok (some job), t.told ⟨.info, .queue, "job leased",
          jobFields job ++ [("world_id", .str job.world.text), ("attempt", .nat job.attempts)]⟩)
      | (.ok none, t) => (.ok none, t)
      | (.error cause, t) => (.error cause, t.told ⟨.error, .queue, "failed to lease next job",
          [("error", .str cause.message)]⟩) := by
  unfold takeJob
  rw [StateM.bind_run, perform_run]
  rcases leaseNext s with ⟨cause | _ | job, t⟩ <;> rfl

/-- Recording content completes the job. -/
theorem recordSuccess_run (job : Job) (content : String) (s : Studio) :
    (recordSuccess job content : StateM Studio _) s =
      match complete job content s with
      | (.ok activated, t) => (.ok (.succeeded job.id job.world job.moduleKey activated),
          t.told ⟨.info, .queue, "job succeeded", jobFields job⟩)
      | (.error cause, t) => (.error cause, t) := by
  unfold recordSuccess
  rw [StateM.bind_run, perform_run]
  rcases complete job content s with ⟨cause | activated, t⟩ <;> rfl

/-- Recording a failure fails the job. -/
theorem recordFailure_run (job : Job) (cause : EngineError) (s : Studio) :
    (recordFailure job cause : StateM Studio _) s =
      match fail job cause.message (s.told ⟨.warn, .queue, "job failed",
        jobFields job ++ [("kind", .str cause.kind), ("error", .str cause.message)]⟩) with
      | (.ok (), t) => (.ok (.failed job.id job.world job.moduleKey cause.message), t)
      | (.error cause, t) => (.error cause, t) := by
  unfold recordFailure
  rw [StateM.bind_run, StateM.bind_run, perform_run]
  show _ = match fail job cause.message (tell (m := StateM Studio) _ s).2 with
    | (.ok (), t) => _
    | (.error cause, t) => _
  rcases fail job cause.message (tell (m := StateM Studio) _ s).2 with ⟨cause | _, t⟩ <;> rfl

/-- Discarding a result frees the lease, if what the result was for is gone. -/
theorem discard_run (job : Job) (cause : EngineError) (s : Studio) :
    (discard job cause : StateM Studio _) s =
      if cause.isLoss then
        match release job cause (s.told (errorEvent .warn "lease lost, result discarded" job cause))
          with
        | (.ok true, t) => (.leaseLost job.id, t.told ⟨.warn, .queue,
            "lease released after discarded result", [("job_id", .str job.id.text)]⟩)
        | (.ok false, t) => (.leaseLost job.id, t)
        | (.error err, t) =>
          (.leaseLost job.id, t.told (errorEvent .error "failed to release lease" job err))
      else (.storeUnavailable cause.message,
        s.told (errorEvent .error "failed to record job result" job cause)) := by
  unfold Engine.discard
  by_cases hloss : cause.isLoss = true
  · rw [if_pos hloss, if_pos hloss, StateM.bind_run, StateM.bind_run, perform_run]
    show _ = match release job cause (tell (m := StateM Studio) _ s).2 with
      | (.ok true, t) => _
      | (.ok false, t) => _
      | (.error err, t) => _
    rcases release job cause (tell (m := StateM Studio) _ s).2 with ⟨err | _ | _, t⟩ <;> rfl
  · rw [if_neg hloss, if_neg hloss]
    rfl

/-- Where a call of the queue stands. -/
inductive CallStage where
  /-- The job is leased. -/
  | leased
  /-- The prompt is read, and the generator is asked. -/
  | asked (request : GenerationRequest)
  /-- Nothing could be asked; the failure is recorded next. -/
  | refused (cause : EngineError)
  /-- The result could not be recorded; it is discarded next. -/
  | discarding (cause : EngineError)
  | ended (outcome : QueueOutcome)

/-- A call of the queue, with what it has seen so far. -/
structure QueueCall where
  /-- The job as it was leased. -/
  job : Job
  stage : CallStage
  /-- The studio that the prompt was read from. -/
  promptedOn : Option Studio := none
  /-- The studio that the reply was recorded on, with the reply. -/
  answeredOn : Option (Studio × GenerationReply) := none

namespace QueueCall

/-- A call that has just leased a job. -/
def opened (job : Job) : QueueCall where
  job := job
  stage := .leased

/-- The call reads its prompt. -/
def ask (e : Engine) (c : QueueCall) (s : Studio) : QueueCall × Studio :=
  match c.stage with
  | .leased =>
    match (e.askFor c.job : StateM Studio _) s with
    | (.ok request, t) => ({ c with stage := .asked request, promptedOn := some s }, t)
    | (.error cause, t) => ({ c with stage := .refused cause }, t)
  | _ => (c, s)

/-- The call records its content, or why there is none. -/
def record (content : Except EngineError String) (c : QueueCall) (s : Studio) :
    QueueCall × Studio :=
  match (Engine.record c.job content : StateM Studio _) s with
  | (.ok outcome, t) => ({ c with stage := .ended outcome }, t)
  | (.error cause, t) => ({ c with stage := .discarding cause }, t)

/-- The call settles its job: with the generator's reply, or with the failure to ask for one. -/
def settle (reply : GenerationReply) (c : QueueCall) (s : Studio) : QueueCall × Studio :=
  match c.stage with
  | .asked _ => { c with answeredOn := some (s, reply) }.record (contentOf reply) s
  | .refused cause => c.record (.error cause) s
  | _ => (c, s)

/-- The call discards a result that could not be recorded, and frees its lease. -/
def release (c : QueueCall) (s : Studio) : QueueCall × Studio :=
  match c.stage with
  | .discarding cause =>
    match (discard c.job cause : StateM Studio _) s with
    | (outcome, t) => ({ c with stage := .ended outcome }, t)
  | _ => (c, s)

/-- What the call came to; idle as long as it has not ended. -/
def outcome (c : QueueCall) : QueueOutcome :=
  match c.stage with
  | .ended outcome => outcome
  | _ => .idle

/-- Recording and then discarding what could not be recorded settles a job. -/
theorem settle_eq (c : QueueCall) (content : Except EngineError String) (s : Studio) :
    (Engine.settle c.job content : StateM Studio _) s =
      (((c.record content s).1.release (c.record content s).2).1.outcome,
        ((c.record content s).1.release (c.record content s).2).2) := by
  unfold Engine.settle QueueCall.record
  rw [StateM.bind_run]
  rcases (Engine.record c.job content : StateM Studio _) s with ⟨cause | outcome, t⟩
  · rfl
  · rfl

end QueueCall

/-- What a generator answers in a call that has asked it, and what else happens meanwhile. -/
def CallStage.answer (e : Engine) (generator : Generator (StateM Studio)) :
    CallStage → Studio → GenerationReply × Studio
  | .asked request, s => generator.call e.timeout request s
  | _, s => (.error .emptyResponse, s)

/-- Processing the queue once is leasing, asking, settling and discarding one after the other, with
whatever happens while the generator is asked. -/
theorem processQueue_eq (e : Engine) (generator : Generator (StateM Studio)) (s : Studio) :
    e.processQueue generator s =
      match (takeJob : StateM Studio _) s with
      | (.error cause, t) => (.storeUnavailable cause.message, t)
      | (.ok none, t) => (.idle, t)
      | (.ok (some job), t) =>
        let (c, t) := (QueueCall.opened job).ask e t
        let (reply, t) := c.stage.answer e generator t
        let (c, t) := c.settle reply t
        let (c, t) := c.release t
        (c.outcome, t) := by
  unfold processQueue
  rw [StateM.bind_run]
  rcases (takeJob : StateM Studio _) s with ⟨cause | _ | job, t⟩
  · rfl
  · rfl
  · show e.runJob generator job t = _
    unfold runJob
    rw [StateM.bind_run]
    -- A call that has nothing to ask settles without its generator.
    rcases hask : (e.askFor job : StateM Studio _) t with ⟨cause | request, u⟩
    · have hcall : (QueueCall.opened job).ask e t =
          ({ QueueCall.opened job with stage := .refused cause }, u) := by
        simp only [QueueCall.ask, QueueCall.opened, hask]
      simp only [hcall]
      exact QueueCall.settle_eq { QueueCall.opened job with stage := .refused cause } _ u
    · have hcall : (QueueCall.opened job).ask e t =
          ({ QueueCall.opened job with stage := .asked request, promptedOn := some t }, u) := by
        simp only [QueueCall.ask, QueueCall.opened, hask]
      simp only [hcall, CallStage.answer]
      rw [StateM.bind_run]
      rcases (generator.call e.timeout request : StateM Studio _) u with ⟨reply, v⟩
      exact QueueCall.settle_eq { QueueCall.opened job with
        stage := .asked request, promptedOn := some t, answeredOn := some (v, reply) } _ v

/-! ## Calls for drafts -/

/-- Where a call for a draft stands. -/
inductive DraftStage where
  /-- The world and its modules are loaded. -/
  | loaded (scope : World × WorldModule × List WorldModule)
  | asked (request : GenerationRequest)
  | ended (result : Except EngineError WorldModule)

/-- A call for a draft of a module. -/
structure DraftCall where
  world : WorldId
  definition : ModuleDefinition
  owner : OwnerId
  stage : DraftStage

namespace DraftCall

/-- The call makes sure that its module is not queued, and asks. -/
def ask (e : Engine) (c : DraftCall) (s : Studio) : DraftCall × Studio :=
  match c.stage with
  | .loaded scope =>
    match e.draftRequestIn c.world c.definition scope s with
    | (.ok request, t) => ({ c with stage := .asked request }, t)
    | (.error cause, t) => ({ c with stage := .ended (.error cause) }, t)
  | _ => (c, s)

/-- The call merges the generator's reply. -/
def merge (reply : GenerationReply) (c : DraftCall) (s : Studio) : DraftCall × Studio :=
  match c.stage with
  | .asked _ =>
    match acceptDraft c.world c.definition c.owner reply s with
    | (result, t) => ({ c with stage := .ended result }, t)
  | _ => (c, s)

/-- What the call came to; an empty response as long as it has not ended. -/
def result (c : DraftCall) : Except EngineError WorldModule :=
  match c.stage with
  | .ended result => result
  | _ => .error (.generation .emptyResponse)

end DraftCall

/-- What a generator answers in a call for a draft that has asked it. -/
def DraftStage.answer (e : Engine) (generator : Generator (StateM Studio)) :
    DraftStage → Studio → GenerationReply × Studio
  | .asked request, s => generator.call e.timeout request s
  | _, s => (.error .emptyResponse, s)

/-- Generating a module is loading its world, asking and merging one after the other, with whatever
happens while the generator is asked. -/
theorem generateModule_eq (e : Engine) (generator : Generator (StateM Studio)) (world : WorldId)
    (module : String) (owner : OwnerId) (s : Studio) :
    e.generateModule generator world module owner s =
      match e.registry.require module with
      | .error err => (.error (.ofRegistry err), s)
      | .ok d =>
        match loadScope world owner d s with
        | (.error cause, t) => (.error cause, t)
        | (.ok scope, t) =>
          let (c, t) := (DraftCall.mk world d owner (.loaded scope)).ask e t
          let (reply, t) := c.stage.answer e generator t
          let (c, t) := c.merge reply t
          (c.result, t) := by
  unfold generateModule
  rcases e.registry.require module with err | d
  · rfl
  simp only
  rw [StateM.bind_run, perform_run, draftRequest, bind_run]
  rcases loadScope world owner d s with ⟨cause | scope, t⟩
  · rfl
  simp only [DraftCall.ask]
  rcases e.draftRequestIn world d scope t with ⟨cause | request, u⟩
  · rfl
  simp only [DraftStage.answer]
  rw [StateM.bind_run]
  rcases generator.call e.timeout request u with ⟨reply, v⟩
  rfl

/-- Generating a module ends with accepting the reply, with whatever the generator did before. -/
theorem Engine.accepted_of_generateModule {e : Engine} {g : Generator (StateM Studio)}
    {world : WorldId} {module : String} {owner : OwnerId} {s t : Studio} {m : WorldModule}
    (h : e.generateModule g world module owner s = (.ok m, t)) :
    ∃ d reply u, e.registry.require module = .ok d ∧
      Yields (acceptDraft world d owner reply) u m t := by
  unfold generateModule at h
  cases hd : e.registry.require module with
  | error err =>
    rw [hd] at h
    cases h
  | ok d =>
    rw [hd] at h
    simp only at h
    rw [StateM.bind_run, perform_run] at h
    rcases hrequest : e.draftRequest world d owner s with ⟨cause | request, u⟩
    · rw [hrequest] at h
      cases h
    · rw [hrequest] at h
      exact ⟨d, _, _, rfl, h⟩

/-! ## Systems -/

/-- The studio and the calls in flight. -/
structure System where
  studio : Studio
  calls : List QueueCall
  drafts : List DraftCall

/-- The operations that are one transaction, or none. -/
inductive Command where
  | createWorld (owner : OwnerId) (name : String) (tagline : Option String) (themes : List String)
  | saveModuleFields (world : WorldId) (module : String) (owner : OwnerId)
      (fields : List (String × String))
  | publish (world : WorldId) (owner : OwnerId)
  | initializeJobs (world : WorldId) (keys : List String)
  | retryModule (world : WorldId) (module : String) (owner : OwnerId)
  | recoverStaleLeases (timeout : Span)
  | softDelete (world : WorldId)
  | hardDelete (world : WorldId)
  | generationStatus (world : WorldId) (owner : OwnerId)
  | refineField (world : WorldId) (module field : String) (owner : OwnerId) (text : String)
      (instruction : Option String) (reply : GenerationReply)

/-- What a command does. -/
def Command.operation (e : Engine) : Command → Operation Unit
  | createWorld owner name tagline themes => do
    let _ ← Engine.createWorld owner name tagline themes
  | saveModuleFields world module owner fields => do
    let _ ← e.saveModuleFields world module owner fields
  | publish world owner => do
    let _ ← e.publish world owner
  | initializeJobs world keys => do
    let _ ← e.initializeJobs world keys
  | retryModule world module owner => do
    let _ ← e.retryModule world module owner
  | recoverStaleLeases timeout => do
    let _ ← Engine.recoverStaleLeases timeout
  | softDelete world => do
    store (Worlds.softDelete world (← readClock))
  | hardDelete world => do
    let _ ← store (Worlds.hardDelete world)
  | generationStatus world owner => do
    let _ ← e.generationStatus world owner
  | refineField world module field owner text instruction reply => do
    let _ ← ExceptT.mk (e.refineField (fun _ _ => pure (some reply)) world module field owner text
      instruction)

/-- What can happen next. -/
inductive Event where
  /-- The clock is set. -/
  | setClock (time : Instant)
  | command (c : Command)
  /-- A new call of the queue leases a job, if there is one to lease. -/
  | lease
  /-- A call of the queue reads its prompt. -/
  | ask (call : Nat)
  /-- The generator answers a call of the queue, which settles its job. -/
  | settle (call : Nat) (reply : GenerationReply)
  /-- A call of the queue discards its result. -/
  | release (call : Nat)
  /-- A new call for a draft loads its world. -/
  | openDraft (world : WorldId) (module : String) (owner : OwnerId)
  | askDraft (draft : Nat)
  | mergeDraft (draft : Nat) (reply : GenerationReply)

namespace System

/-- An empty database before anything has happened. -/
def initial : System where
  studio := { db := .empty, minted := 0, clock := .ofDay 0, log := [] }
  calls := []
  drafts := []

/-- A call of the queue goes on, if there is one of the number. -/
def onCall (f : QueueCall → Studio → QueueCall × Studio) (i : Nat) (s : System) : System :=
  match s.calls[i]? with
  | some c => { s with studio := (f c s.studio).2, calls := s.calls.set i (f c s.studio).1 }
  | none => s

/-- A call for a draft goes on, if there is one of the number. -/
def onDraft (f : DraftCall → Studio → DraftCall × Studio) (i : Nat) (s : System) : System :=
  match s.drafts[i]? with
  | some c => { s with studio := (f c s.studio).2, drafts := s.drafts.set i (f c s.studio).1 }
  | none => s

/-- A call of the queue begins. -/
def lease (s : System) : System :=
  match (takeJob : StateM Studio _) s.studio with
  | (.ok (some job), t) => { s with studio := t, calls := s.calls ++ [.opened job] }
  | (_, t) => { s with studio := t }

/-- A call for a draft begins. -/
def openDraft (e : Engine) (world : WorldId) (module : String) (owner : OwnerId) (s : System) :
    System :=
  match e.registry.require module with
  | .error _ => s
  | .ok d =>
    match loadScope world owner d s.studio with
    | (.ok scope, t) =>
      { s with studio := t, drafts := s.drafts ++ [⟨world, d, owner, .loaded scope⟩] }
    | (.error _, t) => { s with studio := t }

/-- What an event makes of a system. -/
def step (e : Engine) (s : System) : Event → System
  | .setClock time => { s with studio := { s.studio with clock := time } }
  | .command c => { s with studio := (c.operation e s.studio).2 }
  | .lease => s.lease
  | .ask i => s.onCall (·.ask e) i
  | .settle i reply => s.onCall (·.settle reply) i
  | .release i => s.onCall (·.release) i
  | .openDraft world module owner => s.openDraft e world module owner
  | .askDraft i => s.onDraft (·.ask e) i
  | .mergeDraft i reply => s.onDraft (·.merge reply) i

/-- The system after a list of events, the first one first. -/
def run (e : Engine) (events : List Event) : System :=
  events.foldl (step e) initial

theorem run_append (e : Engine) (events : List Event) (ev : Event) :
    run e (events ++ [ev]) = (run e events).step e ev :=
  List.foldl_append

/-- What holds of the empty system and is kept by the events of a list holds after them. -/
theorem run_induction_of {e : Engine} {P : System → Prop} (hinit : P initial) {events : List Event}
    (hstep : ∀ s, ∀ ev ∈ events, P s → P (step e s ev)) : P (run e events) := by
  -- The fold starts anywhere, so the induction is over the rest of the events from any system.
  have hfold (evs : List Event) (hevs : ∀ ev ∈ evs, ev ∈ events) {s : System} (h : P s) :
      P (evs.foldl (step e) s) := by
    induction evs generalizing s with
    | nil => exact h
    | cons ev evs ih =>
      exact ih (fun v hv => hevs v (List.mem_cons_of_mem ev hv))
        (hstep s ev (hevs ev List.mem_cons_self) h)
  exact hfold events (fun _ hev => hev) hinit

/-- What holds of the empty system and is kept by every event holds after every run. -/
theorem run_induction {e : Engine} {P : System → Prop} (hinit : P initial)
    (hstep : ∀ s ev, P s → P (step e s ev)) (events : List Event) : P (run e events) :=
  run_induction_of hinit fun s ev _ => hstep s ev

end System

/-! ## A minimal engine -/

/-- An engine of one module `m`, which has one field `f` that may be left blank. Its prompts are all
the same. -/
def Engine.minimal : Engine where
  registry := {
    modules := [{ key := "m", label := "M", order := 1, fields := [{ key := "f", label := "F" }] }]
    ne_nil := by simp
    sound := by decide }
  catalog := {
    draft := ⟨[.literal "prompt"]⟩
    final := ⟨[.literal "prompt"]⟩
    refine := ⟨[.literal "prompt"]⟩
    overrides := [] }
  functions := .empty
  keyring := { fallback := some "key" }
  timeout := .ofSeconds 1
  databaseName := "lore"

namespace Event

/-- An owner of a minimal engine's worlds creates the world of the first name. -/
def createFirst : Event := .command (.createWorld ⟨"owner"⟩ "World" none [])

/-- The owner publishes the world of the first name. -/
def publishFirst : Event := .command (.publish (.mint 0) ⟨"owner"⟩)

end Event

end Lorebook
