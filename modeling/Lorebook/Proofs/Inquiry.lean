import Lorebook.Proofs.Interleaving

set_option autoImplicit false

/-! # What is asked of a generator

Generating a module, refining a field and processing the queue ask a generator at most once each. An
`Inquiry` is how far an operation comes by itself: to its end, or to a request from which the reply
takes it on. With a generator, the operation is its inquiry and then the generator's answer to it
(`generateModule_inquiry`, `refineField_inquiry`, `processQueue_inquiry`). So what an inquiry asks
is what every generator is called with, and where it ends by itself no generator is called. -/

namespace Lorebook

open Studio Operation

/-! ## Inquiries -/

/-- How far an operation comes by itself. -/
inductive Inquiry (α : Type) where
  | ended (result : α)
  /-- The generator is asked, and its reply takes the operation on. -/
  | asks (request : GenerationRequest) (goOn : GenerationReply → StateM Studio α)

namespace Inquiry

variable {α : Type}

/-- What the generator is asked, if it is asked. -/
def request? : Inquiry α → Option GenerationRequest
  | ended _ => none
  | asks request _ => some request

/-- Go on with the answer of a generator. -/
def answered (g : Generator (StateM Studio)) (limit : Span) : Inquiry α → StateM Studio α
  | ended result => pure result
  | asks request goOn => do goOn (← g.call limit request)

/-- The inquiry of an operation that gives the request. When the operation fails nothing is
asked. -/
def ofRequest (op : Operation GenerationRequest)
    (goOn : GenerationReply → StateM Studio (Except EngineError α)) :
    StateM Studio (Inquiry (Except EngineError α)) := do
  match ← perform op with
  | .error cause => return .ended (.error cause)
  | .ok request => return .asks request goOn

theorem ofRequest_run (op : Operation GenerationRequest)
    (goOn : GenerationReply → StateM Studio (Except EngineError α)) (s : Studio) :
    ofRequest op goOn s = match op s with
      | (.error cause, t) => (.ended (.error cause), t)
      | (.ok request, t) => (.asks request goOn, t) := by
  unfold ofRequest
  rw [StateM.bind_run, perform_run]
  rcases op s with ⟨cause | request, t⟩ <;> rfl

/-- What an operation asks is the request that it gives. -/
theorem request?_ofRequest {op : Operation GenerationRequest}
    {goOn : GenerationReply → StateM Studio (Except EngineError α)} {s : Studio}
    {request : GenerationRequest} :
    (ofRequest op goOn s).1.request? = some request ↔ ∃ t, Yields op s request t := by
  rw [ofRequest_run]
  constructor
  · intro h
    rcases hop : op s with ⟨cause | asked, t⟩
    · rw [hop] at h
      cases h
    · rw [hop] at h
      cases h
      exact ⟨t, hop⟩
  · rintro ⟨t, h⟩
    rw [show op s = (.ok request, t) from h]
    rfl

/-- An operation that fails asks nothing. -/
theorem ofRequest_of_fails {op : Operation GenerationRequest}
    {goOn : GenerationReply → StateM Studio (Except EngineError α)} {s t : Studio}
    {cause : EngineError} (h : Fails op s cause t) :
    ofRequest op goOn s = (.ended (.error cause), t) := by
  rw [ofRequest_run, show op s = (.error cause, t) from h]

end Inquiry

/-! ## The operations that ask -/

namespace Engine

/-- Generating a module, up to the request. -/
def draftInquiry (e : Engine) (id : WorldId) (module : String) (owner : OwnerId) :
    StateM Studio (Inquiry (Except EngineError WorldModule)) :=
  match e.registry.require module with
  | .error err => pure (.ended (.error (.ofRegistry err)))
  | .ok d =>
    Inquiry.ofRequest (e.draftRequest id d owner) fun reply =>
      perform (acceptDraft id d owner reply)

theorem generateModule_inquiry (e : Engine) (g : Generator (StateM Studio)) (id : WorldId)
    (module : String) (owner : OwnerId) :
    e.generateModule g id module owner =
      e.draftInquiry id module owner >>= Inquiry.answered g e.timeout := by
  funext s
  unfold generateModule draftInquiry
  rcases e.registry.require module with err | d
  · rfl
  · simp only
    rw [StateM.bind_run, StateM.bind_run, perform_run, Inquiry.ofRequest_run]
    rcases e.draftRequest id d owner s with ⟨cause | request, t⟩ <;> rfl

/-- Refining a field, up to the request. -/
def refineInquiry (e : Engine) (id : WorldId) (module field : String) (owner : OwnerId)
    (text : String) (instruction : Option String) :
    StateM Studio (Inquiry (Except EngineError String)) :=
  if Text.isBlank text then pure (.ended (.error (.validation .blankText)))
  else
    match e.registry.require module, e.registry.requireField module field with
    | .error err, _ => pure (.ended (.error (.ofRegistry err)))
    | _, .error err => pure (.ended (.error (.ofRegistry err)))
    | .ok d, .ok f =>
      Inquiry.ofRequest (e.refineRequest id d f owner text instruction) fun reply =>
        pure (refinedText reply)

theorem refineField_inquiry (e : Engine) (g : Generator (StateM Studio)) (id : WorldId)
    (module field : String) (owner : OwnerId) (text : String) (instruction : Option String) :
    e.refineField g id module field owner text instruction =
      e.refineInquiry id module field owner text instruction >>= Inquiry.answered g e.timeout := by
  funext s
  unfold refineField refineInquiry
  by_cases hblank : Text.isBlank text = true
  · rw [if_pos hblank, if_pos hblank]
    rfl
  rw [if_neg hblank, if_neg hblank]
  rcases e.registry.require module with err | d
  · rfl
  rcases e.registry.requireField module field with err | f
  · rfl
  simp only
  rw [StateM.bind_run, StateM.bind_run, perform_run, Inquiry.ofRequest_run]
  rcases e.refineRequest id d f owner text instruction s with ⟨cause | request, t⟩ <;> rfl

/-- Running a leased job, up to the request. A job for which nothing can be asked is settled. -/
def jobInquiry (e : Engine) (job : Job) : StateM Studio (Inquiry QueueOutcome) := do
  match ← e.askFor job with
  | .error cause => return .ended (← settle job (.error cause))
  | .ok request => return .asks request fun reply => settle job (contentOf reply)

/-- What is asked for a job is the request that is read for it. -/
theorem request?_jobInquiry {e : Engine} {job : Job} {s : Studio} {request : GenerationRequest} :
    (e.jobInquiry job s).1.request? = some request ↔
      ∃ t, Yields (e.requestFor job) s request t := by
  unfold jobInquiry askFor
  rw [StateM.bind_run, StateM.bind_run, perform_run]
  constructor
  · intro h
    rcases hrun : e.requestFor job s with ⟨cause | asked, t⟩
    · rw [hrun] at h
      cases h
    · rw [hrun] at h
      cases h
      exact ⟨t, hrun⟩
  · rintro ⟨t, h⟩
    rw [show e.requestFor job s = (.ok request, t) from h]
    rfl

/-- Processing the queue once, up to the request. -/
def queueInquiry (e : Engine) : StateM Studio (Inquiry QueueOutcome) := do
  match ← takeJob with
  | .error cause => return .ended (.storeUnavailable cause.message)
  | .ok none => return .ended .idle
  | .ok (some job) => e.jobInquiry job

theorem runJob_inquiry (e : Engine) (g : Generator (StateM Studio)) (job : Job) :
    e.runJob g job = e.jobInquiry job >>= Inquiry.answered g e.timeout := by
  funext s
  unfold runJob jobInquiry
  rw [StateM.bind_run, StateM.bind_run, StateM.bind_run]
  rcases (e.askFor job : StateM Studio _) s with ⟨cause | request, t⟩ <;> rfl

theorem processQueue_inquiry (e : Engine) (g : Generator (StateM Studio)) :
    e.processQueue g = e.queueInquiry >>= Inquiry.answered g e.timeout := by
  funext s
  unfold processQueue queueInquiry
  rw [StateM.bind_run, StateM.bind_run, StateM.bind_run]
  rcases (takeJob : StateM Studio _) s with ⟨cause | _ | job, t⟩
  · rfl
  · rfl
  · show e.runJob g job t = _
    rw [runJob_inquiry]
    rfl

end Engine

end Lorebook
