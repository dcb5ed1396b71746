import Lorebook.Proofs.Interleaving
import Lorebook.Proofs.Publishing

set_option autoImplicit false

/-! # What events do

`Effect` lists everything that an event can commit: the writes, what stood in the database before
them, and the job of the call that it opens, if it opens one. Every event has one of these effects
(`step_effect`), so an invariant of systems is checked effect by effect. -/

namespace Lorebook

open Studio Operation Engine

/-! ## Effects -/

/-- What an event can do to a system: the jobs of the calls that it opens, and its writes. -/
inductive Effect (e : Engine) (s : System) : Event → List Job → List Write → Prop where
  /-- Nothing is written: there was nothing to do, or the operation failed. -/
  | nothing (ev : Event) : Effect e s ev [] []
  | createWorld {owner : OwnerId} {name : String} {tagline : Option String} {themes : List String}
      {w : World} (hdraft : w.status = .draft) :
      Effect e s (.command (.createWorld owner name tagline themes)) [] [.addWorld w]
  | saveFields {world : WorldId} {module : String} {owner : OwnerId}
      {fields : List (String × String)} {d : ModuleDefinition} {m : WorldModule} {now : Instant}
      (hd : e.registry.require module = .ok d) (hm : CurrentModule s.studio.db world d m) :
      Effect e s (.command (.saveModuleFields world module owner fields)) []
        [.saveModule ((withFields d fields m).touch (some owner) now)]
  /-- A publication that takes over every module. -/
  | activate {id : WorldId} {owner : OwnerId} {w : World} {ms : List WorldModule} {now : Instant}
      (hlive : s.studio.db.LiveWorld id w)
      (hms : CurrentModules s.studio.db id e.registry.modules ms) (hstale : stale ms = []) :
      Effect e s (.command (.publish id owner)) [] [.changeWorld (w.activate now)]
  /-- A publication that queues modules. -/
  | enqueue {id : WorldId} {owner : OwnerId} {w : World} {ms : List WorldModule} {now : Instant}
      {js : List Job} (hlive : s.studio.db.LiveWorld id w)
      (hms : CurrentModules s.studio.db id e.registry.modules ms) (hstale : stale ms ≠ [])
      (hqueue : NewQueue id 1 ((stale ms).map (·.key)) js)
      (hidle : ∀ r ∈ s.studio.db.jobs, r.world = .text id.text → r.hasStatus .running = false) :
      Effect e s (.command (.publish id owner)) []
        ((stale ms).map (fun m => .saveModule (awaiting owner now m)) ++
          .changeWorld (w.beginGeneration now) :: .clearQueue id :: js.map .addJob)
  | rebuild {world : WorldId} {keys : List String} {js : List Job}
      (hqueue : NewQueue world 1 keys js)
      (hidle : ∀ r ∈ s.studio.db.jobs, r.world = .text world.text → r.hasStatus .running = false) :
      Effect e s (.command (.initializeJobs world keys)) [] (.clearQueue world :: js.map .addJob)
  | retry {world : WorldId} {module : String} {owner : OwnerId} {w : World} {job : Job}
      {m : WorldModule} {now : Instant} {r : JobRow} (hlive : s.studio.db.LiveWorld world w)
      (hr : r ∈ s.studio.db.jobs) (hworld : r.world = .text world.text)
      (hkey : r.moduleKey = .text module) (hdecode : r.decode = .ok job)
      (hm : s.studio.db.StoredModule world module m) :
      Effect e s (.command (.retryModule world module owner)) []
        ([.requeue job.id now, .saveModule (awaiting owner now m)] ++
          if w.status = .generating then [] else [.changeWorld (w.beginGeneration now)])
  | sweep {timeout : Span} {ws : List Write} (hws : ∀ w ∈ ws, Expires w) :
      Effect e s (.command (.recoverStaleLeases timeout)) [] ws
  | hide {id : WorldId} {now : Instant} :
      Effect e s (.command (.softDelete id)) [] [.hideWorld id now]
  | remove {id : WorldId} : Effect e s (.command (.hardDelete id)) [] [.removeWorld id]
  | lease {job : Job} {row : JobRow} {now : Instant} {ws : List Write}
      (hdecode : (Jobs.leased (.text (Rfc3339.stored now)) row).decode = .ok job)
      (hmarks : Marks s.studio.db job .generating now ws) :
      Effect e s .lease [job] (.lease row now :: ws)
  /-- A call records its content. -/
  | complete {i : Nat} {reply : GenerationReply} {c : QueueCall} {request : GenerationRequest}
      {content : String} {w : World} {m : WorldModule} {now : Instant} {activated : Bool}
      (hc : s.calls[i]? = some c) (hstage : c.stage = .asked request)
      (hcontent : contentOf reply = .ok content)
      (hlive : s.studio.db.LiveWorld c.job.world w)
      (hm : s.studio.db.StoredModule c.job.world c.job.moduleKey m)
      (hactivated : activated = false ↔ ∃ r ∈ (Write.succeed c.job.id now).onJobs s.studio.db.jobs,
        r.world = .text c.job.world.text ∧
          (r.hasStatus .waiting = true ∨ r.hasStatus .running = true))
      (hcalls : (s.step e (.settle i reply)).calls = s.calls.set i { c with
        stage := .ended (.succeeded c.job.id c.job.world c.job.moduleKey activated)
        answeredOn := some (s.studio, reply) }) :
      Effect e s (.settle i reply) []
        ([.succeed c.job.id now, .saveModule (completed content now m)] ++
          if activated then [.changeWorld (w.activate now)] else [])
  /-- A call records a failure. -/
  | fail {i : Nat} {reply : GenerationReply} {c : QueueCall} {message : String} {now : Instant}
      {ws : List Write} (hc : s.calls[i]? = some c)
      (hmarks : Marks s.studio.db c.job .failed now ws) :
      Effect e s (.settle i reply) [] (.fail c.job.id message now :: ws)
  /-- A call whose result was discarded frees the lease. -/
  | release {i : Nat} {c : QueueCall} {message : String} {now : Instant} {ws : List Write}
      (hc : s.calls[i]? = some c) (hmarks : Marks s.studio.db c.job .failed now ws) :
      Effect e s (.release i) [] (.fail c.job.id message now :: ws)
  | merge {i : Nat} {reply : GenerationReply} {c : DraftCall} {m : WorldModule}
      {proposed : List (String × String)} {now : Instant}
      (hm : CurrentModule s.studio.db c.world c.definition m) :
      Effect e s (.mergeDraft i reply) []
        [.saveModule ((drafted proposed m).touch (some c.owner) now)]

/-! ## Commands -/

theorem sameDb_generationStatus (e : Engine) (id : WorldId) (owner : OwnerId) :
    Respects SameDb (e.generationStatus id owner) :=
  sameDb_atomically (respects_bind (sameDb_ownedWorld id owner) fun _ =>
    respects_bind (respects_store (Jobs.reads_listForWorld id)) fun _ =>
    respects_bind (respects_store (Modules.reads_listForWorld id)) fun _ => respects_pure _)

theorem sameDb_refineRequest (e : Engine) (id : WorldId) (d : ModuleDefinition)
    (field : FieldDefinition) (owner : OwnerId) (text : String) (instruction : Option String) :
    Respects SameDb (e.refineRequest id d field owner text instruction) :=
  respects_bind (sameDb_loadScope id owner d) fun _ =>
    respects_bind (respects_credentialsFor _ _) fun _ =>
    respects_bind (respects_renderPrompt _ _ _ _) fun _ => respects_pure _

/-- Refining a field leaves the database, whatever the generator answers. -/
theorem sameDb_refineField (e : Engine) (id : WorldId) (module field : String) (owner : OwnerId)
    (text : String) (instruction : Option String) (reply : GenerationReply) (s : Studio) :
    SameDb s ((e.refineField (fun _ _ => pure (some reply)) id module field owner text instruction :
      StateM Studio _) s).2 := by
  unfold refineField
  by_cases hblank : Text.isBlank text = true
  · rw [if_pos hblank]
    exact Chain.refl s
  rw [if_neg hblank]
  rcases e.registry.require module with err | d
  · exact Chain.refl s
  rcases e.registry.requireField module field with err | f
  · exact Chain.refl s
  have h := sameDb_refineRequest e id d f owner text instruction s
  simp only
  rw [StateM.bind_run, perform_run]
  rcases hrun : e.refineRequest id d f owner text instruction s with ⟨cause | request, t⟩
  · rw [hrun] at h
    exact h
  · rw [hrun] at h
    exact h

theorem failsClean_operation (e : Engine) (c : Command) : FailsClean (c.operation e) := by
  have hunit {α : Type} {op : Operation α} (h : FailsClean op) :
      FailsClean (do let _ ← op) := by
    intro s err s' hfails
    simp only [fails_bind, fails_pure, and_false, exists_false, or_false] at hfails
    exact h hfails
  cases c with
  | createWorld owner name tagline themes => exact hunit (failsClean_createWorld _ _ _ _)
  | saveModuleFields world module owner fields =>
    exact hunit (failsClean_saveModuleFields _ _ _ _ _)
  | publish world owner => exact hunit (failsClean_publish _ _ _)
  | initializeJobs world keys => exact hunit (failsClean_initializeJobs _ _ _)
  | retryModule world module owner => exact hunit (failsClean_retryModule _ _ _ _)
  | recoverStaleLeases timeout => exact hunit (failsClean_recoverStaleLeases _)
  | softDelete world =>
    exact failsClean_bind respects_readClock fun _ =>
      failsClean_store Worlds.reads_of_fails_softDelete
  | hardDelete world => exact hunit (failsClean_store Worlds.reads_of_fails_hardDelete)
  | generationStatus world owner =>
    exact hunit (failsClean_of_respects (sameDb_generationStatus _ _ _))
  | refineField world module field owner text instruction reply =>
    exact hunit (failsClean_of_respects (sameDb_refineField _ _ _ _ _ _ _ _))

/-- A command that drops what its operation gives leaves the studio that the operation leaves. -/
theorem System.studio_step_command {α : Type} {s : System} {e : Engine} {c : Command}
    {x : Operation α} (hc : c.operation e = do let _ ← x) :
    (s.step e (.command c)).studio = (x s.studio).2 := by
  show (c.operation e s.studio).2 = _
  rw [hc, bind_run]
  rcases x s.studio with ⟨cause | v, t⟩ <;> rfl

/-- A command that drops what its operation gives succeeds as the operation does, or it leaves the
database. -/
theorem System.command_cases {α : Type} (s : System) (e : Engine) {c : Command} {x : Operation α}
    (hc : c.operation e = do let _ ← x) :
    (∃ v, Yields x s.studio v (s.step e (.command c)).studio) ∨
      SameDb s.studio (s.step e (.command c)).studio := by
  show (∃ v, Yields x s.studio v (c.operation e s.studio).2) ∨
    SameDb s.studio (c.operation e s.studio).2
  rcases yields_or_fails (c.operation e) s.studio with ⟨u, t, hrun⟩ | ⟨cause, t, hrun⟩
  · have ht : (c.operation e s.studio).2 = t := congrArg Prod.snd hrun
    rw [hc] at hrun
    simp only [yields_bind, yields_pure] at hrun
    obtain ⟨v, _, hx, -, rfl⟩ := hrun
    exact Or.inl ⟨v, by rw [ht]; exact hx⟩
  · have ht : (c.operation e s.studio).2 = t := congrArg Prod.snd hrun
    exact Or.inr (by rw [ht]; exact failsClean_operation e c hrun)

/-- What a command does. -/
theorem command_effect (e : Engine) (s : System) (c : Command) :
    ∃ ws, Effect e s (.command c) [] ws ∧ Commit s.studio (c.operation e s.studio).2 ws := by
  rcases yields_or_fails (c.operation e) s.studio with ⟨v, t, h⟩ | ⟨cause, t, h⟩
  -- A command that succeeds commits the journal of its operation.
  · have ht : (c.operation e s.studio).2 = t := congrArg Prod.snd h
    rw [ht]
    cases c with
    | createWorld owner name tagline themes =>
      simp only [Command.operation, yields_bind, yields_pure] at h
      obtain ⟨w, _, h, -, rfl⟩ := h
      obtain ⟨hdraft, hcommit⟩ := commit_createWorld h
      exact ⟨_, .createWorld hdraft, hcommit⟩
    | saveModuleFields world module owner fields =>
      simp only [Command.operation, yields_bind, yields_pure] at h
      obtain ⟨m, _, h, -, rfl⟩ := h
      obtain ⟨d, m₀, now, hd, hm, rfl, hcommit⟩ := commit_saveModuleFields h
      exact ⟨_, .saveFields hd hm, hcommit⟩
    | publish world owner =>
      simp only [Command.operation, yields_bind, yields_pure] at h
      obtain ⟨p, _, h, -, rfl⟩ := h
      obtain ⟨w, ms, now, ws, hlive, howner, hms, hgenerate, hreuse, hcommit, hend⟩ :=
        (published_of_publish h).found
      rcases hend with ⟨hnone, _, rfl⟩ | ⟨hsome, hqueue, hidle, rfl⟩
      · have hstale : stale ms = [] := by
          rw [hnone] at hgenerate
          exact List.map_eq_nil_iff.1 hgenerate.symm
        rw [hstale] at hcommit
        exact ⟨_, .activate hlive hms hstale, hcommit⟩
      · rw [hgenerate] at hsome hqueue
        exact ⟨_, .enqueue hlive hms (fun h => hsome (by rw [h]; rfl)) hqueue hidle, hcommit⟩
    | initializeJobs world keys =>
      simp only [Command.operation, yields_bind, yields_pure] at h
      obtain ⟨js, _, h, -, rfl⟩ := h
      obtain ⟨_, hqueue, hidle, hcommit⟩ := commit_initializeJobs h
      exact ⟨_, .rebuild hqueue hidle, hcommit⟩
    | retryModule world module owner =>
      simp only [Command.operation, yields_bind, yields_pure] at h
      obtain ⟨j, _, h, -, rfl⟩ := h
      obtain ⟨w, job, m, now, r, hlive, _, hr, hworld, hkey, hdecode, hm, hcommit⟩ :=
        commit_retryModule h
      exact ⟨_, .retry hlive hr hworld hkey hdecode hm, hcommit⟩
    | recoverStaleLeases timeout =>
      simp only [Command.operation, yields_bind, yields_pure] at h
      obtain ⟨js, _, h, -, rfl⟩ := h
      obtain ⟨ws, hws, hcommit⟩ := commit_recoverStaleLeases h
      exact ⟨_, .sweep hws, hcommit⟩
    | softDelete world =>
      simp only [Command.operation, yields_bind, yields_readClock, yields_store] at h
      obtain ⟨now, _, ⟨rfl, rfl⟩, db, hdelete, rfl⟩ := h
      exact ⟨_, .hide, Commit.of_sameDb_trans (StudioChain.ticked _)
        (Commit.of_store (Worlds.journal_softDelete hdelete) (by simp))⟩
    | hardDelete world =>
      simp only [Command.operation, yields_bind, yields_store, yields_pure] at h
      obtain ⟨found, _, ⟨db, hdelete, rfl⟩, -, rfl⟩ := h
      have hjournal := Worlds.journal_hardDelete hdelete
      cases found with
      | false => exact ⟨[], .nothing _, Commit.of_store hjournal (by simp)⟩
      | true => exact ⟨_, .remove, Commit.of_store hjournal (by simp)⟩
    | generationStatus world owner =>
      simp only [Command.operation, yields_bind, yields_pure] at h
      obtain ⟨_, _, h, -, rfl⟩ := h
      exact ⟨[], .nothing _, Commit.of_sameDb ((sameDb_generationStatus _ _ _).of_yields h)⟩
    | refineField world module field owner text instruction reply =>
      simp only [Command.operation, yields_bind, yields_pure] at h
      obtain ⟨_, _, h, -, rfl⟩ := h
      exact ⟨[], .nothing _, Commit.of_sameDb
        (Respects.of_yields (sameDb_refineField _ _ _ _ _ _ _ _) h)⟩
  -- One that fails is rolled back.
  · have ht : (c.operation e s.studio).2 = t := congrArg Prod.snd h
    rw [ht]
    exact ⟨[], .nothing _, Commit.of_sameDb (failsClean_operation e c h)⟩

/-! ## Transactions of calls -/

/-- Reading what to ask for a job leaves the database. -/
theorem sameDb_askFor (e : Engine) (job : Job) (s : Studio) :
    SameDb s ((e.askFor job : StateM Studio _) s).2 := by
  have h := respects_requestFor (R := SameDb) e job s
  unfold askFor
  rw [StateM.bind_run, perform_run]
  rcases hrun : e.requestFor job s with ⟨cause | request, t⟩
  · rw [hrun] at h
    exact h
  · rw [hrun] at h
    exact Chain.trans h (StudioChain.told t _)

namespace QueueCall

/-- Asking leaves the database, and the call its job. -/
theorem sameDb_ask (e : Engine) (c : QueueCall) (s : Studio) :
    SameDb s (c.ask e s).2 ∧ (c.ask e s).1.job = c.job := by
  have h := sameDb_askFor e c.job s
  unfold ask
  cases c.stage with
  | leased =>
    simp only
    rcases hrun : (e.askFor c.job : StateM Studio _) s with ⟨cause | request, t⟩
    · rw [hrun] at h
      exact ⟨h, rfl⟩
    · rw [hrun] at h
      exact ⟨h, rfl⟩
  | asked request => exact ⟨Chain.refl s, rfl⟩
  | refused cause => exact ⟨Chain.refl s, rfl⟩
  | discarding cause => exact ⟨Chain.refl s, rfl⟩
  | ended outcome => exact ⟨Chain.refl s, rfl⟩

/-- Recording a failure keeps the job of the call, and fails it or leaves the database. -/
theorem commit_recordFailure (c : QueueCall) (cause : EngineError) (s : Studio) :
    (c.record (.error cause) s).1.job = c.job ∧
      (SameDb s (c.record (.error cause) s).2 ∨
        ∃ message now ws, Marks s.db c.job .failed now ws ∧
          Commit s (c.record (.error cause) s).2 (.fail c.job.id message now :: ws)) := by
  unfold record Engine.record
  simp only [recordFailure_run]
  rcases hrun : fail c.job cause.message (s.told _) with ⟨err | u, t⟩
  · exact ⟨rfl, Or.inl (Chain.trans (StudioChain.told s _) (failsClean_fail _ _ hrun))⟩
  · obtain ⟨now, ws, hmarks, hcommit⟩ := commit_fail (show Yields _ _ u t from hrun)
    exact ⟨rfl, Or.inr ⟨_, now, ws, hmarks,
      Commit.of_sameDb_trans (StudioChain.told s _) hcommit⟩⟩

/-- Discarding a result keeps the job of the call, and releases its lease or leaves the database. -/
theorem commit_release (c : QueueCall) (s : Studio) :
    (c.release s).1.job = c.job ∧
      (SameDb s (c.release s).2 ∨
        ∃ message now ws, Marks s.db c.job .failed now ws ∧
          Commit s (c.release s).2 (.fail c.job.id message now :: ws)) := by
  unfold release
  cases c.stage with
  | discarding cause =>
    simp only [discard_run]
    by_cases hloss : cause.isLoss = true
    · rw [if_pos hloss]
      have htold := fun e => StudioChain.told (R := SameDb) s e
      rcases hrun : Engine.release c.job cause (s.told _) with ⟨err | released, t⟩
      · exact ⟨trivial, Or.inl (Chain.trans (htold _) (Chain.trans (failsClean_release _ _ hrun)
          (StudioChain.told t _)))⟩
      · rcases Engine.commit_release hrun with
          ⟨rfl, hsame⟩ | ⟨rfl, message, now, ws, hmarks, hcommit⟩
        · exact ⟨trivial, Or.inl (Chain.trans (htold _) hsame)⟩
        · exact ⟨trivial, Or.inr ⟨message, now, ws, hmarks,
            Commit.of_sameDb_trans (htold _) (hcommit.trans_sameDb (StudioChain.told t _))⟩⟩
    · rw [if_neg hloss]
      exact ⟨trivial, Or.inl (StudioChain.told s _)⟩
  | leased => exact ⟨rfl, Or.inl (Chain.refl s)⟩
  | asked request => exact ⟨rfl, Or.inl (Chain.refl s)⟩
  | refused cause => exact ⟨rfl, Or.inl (Chain.refl s)⟩
  | ended outcome => exact ⟨rfl, Or.inl (Chain.refl s)⟩

end QueueCall

namespace System

variable {e : Engine} {s : System} {i : Nat} {c : QueueCall}

theorem onCall_of_some {f : QueueCall → Studio → QueueCall × Studio} (hc : s.calls[i]? = some c) :
    s.onCall f i =
      { s with studio := (f c s.studio).2, calls := s.calls.set i (f c s.studio).1 } := by
  simp only [onCall, hc]

theorem onCall_of_none {f : QueueCall → Studio → QueueCall × Studio} (hc : s.calls[i]? = none) :
    s.onCall f i = s := by
  simp only [onCall, hc]

/-- Recording content completes the job, or fails and leaves the database. -/
theorem complete_effect {reply : GenerationReply} {request : GenerationRequest} {content : String}
    (hc : s.calls[i]? = some c) (hstage : c.stage = .asked request)
    (hcontent : contentOf reply = .ok content) :
    ∃ ws, Effect e s (.settle i reply) [] ws ∧
      Commit s.studio (c.settle reply s.studio).2 ws := by
  have hsettle : c.settle reply s.studio =
      { c with answeredOn := some (s.studio, reply) }.record (.ok content) s.studio := by
    simp only [QueueCall.settle, hstage, hcontent]
  have hcalls : (s.step e (.settle i reply)).calls = s.calls.set i (c.settle reply s.studio).1 := by
    show (s.onCall (·.settle reply) i).calls = _
    rw [onCall_of_some hc]
  rw [hsettle] at hcalls
  rw [hsettle]
  -- The stage that the call is left in says whether the completion was committed.
  unfold QueueCall.record Engine.record at hcalls ⊢
  simp only [recordSuccess_run] at hcalls ⊢
  rcases hrun : complete c.job content s.studio with ⟨cause | activated, t⟩
  · exact ⟨[], .nothing _, Commit.of_sameDb (failsClean_complete _ _ hrun)⟩
  · rw [hrun] at hcalls
    obtain ⟨w, m, now, hlive, hm, hactivated, hcommit⟩ := commit_complete hrun
    -- What is written after the success leaves the table of jobs.
    have hjobs : t.db.jobs = (Write.succeed c.job.id now).onJobs s.studio.db.jobs := by
      refine (Journal.cons_iff.1 hcommit.journal).2.jobs_eq fun x hx rows => ?_
      rcases List.mem_cons.1 hx with rfl | hx
      · rfl
      · cases activated with
        | false => cases hx
        | true =>
          rw [List.mem_singleton.1 hx]
          rfl
    rw [hjobs] at hactivated
    exact ⟨_, .complete hc hstage hcontent hlive hm hactivated hcalls,
      hcommit.trans_sameDb (StudioChain.told t _)⟩

/-- Settling completes the job of a call or fails it, or leaves the database. -/
theorem settle_effect (e : Engine) (reply : GenerationReply) (hc : s.calls[i]? = some c) :
    (c.settle reply s.studio).1.job = c.job ∧
      ∃ ws, Effect e s (.settle i reply) [] ws ∧
        Commit s.studio (c.settle reply s.studio).2 ws := by
  -- A failure is recorded in the same way whatever it is the failure of.
  have hfailure (c' : QueueCall) (hjob : c'.job = c.job) (cause : EngineError) :
      (c'.record (.error cause) s.studio).1.job = c.job ∧
        ∃ ws, Effect e s (.settle i reply) [] ws ∧
          Commit s.studio (c'.record (.error cause) s.studio).2 ws := by
    obtain ⟨hkept, hsame | ⟨message, now, ws, hmarks, hcommit⟩⟩ :=
      c'.commit_recordFailure cause s.studio
    · exact ⟨hkept.trans hjob, [], .nothing _, Commit.of_sameDb hsame⟩
    · rw [hjob] at hmarks hcommit
      exact ⟨hkept.trans hjob, _, .fail hc hmarks, hcommit⟩
  cases hstage : c.stage with
  | asked request =>
    cases hcontent : contentOf reply with
    | ok content =>
      refine ⟨?_, complete_effect hc hstage hcontent⟩
      simp only [QueueCall.settle, hstage, hcontent, QueueCall.record]
      split <;> rfl
    | error cause =>
      simp only [QueueCall.settle, hstage, hcontent]
      exact hfailure { c with answeredOn := some (s.studio, reply) } rfl cause
  | refused cause =>
    simp only [QueueCall.settle, hstage]
    exact hfailure c rfl cause
  | leased =>
    simp only [QueueCall.settle, hstage]
    exact ⟨trivial, [], .nothing _, Commit.of_sameDb (Chain.refl _)⟩
  | discarding cause =>
    simp only [QueueCall.settle, hstage]
    exact ⟨trivial, [], .nothing _, Commit.of_sameDb (Chain.refl _)⟩
  | ended outcome =>
    simp only [QueueCall.settle, hstage]
    exact ⟨trivial, [], .nothing _, Commit.of_sameDb (Chain.refl _)⟩

/-- A lease opens a call for the job that it leased, or leaves the database. -/
theorem lease_effect (e : Engine) (s : System) :
    ∃ opened ws, Effect e s .lease opened ws ∧ Commit s.studio s.lease.studio ws ∧
      s.lease.calls = s.calls ++ opened.map .opened := by
  unfold lease
  rw [takeJob_run]
  rcases hrun : leaseNext s.studio with ⟨cause | found, t⟩
  · exact ⟨[], [], .nothing _, Commit.of_sameDb (Chain.trans (failsClean_leaseNext hrun)
      (StudioChain.told t _)), by simp⟩
  · rcases commit_leaseNext hrun with ⟨rfl, hsame⟩ |
      ⟨job, row, now, ws, rfl, hdecode, hmarks, hcommit⟩
    · exact ⟨[], [], .nothing _, Commit.of_sameDb hsame, by simp⟩
    · exact ⟨[job], _, .lease hdecode hmarks, hcommit.trans_sameDb (StudioChain.told t _), rfl⟩

/-- A step on one call keeps the jobs of all calls when it keeps the job of that one. -/
theorem map_job_set {c' : QueueCall} (hc : s.calls[i]? = some c) (hjob : c'.job = c.job) :
    (s.calls.set i c').map (·.job) = s.calls.map (·.job) := by
  obtain ⟨hi, hget⟩ := List.getElem?_eq_some_iff.1 hc
  rw [List.map_set, hjob, ← hget]
  apply List.ext_getElem
  · simp
  · intro n h₁ h₂
    rw [List.getElem_set]
    split
    · rename_i heq
      subst heq
      simp
    · rfl

theorem openDraft_effect (e : Engine) (s : System) (world : WorldId) (module : String)
    (owner : OwnerId) :
    SameDb s.studio (s.openDraft e world module owner).studio ∧
      (s.openDraft e world module owner).calls = s.calls := by
  unfold openDraft
  rcases e.registry.require module with err | d
  · exact ⟨Chain.refl _, rfl⟩
  · have h := sameDb_loadScope world owner d s.studio
    simp only
    rcases hrun : loadScope world owner d s.studio with ⟨err | scope, t⟩
    · rw [hrun] at h
      exact ⟨h, rfl⟩
    · rw [hrun] at h
      exact ⟨h, rfl⟩

theorem sameDb_askDraft (e : Engine) (c : DraftCall) (s : Studio) : SameDb s (c.ask e s).2 := by
  unfold DraftCall.ask
  cases c.stage with
  | loaded scope =>
    have h := sameDb_draftRequestIn e c.world c.definition scope s
    simp only
    rcases hrun : e.draftRequestIn c.world c.definition scope s with ⟨err | request, t⟩
    · rw [hrun] at h
      exact h
    · rw [hrun] at h
      exact h
  | asked request => exact Chain.refl s
  | ended result => exact Chain.refl s

/-- A call for a draft merges what the reply proposes, or leaves the database. -/
theorem merge_effect (e : Engine) (s : System) (i : Nat) (reply : GenerationReply)
    (c : DraftCall) :
    ∃ ws, Effect e s (.mergeDraft i reply) [] ws ∧
      Commit s.studio (c.merge reply s.studio).2 ws := by
  unfold DraftCall.merge
  cases c.stage with
  | asked request =>
    simp only
    rcases hrun : acceptDraft c.world c.definition c.owner reply s.studio with ⟨err | m, t⟩
    · exact ⟨[], .nothing _, Commit.of_sameDb (failsClean_acceptDraft _ _ _ _ hrun)⟩
    · obtain ⟨m₀, proposed, now, hcurrent, rfl, hcommit⟩ := commit_acceptDraft hrun
      exact ⟨_, .merge hcurrent, hcommit⟩
  | loaded scope => exact ⟨[], .nothing _, Commit.of_sameDb (Chain.refl _)⟩
  | ended result => exact ⟨[], .nothing _, Commit.of_sameDb (Chain.refl _)⟩

/-- Every event has an effect, and the calls in flight keep their jobs. -/
theorem step_effect (e : Engine) (s : System) (ev : Event) :
    ∃ opened ws, Effect e s ev opened ws ∧ Commit s.studio (s.step e ev).studio ws ∧
      (s.step e ev).calls.map (·.job) = s.calls.map (·.job) ++ opened := by
  have hidle (ev : Event) : ∃ opened ws, Effect e s ev opened ws ∧ Commit s.studio s.studio ws ∧
      s.calls.map (·.job) = s.calls.map (·.job) ++ opened :=
    ⟨[], [], .nothing ev, Commit.of_sameDb (Chain.refl _), by simp⟩
  cases ev with
  | setClock time =>
    exact ⟨[], [], .nothing _, Commit.of_sameDb ⟨rfl, Nat.le_refl _⟩, by simp [step]⟩
  | command c =>
    obtain ⟨ws, heffect, hcommit⟩ := command_effect e s c
    exact ⟨[], ws, heffect, hcommit, by simp [step]⟩
  | lease =>
    obtain ⟨opened, ws, heffect, hcommit, hcalls⟩ := lease_effect e s
    refine ⟨opened, ws, heffect, hcommit, ?_⟩
    show s.lease.calls.map (·.job) = _
    rw [hcalls, List.map_append, List.map_map]
    congr 1
    exact List.map_id _
  | ask i =>
    simp only [step]
    cases hc : s.calls[i]? with
    | none =>
      rw [onCall_of_none hc]
      exact hidle _
    | some c =>
      rw [onCall_of_some hc]
      obtain ⟨hsame, hjob⟩ := c.sameDb_ask e s.studio
      exact ⟨[], [], .nothing _, Commit.of_sameDb hsame, by simp [map_job_set hc hjob]⟩
  | settle i reply =>
    simp only [step]
    cases hc : s.calls[i]? with
    | none =>
      rw [onCall_of_none hc]
      exact hidle _
    | some c =>
      rw [onCall_of_some hc]
      obtain ⟨hjob, ws, heffect, hcommit⟩ := settle_effect e reply hc
      exact ⟨[], ws, heffect, hcommit, by simp [map_job_set hc hjob]⟩
  | release i =>
    simp only [step]
    cases hc : s.calls[i]? with
    | none =>
      rw [onCall_of_none hc]
      exact hidle _
    | some c =>
      rw [onCall_of_some hc]
      obtain ⟨hjob, hsame | ⟨message, now, ws, hmarks, hcommit⟩⟩ := c.commit_release s.studio
      · exact ⟨[], [], .nothing _, Commit.of_sameDb hsame, by simp [map_job_set hc hjob]⟩
      · exact ⟨[], _, .release hc hmarks, hcommit, by simp [map_job_set hc hjob]⟩
  | openDraft world module owner =>
    obtain ⟨hsame, hcalls⟩ := openDraft_effect e s world module owner
    refine ⟨[], [], .nothing _, Commit.of_sameDb hsame, ?_⟩
    show (s.openDraft e world module owner).calls.map (·.job) = _
    rw [hcalls, List.append_nil]
  | askDraft i =>
    simp only [step, onDraft]
    cases s.drafts[i]? with
    | none => exact hidle _
    | some c =>
      exact ⟨[], [], .nothing _, Commit.of_sameDb (sameDb_askDraft e c s.studio), by simp⟩
  | mergeDraft i reply =>
    simp only [step, onDraft]
    cases s.drafts[i]? with
    | none => exact hidle _
    | some c =>
      obtain ⟨ws, heffect, hcommit⟩ := merge_effect e s i reply c
      exact ⟨[], ws, heffect, hcommit, by simp⟩

end System

end Lorebook
