import Lorebook.Proofs.Completion
import Lorebook.Proofs.Deletion
import Lorebook.Proofs.ExactPublication
import Lorebook.Proofs.Fencing
import Lorebook.Proofs.Inquiry

set_option autoImplicit false

/-! # Worlds and owners are isolated

An operation on a world writes rows of that world only, and a call of the queue writes rows of the
world of the job that it leased, whatever they return. What keeps the rows of other worlds is
checked write by write. An operation of an owner looks for a live world of the owner before it
writes or asks anything, so without one it is refused and leaves the database as it is. Both are put
together in `Engine.isolation`. -/

namespace Lorebook

open Studio Operation Engine

/-! ## What lies outside of a world -/

/-- The databases have the same rows of other worlds, in the same order. -/
structure Database.SameOutside (id : WorldId) (db db' : Database) : Prop where
  worlds : (db'.worlds.filter fun r => !r.id.isText id.text) =
    db.worlds.filter fun r => !r.id.isText id.text
  modules : (db'.modules.filter fun r => !r.world.isText id.text) =
    db.modules.filter fun r => !r.world.isText id.text
  jobs : (db'.jobs.filter fun r => !r.world.isText id.text) =
    db.jobs.filter fun r => !r.world.isText id.text

/-- Every row of a job is one of a world. -/
def Database.JobIn (db : Database) (job : JobId) (world : WorldId) : Prop :=
  ∀ r ∈ db.jobs, r.id = .text job.text → r.world = .text world.text

namespace Database.SameOutside

variable {id : WorldId} {db db' db'' : Database}

theorem refl (id : WorldId) (db : Database) : SameOutside id db db :=
  ⟨rfl, rfl, rfl⟩

theorem trans (h : SameOutside id db db') (h' : SameOutside id db' db'') :
    SameOutside id db db'' :=
  ⟨h'.worlds.trans h.worlds, h'.modules.trans h.modules, h'.jobs.trans h.jobs⟩

theorem of_eq (h : db' = db) : SameOutside id db db' := by
  rw [h]
  exact refl id db

/-- A job of a world stays one of it. -/
theorem jobIn (h : SameOutside id db db') {job : JobId} (hjob : db.JobIn job id) :
    db'.JobIn job id := by
  intro r hr hid
  by_contra hworld
  have hout : r ∈ db'.jobs.filter fun r => !r.world.isText id.text :=
    List.mem_filter.2 ⟨hr, by rw [Cell.isText_eq_false_iff.2 hworld]; rfl⟩
  rw [h.jobs] at hout
  exact hworld (hjob r (List.mem_filter.1 hout).1 hid)

end Database.SameOutside

/-- Rows that a map leaves, and that it brings no others to, are the same after it. -/
theorem filter_map_of_kept {ρ : Type} {rows : List ρ} {f : ρ → ρ} {p : ρ → Bool}
    (hp : ∀ r ∈ rows, p (f r) = p r) (hkept : ∀ r ∈ rows, p r = true → f r = r) :
    (rows.map f).filter p = rows.filter p := by
  rw [List.filter_map]
  have hfilter : rows.filter (p ∘ f) = rows.filter p := List.filter_congr hp
  rw [hfilter]
  refine (List.map_congr_left fun r hr => ?_).trans (List.map_id _)
  obtain ⟨hr, hpr⟩ := List.mem_filter.1 hr
  exact hkept r hr hpr

namespace Write

variable {id : WorldId} {w : Write} {db : Database}

/-- A write about a world leaves the rows of others. -/
theorem About.sameOutside (h : w.About id) (db : Database) : db.SameOutside id (w.apply db) := by
  have hrefl := Database.SameOutside.refl id db
  cases h with
  | @changeWorld w h =>
    refine ⟨filter_map_of_kept (fun r _ => ?_) (fun r _ hr => if_neg fun hlive => ?_),
      hrefl.modules, hrefl.jobs⟩
    · split <;> rfl
    · rw [Cell.isText_iff.2 (h ▸ (Worlds.isLive_iff.1 hlive).1)] at hr
      cases hr
  | @saveModule m h =>
    refine ⟨hrefl.worlds, ?_, hrefl.jobs⟩
    rw [apply_modules, onModules]
    split
    · refine filter_map_of_kept (fun r _ => ?_) (fun r _ hr => if_neg fun hof => ?_)
      · split <;> rfl
      · rw [Cell.isText_iff.2 (h ▸ (Modules.isOf_iff.1 hof).1)] at hr
        cases hr
    · rw [List.filter_append, List.filter_cons_of_neg, List.filter_nil, List.append_nil]
      simp [ModuleRow.ofModule, Cell.isText, h]
  | clearQueue =>
    refine ⟨hrefl.worlds, hrefl.modules, ?_⟩
    rw [apply_jobs, onJobs, List.filter_filter]
    simp
  | @addJob j h =>
    refine ⟨hrefl.worlds, hrefl.modules, ?_⟩
    rw [apply_jobs, onJobs, List.filter_append, List.filter_cons_of_neg, List.filter_nil,
      List.append_nil]
    simp [JobRow.ofJob, Cell.isText, h]

/-- A write about one job leaves what its row is of. -/
theorem world_onJob {job : JobId} (hw : w.job? = some job) (r : JobRow) :
    (w.onJob r).world = r.world := by
  cases w with
  | succeed id now =>
    simp only [onJob]
    split <;> rfl
  | fail id message now =>
    simp only [onJob]
    split <;> rfl
  | requeue id now =>
    simp only [onJob]
    split <;> rfl
  | _ => cases hw

/-- A write about a job of a world leaves the rows of others. -/
theorem sameOutside_of_job {job : JobId} (hw : w.job? = some job) (hjob : db.JobIn job id) :
    db.SameOutside id (w.apply db) := by
  have hrefl := Database.SameOutside.refl id db
  rw [apply_of_job hw]
  refine ⟨hrefl.worlds, hrefl.modules, filter_map_of_kept (fun r _ => ?_) (fun r hr hout => ?_)⟩
  · rw [world_onJob hw]
  · refine onJob_of_ne hw fun hid => ?_
    rw [Cell.isText_iff.2 (hjob r hr hid)] at hout
    cases hout

/-- Settling a job of a world leaves the rows of others. -/
theorem Settles.sameOutside {job : Job} (h : w.Settles job) (hjob : db.JobIn job.id job.world) :
    db.SameOutside job.world (w.apply db) := by
  cases h with
  | succeed now => exact sameOutside_of_job rfl hjob
  | fail message now => exact sameOutside_of_job rfl hjob
  | saveModule hworld _ => exact (About.saveModule hworld).sameOutside db
  | changeWorld h => exact (About.changeWorld h).sameOutside db

end Write

/-- Writes about a world leave the rows of others. -/
theorem Journal.sameOutside {id : WorldId} {db db' : Database} {ws : List Write}
    (h : Journal db ws db') (hws : ∀ w ∈ ws, w.About id) : db.SameOutside id db' :=
  h.invariant (I := db.SameOutside id)
    (fun w hw d _ hd => hd.trans ((hws w hw).sameOutside d)) (.refl id db)

/-- Writes that settle a job of a world leave the rows of others. -/
theorem Journal.sameOutside_of_settles {job : Job} {db db' : Database} {ws : List Write}
    (h : Journal db ws db') (hws : ∀ w ∈ ws, w.Settles job) (hjob : db.JobIn job.id job.world) :
    db.SameOutside job.world db' :=
  h.invariant (I := db.SameOutside job.world)
    (fun w hw _ _ hd => hd.trans ((hws w hw).sameOutside (hd.jobIn hjob))) (.refl job.world db)

/-! ## Names of jobs -/

/-- Jobs of one name are one job, as the primary key has it, which does not tell rows without a name
apart. -/
def Database.UniqueJobs (db : Database) : Prop :=
  ∀ a ∈ db.jobs, ∀ b ∈ db.jobs, a.id = b.id → a.id ≠ .null → a = b

theorem Database.Keyed.uniqueJobs {db : Database} (h : db.Keyed) : db.UniqueJobs :=
  fun _ ha _ hb hid _ => eq_of_jobId h.jobIds ha hb hid

theorem Database.UniqueJobs.jobIn {db : Database} (h : db.UniqueJobs) {r : JobRow}
    (hr : r ∈ db.jobs) {job : JobId} (hid : r.id = .text job.text) {world : WorldId}
    (hworld : r.world = .text world.text) : db.JobIn job world := by
  intro q hq hqid
  rw [h q hq r hr (hqid.trans hid.symm) (by simp [hqid])]
  exact hworld

/-! ## Operations on a world -/

namespace Operation

variable {α : Type} {op : Operation α} {world : WorldId} {owner : OwnerId}

/-- Whatever it returns, the operation leaves the rows of other worlds. -/
def StaysIn (op : Operation α) (world : WorldId) : Prop :=
  ∀ s : Studio, s.db.UniqueJobs → s.db.SameOutside world (op s).2.db

/-- Unless the account owns the world, and it is there and not deleted, the operation fails and
leaves the database. -/
def NeedsOwner (op : Operation α) (world : WorldId) (owner : OwnerId) : Prop :=
  ∀ s : Studio, ¬ s.db.OwnedBy world owner → ∃ cause t, Fails op s cause t ∧ t.db = s.db

/-- An operation that fails cleanly stays in a world if it does so when it succeeds. -/
theorem staysIn_of_yields (hclean : FailsClean op)
    (h : ∀ s v t, s.db.UniqueJobs → Yields op s v t → s.db.SameOutside world t.db) :
    op.StaysIn world := by
  intro s hunique
  rcases yields_or_fails op s with ⟨v, t, hrun⟩ | ⟨cause, t, hrun⟩
  · have hs := h s v t hunique hrun
    rw [show op s = (.ok v, t) from hrun]
    exact hs
  · rw [show op s = (.error cause, t) from hrun]
    exact .of_eq (hclean hrun).1

/-- What only reads stays in every world. -/
theorem staysIn_of_sameDb (h : Respects SameDb op) (world : WorldId) : op.StaysIn world :=
  fun s _ => .of_eq (h s).1

/-- An operation that fails cleanly needs the owner if it finds the owner when it succeeds. -/
theorem needsOwner_of_yields (hclean : FailsClean op)
    (h : ∀ s v t, Yields op s v t → s.db.OwnedBy world owner) : op.NeedsOwner world owner := by
  intro s howned
  rcases yields_or_fails op s with ⟨v, t, hrun⟩ | ⟨cause, t, hrun⟩
  · exact absurd (h s v t hrun) howned
  · exact ⟨cause, t, hrun, (hclean hrun).1⟩

end Operation

namespace Engine

variable {e : Engine} {world : WorldId} {module : String} {owner : OwnerId} {s s' : Studio}

theorem ownedBy_of_ownedWorld {w : World} (h : Yields (ownedWorld world owner) s w s') :
    s.db.OwnedBy world owner := by
  obtain ⟨hlive, rfl⟩ := ownedWorld_found h
  exact hlive.ownedBy

theorem ownedBy_of_loadScope {d : ModuleDefinition} {scope : World × WorldModule × List WorldModule}
    (h : Yields (loadScope world owner d) s scope s') : s.db.OwnedBy world owner := by
  simp only [loadScope, yields_bind, yields_store, yields_pure, ensureOwner, yields_ite,
    yields_throw, and_false, or_false] at h
  obtain ⟨_, _, ⟨db, ⟨w, _, hrequire, _, _, _, rfl, _⟩, _⟩, _, _, ⟨howned, _, _⟩, _⟩ := h
  have hlive := Worlds.liveWorld_of_require hrequire
  obtain rfl : w.owner = owner := of_decide_eq_true howned
  exact hlive.ownedBy

theorem staysIn_saveModuleFields (e : Engine) (world : WorldId) (module : String)
    (owner : OwnerId) (fields : List (String × String)) :
    (e.saveModuleFields world module owner fields).StaysIn world := by
  refine staysIn_of_yields (failsClean_saveModuleFields _ _ _ _ _) fun s m t _ h => ?_
  obtain ⟨d, m₀, now, _, hm₀, rfl, hcommit⟩ := commit_saveModuleFields h
  exact hcommit.journal.sameOutside
    (List.forall_mem_singleton.2 (Write.About.saveModule hm₀.world_eq))

theorem staysIn_publish (e : Engine) (world : WorldId) (owner : OwnerId) :
    (e.publish world owner).StaysIn world := by
  refine staysIn_of_yields (failsClean_publish _ _ _) fun s p t _ h => ?_
  obtain ⟨w, ms, now, ws, hlive, _, hms, _, _, hcommit, hend⟩ := (published_of_publish h).found
  refine hcommit.journal.sameOutside fun v hv => ?_
  rcases List.mem_append.1 hv with hv | hv
  · obtain ⟨m, hm, rfl⟩ := List.mem_map.1 hv
    obtain ⟨d, _, hcurrent⟩ := hms.exists_definition (List.mem_filter.1 hm).1
    exact .saveModule hcurrent.world_eq
  · rcases hend with ⟨_, _, rfl⟩ | ⟨_, hqueue, _, rfl⟩
    · obtain rfl := List.mem_singleton.1 hv
      exact .changeWorld hlive.id_eq
    · simp only [List.mem_cons, List.mem_map] at hv
      rcases hv with rfl | rfl | ⟨j, hj, rfl⟩
      · exact .changeWorld hlive.id_eq
      · exact .clearQueue
      · exact .addJob (hqueue.world_eq j hj)

theorem staysIn_initializeJobs (e : Engine) (world : WorldId) (keys : List String) :
    (e.initializeJobs world keys).StaysIn world := by
  refine staysIn_of_yields (failsClean_initializeJobs _ _ _) fun s js t _ h => ?_
  obtain ⟨_, hqueue, _, hcommit⟩ := commit_initializeJobs h
  refine hcommit.journal.sameOutside fun v hv => ?_
  simp only [List.mem_cons, List.mem_map] at hv
  rcases hv with rfl | ⟨j, hj, rfl⟩
  · exact .clearQueue
  · exact .addJob (hqueue.world_eq j hj)

theorem staysIn_retryModule (e : Engine) (world : WorldId) (module : String) (owner : OwnerId) :
    (e.retryModule world module owner).StaysIn world := by
  refine staysIn_of_yields (failsClean_retryModule _ _ _ _) fun s j t hunique h => ?_
  obtain ⟨w, job, m, now, r, hlive, _, hr, hworld, _, hdecode, hm, hcommit⟩ := commit_retryModule h
  -- The job that goes back in the queue is one of the world, and it is the only one of its name.
  have hjob := hunique.jobIn hr (JobRow.holds_of_decode hdecode).id hworld
  obtain ⟨_, hrest⟩ := Journal.cons_iff.1 hcommit.journal
  refine (Write.sameOutside_of_job rfl hjob).trans (hrest.sameOutside fun v hv => ?_)
  rcases List.mem_cons.1 hv with rfl | hv
  · exact .saveModule hm.world_eq
  · split at hv
    · cases hv
    · obtain rfl := List.mem_singleton.1 hv
      exact .changeWorld hlive.id_eq

theorem needsOwner_saveModuleFields (e : Engine) (world : WorldId) (module : String)
    (owner : OwnerId) (fields : List (String × String)) :
    (e.saveModuleFields world module owner fields).NeedsOwner world owner := by
  refine needsOwner_of_yields (failsClean_saveModuleFields _ _ _ _ _) fun s m t h => ?_
  obtain ⟨w, hlive, rfl⟩ := ownedWorld_of_saveModuleFields h
  exact hlive.ownedBy

theorem needsOwner_publish (e : Engine) (world : WorldId) (owner : OwnerId) :
    (e.publish world owner).NeedsOwner world owner := by
  refine needsOwner_of_yields (failsClean_publish _ _ _) fun s p t h => ?_
  obtain ⟨w, _, _, _, hlive, rfl, _⟩ := (published_of_publish h).found
  exact hlive.ownedBy

theorem needsOwner_retryModule (e : Engine) (world : WorldId) (module : String)
    (owner : OwnerId) : (e.retryModule world module owner).NeedsOwner world owner := by
  refine needsOwner_of_yields (failsClean_retryModule _ _ _ _) fun s j t h => ?_
  obtain ⟨w, _, _, _, _, hlive, rfl, _⟩ := commit_retryModule h
  exact hlive.ownedBy

theorem needsOwner_generationStatus (e : Engine) (world : WorldId) (owner : OwnerId) :
    (e.generationStatus world owner).NeedsOwner world owner := by
  refine needsOwner_of_yields (failsClean_of_respects (sameDb_generationStatus _ _ _))
    fun s p t h => ?_
  simp only [generationStatus, yields_atomically, yields_bind] at h
  obtain ⟨w, _, howned, _⟩ := h
  exact ownedBy_of_ownedWorld howned

theorem sameDb_draftRequest (e : Engine) (world : WorldId) (d : ModuleDefinition)
    (owner : OwnerId) : Respects SameDb (e.draftRequest world d owner) :=
  respects_bind (sameDb_loadScope world owner d) fun scope => sameDb_draftRequestIn e world d scope

theorem needsOwner_draftRequest (e : Engine) (world : WorldId) (d : ModuleDefinition)
    (owner : OwnerId) : (e.draftRequest world d owner).NeedsOwner world owner := by
  refine needsOwner_of_yields (failsClean_of_respects (sameDb_draftRequest _ _ _ _))
    fun s request t h => ?_
  simp only [draftRequest, yields_bind] at h
  obtain ⟨scope, _, hscope, _⟩ := h
  exact ownedBy_of_loadScope hscope

theorem needsOwner_refineRequest (e : Engine) (world : WorldId) (d : ModuleDefinition)
    (field : FieldDefinition) (owner : OwnerId) (text : String) (instruction : Option String) :
    (e.refineRequest world d field owner text instruction).NeedsOwner world owner := by
  refine needsOwner_of_yields (failsClean_of_respects (sameDb_refineRequest _ _ _ _ _ _ _))
    fun s request t h => ?_
  simp only [refineRequest, yields_bind] at h
  obtain ⟨scope, _, hscope, _⟩ := h
  exact ownedBy_of_loadScope hscope

/-- Merging a reply leaves the rows of other worlds, whatever stands in the database by then. -/
theorem sameOutside_acceptDraft (world : WorldId) (d : ModuleDefinition) (owner : OwnerId)
    (reply : GenerationReply) (s : Studio) :
    s.db.SameOutside world (acceptDraft world d owner reply s).2.db := by
  rcases yields_or_fails (acceptDraft world d owner reply) s with ⟨m, t, h⟩ | ⟨cause, t, h⟩
  · rw [show acceptDraft world d owner reply s = (.ok m, t) from h]
    obtain ⟨m₀, proposed, now, hm₀, rfl, hcommit⟩ := commit_acceptDraft h
    exact hcommit.journal.sameOutside
      (List.forall_mem_singleton.2 (Write.About.saveModule hm₀.world_eq))
  · rw [show acceptDraft world d owner reply s = (.error cause, t) from h]
    exact .of_eq (failsClean_acceptDraft _ _ _ _ h).1

end Engine

/-! ## Operations that ask a generator -/

/-- Whatever happens while the generator is asked leaves the rows of other worlds. -/
def Generator.StaysIn (g : Generator (StateM Studio)) (world : WorldId) : Prop :=
  ∀ limit request (s : Studio), s.db.SameOutside world (g limit request s).2.db

namespace Inquiry

variable {α : Type} {x : StateM Studio (Inquiry (Except EngineError α))} {world : WorldId}
  {owner : OwnerId}

/-- Nothing is written before the generator is asked, and with its reply no row of another world,
whatever happened while it was asked. -/
structure StaysIn (x : StateM Studio (Inquiry (Except EngineError α))) (world : WorldId) :
    Prop where
  before : ∀ s, (x s).2.db = s.db
  after : ∀ s request goOn, (x s).1 = .asks request goOn → ∀ reply (t : Studio),
    t.db.SameOutside world (goOn reply t).2.db

/-- Unless the account owns the world, and it is there and not deleted, the operation ends with an
error before it asks, and leaves the database. -/
def NeedsOwner (x : StateM Studio (Inquiry (Except EngineError α))) (world : WorldId)
    (owner : OwnerId) : Prop :=
  ∀ s : Studio, ¬ s.db.OwnedBy world owner →
    ∃ cause t, x s = (.ended (.error cause), t) ∧ t.db = s.db

theorem staysIn_pure (result : Except EngineError α) (world : WorldId) :
    StaysIn (pure (.ended result)) world where
  before _ := rfl
  after s request goOn h := by cases h

theorem needsOwner_pure (cause : EngineError) (world : WorldId) (owner : OwnerId) :
    NeedsOwner (pure (.ended (.error cause)) : StateM Studio (Inquiry (Except EngineError α))) world
      owner :=
  fun s _ => ⟨cause, s, rfl, rfl⟩

theorem staysIn_ofRequest {op : Operation GenerationRequest}
    {goOn : GenerationReply → StateM Studio (Except EngineError α)} (hop : Respects SameDb op)
    (hgoOn : ∀ reply (t : Studio), t.db.SameOutside world (goOn reply t).2.db) :
    StaysIn (ofRequest op goOn) world := by
  refine ⟨fun s => ?_, fun s request goOn' h => ?_⟩
  · have hs := (hop s).1
    rw [ofRequest_run]
    rcases hrun : op s with ⟨cause | request, t⟩ <;> rw [hrun] at hs <;> exact hs
  · rw [ofRequest_run] at h
    rcases hrun : op s with ⟨cause | request', t⟩
    · rw [hrun] at h
      cases h
    · rw [hrun] at h
      cases h
      exact hgoOn

theorem needsOwner_ofRequest {op : Operation GenerationRequest}
    {goOn : GenerationReply → StateM Studio (Except EngineError α)}
    (hop : op.NeedsOwner world owner) : NeedsOwner (ofRequest op goOn) world owner := by
  intro s howned
  obtain ⟨cause, t, hfails, hdb⟩ := hop s howned
  exact ⟨cause, t, ofRequest_of_fails hfails, hdb⟩

/-- An operation that asks a generator, with its inquiry, keeps to one world and to its owner. -/
structure Isolated (x : StateM Studio (Inquiry (Except EngineError α)))
    (call : Generator (StateM Studio) → StateM Studio (Except EngineError α)) (world : WorldId)
    (owner : OwnerId) : Prop extends StaysIn x world where
  /-- With a generator that stays in the world, the operation as a whole stays in it. -/
  whole : ∀ g, g.StaysIn world → ∀ s : Studio, s.db.SameOutside world (call g s).2.db
  /-- An operation that is refused changes nothing and comes to the same error with every generator:
  none is asked. -/
  refused : ∀ s : Studio, ¬ s.db.OwnedBy world owner → ∃ cause t, t.db = s.db ∧
    x s = (.ended (.error cause), t) ∧ ∀ g, call g s = (.error cause, t)

theorem isolated_of_answered
    {call : Generator (StateM Studio) → StateM Studio (Except EngineError α)} {limit : Span}
    (hcall : ∀ g, call g = x >>= Inquiry.answered g limit)
    (hstays : StaysIn x world) (howner : NeedsOwner x world owner) :
    Isolated x call world owner := by
  refine ⟨hstays, fun g hg s => ?_, fun s howned => ?_⟩
  · have hbefore := hstays.before s
    have hafter := hstays.after s
    rw [hcall, StateM.bind_run]
    rcases hx : x s with ⟨result | ⟨request, goOn⟩, t⟩
    · rw [hx] at hbefore
      exact .of_eq hbefore
    · rw [hx] at hbefore hafter
      have hasked : s.db.SameOutside world (g.call limit request t).2.db := by
        rw [← show t.db = s.db from hbefore]
        exact hg limit request t
      exact hasked.trans (hafter request goOn rfl _ _)
  · obtain ⟨cause, t, hx, hdb⟩ := howner s howned
    refine ⟨cause, t, hdb, hx, fun g => ?_⟩
    rw [hcall, StateM.bind_run, hx]
    rfl

end Inquiry

namespace Engine

theorem staysIn_draftInquiry (e : Engine) (world : WorldId) (module : String) (owner : OwnerId) :
    Inquiry.StaysIn (e.draftInquiry world module owner) world := by
  unfold draftInquiry
  rcases e.registry.require module with err | d
  · exact Inquiry.staysIn_pure _ _
  · exact Inquiry.staysIn_ofRequest (sameDb_draftRequest _ _ _ _) (sameOutside_acceptDraft _ _ _)

theorem needsOwner_draftInquiry (e : Engine) (world : WorldId) (module : String)
    (owner : OwnerId) : Inquiry.NeedsOwner (e.draftInquiry world module owner) world owner := by
  unfold draftInquiry
  rcases e.registry.require module with err | d
  · exact Inquiry.needsOwner_pure _ _ _
  · exact Inquiry.needsOwner_ofRequest (needsOwner_draftRequest _ _ _ _)

theorem staysIn_refineInquiry (e : Engine) (world : WorldId) (module field : String)
    (owner : OwnerId) (text : String) (instruction : Option String) :
    Inquiry.StaysIn (e.refineInquiry world module field owner text instruction) world := by
  unfold refineInquiry
  by_cases hblank : Text.isBlank text = true
  · rw [if_pos hblank]
    exact Inquiry.staysIn_pure _ _
  rw [if_neg hblank]
  rcases e.registry.require module with err | d
  · exact Inquiry.staysIn_pure _ _
  rcases e.registry.requireField module field with err | f
  · exact Inquiry.staysIn_pure _ _
  · exact Inquiry.staysIn_ofRequest (sameDb_refineRequest _ _ _ _ _ _ _) fun _ _ => .refl _ _

theorem needsOwner_refineInquiry (e : Engine) (world : WorldId) (module field : String)
    (owner : OwnerId) (text : String) (instruction : Option String) :
    Inquiry.NeedsOwner (e.refineInquiry world module field owner text instruction) world owner := by
  unfold refineInquiry
  by_cases hblank : Text.isBlank text = true
  · rw [if_pos hblank]
    exact Inquiry.needsOwner_pure _ _ _
  rw [if_neg hblank]
  rcases e.registry.require module with err | d
  · exact Inquiry.needsOwner_pure _ _ _
  rcases e.registry.requireField module field with err | f
  · exact Inquiry.needsOwner_pure _ _ _
  · exact Inquiry.needsOwner_ofRequest (needsOwner_refineRequest _ _ _ _ _ _ _)

end Engine

/-! ## Calls of the queue -/

/-- Taking a job writes rows of its world, and the job is one of that world then. -/
theorem Engine.sameOutside_takeJob {s t : Studio} {job : Job} (hunique : s.db.UniqueJobs)
    (h : (takeJob : StateM Studio _) s = (.ok (some job), t)) :
    s.db.SameOutside job.world t.db ∧ t.db.JobIn job.id job.world := by
  rw [takeJob_run] at h
  rcases hrun : leaseNext s with ⟨cause | _ | leased, u⟩
  · rw [hrun] at h
    cases h
  · rw [hrun] at h
    cases h
  · rw [hrun] at h
    cases h
    rcases commit_leaseNext hrun with ⟨hnone, _⟩ |
      ⟨job, row, now, ws, hjob, hdecode, hmarks, hcommit⟩
    · cases hnone
    · obtain rfl := Option.some.inj hjob
      have hholds := JobRow.holds_of_decode hdecode
      obtain ⟨hallowed, hrest⟩ := Journal.cons_iff.1 hcommit.journal
      have hin : s.db.JobIn job.id job.world :=
        hunique.jobIn (Jobs.mem_of_nextRow? hallowed.1).1 hholds.id hholds.world
      have hlease : s.db.SameOutside job.world ((Write.lease row now).apply s.db) := by
        refine ⟨rfl, rfl, filter_map_of_kept (fun r hr => ?_)
          fun r hr hout => if_neg fun hid => ?_⟩
        · by_cases hid : r.id = row.id
          · rw [hin r hr (hid.trans hholds.id)]
            simp only [Write.onJob, if_pos hid]
            rw [hholds.world]
          · simp only [Write.onJob, if_neg hid]
        · rw [Cell.isText_iff.2 (hin r hr (hid.trans hholds.id))] at hout
          cases hout
      have hsame : s.db.SameOutside job.world u.db :=
        hlease.trans (hrest.sameOutside fun v hv => by
          obtain ⟨m, rfl, hworld, _⟩ := hmarks.eq_saveModule hv
          exact .saveModule hworld)
      exact ⟨hsame, hsame.jobIn hin⟩

namespace QueueCall

variable {c : QueueCall} {s : Studio}

/-- Recording what a call came to writes rows of the world of its job. -/
theorem sameOutside_record (content : Except EngineError String)
    (hjob : s.db.JobIn c.job.id c.job.world) :
    (c.record content s).1.job = c.job ∧
      s.db.SameOutside c.job.world (c.record content s).2.db := by
  cases content with
  | error cause =>
    obtain ⟨hkept, hsame | ⟨message, now, ws, hmarks, hcommit⟩⟩ := c.commit_recordFailure cause s
    · exact ⟨hkept, .of_eq hsame.1⟩
    · exact ⟨hkept, hcommit.journal.sameOutside_of_settles
        (hmarks.settlesFirst message now).settles hjob⟩
  | ok content =>
    unfold record Engine.record
    simp only [recordSuccess_run]
    rcases hrun : complete c.job content s with ⟨cause | activated, t⟩
    · exact ⟨rfl, .of_eq (failsClean_complete _ _ hrun).1⟩
    · obtain ⟨w, m, now, hlive, hm, _, hcommit⟩ := commit_complete hrun
      refine ⟨rfl, hcommit.journal.sameOutside_of_settles (fun v hv => ?_) hjob⟩
      simp only [List.cons_append, List.nil_append, List.mem_cons] at hv
      rcases hv with rfl | rfl | hv
      · exact .succeed now
      · exact .saveModule hm.world_eq hm.key_eq
      · split at hv
        · obtain rfl := List.mem_singleton.1 hv
          exact .changeWorld hlive.id_eq
        · cases hv

/-- So does settling its job. -/
theorem sameOutside_settle (reply : GenerationReply) (hjob : s.db.JobIn c.job.id c.job.world) :
    s.db.SameOutside c.job.world (c.settle reply s).2.db := by
  unfold settle
  cases c.stage with
  | asked request =>
    exact (sameOutside_record (c := { c with answeredOn := some (s, reply) }) _ hjob).2
  | refused cause => exact (sameOutside_record _ hjob).2
  | leased => exact .refl _ _
  | discarding cause => exact .refl _ _
  | ended outcome => exact .refl _ _

/-- And so does discarding its result. -/
theorem sameOutside_release (hjob : s.db.JobIn c.job.id c.job.world) :
    s.db.SameOutside c.job.world (c.release s).2.db := by
  obtain ⟨_, hsame | ⟨message, now, ws, hmarks, hcommit⟩⟩ := c.commit_release s
  · exact .of_eq hsame.1
  · exact hcommit.journal.sameOutside_of_settles (hmarks.settlesFirst message now).settles hjob

end QueueCall

/-- Settling a job in one go writes rows of its world. -/
theorem Engine.sameOutside_settle {job : Job} {s : Studio} (content : Except EngineError String)
    (hjob : s.db.JobIn job.id job.world) :
    s.db.SameOutside job.world ((Engine.settle job content : StateM Studio _) s).2.db := by
  rw [show (Engine.settle job content : StateM Studio _) s = _ from
    (QueueCall.opened job).settle_eq content s]
  obtain ⟨hkept, hrecord⟩ := (QueueCall.opened job).sameOutside_record content hjob
  refine hrecord.trans ?_
  have hrelease := QueueCall.sameOutside_release (c := ((QueueCall.opened job).record content s).1)
    (s := ((QueueCall.opened job).record content s).2) (by rw [hkept]; exact hrecord.jobIn hjob)
  rw [hkept] at hrelease
  exact hrelease

/-- Where no job is taken, the call asks nothing and leaves the database. -/
theorem Engine.idle_processQueue (e : Engine) {s : Studio}
    (h : ∀ job t, (takeJob : StateM Studio _) s ≠ (.ok (some job), t)) :
    ∃ outcome t, e.queueInquiry s = (.ended outcome, t) ∧ t.db = s.db := by
  unfold queueInquiry
  rw [StateM.bind_run]
  rw [takeJob_run] at h ⊢
  rcases hrun : leaseNext s with ⟨cause | _ | job, t⟩
  · exact ⟨_, _, rfl, (failsClean_leaseNext hrun).1⟩
  · rcases commit_leaseNext hrun with ⟨_, hsame⟩ | ⟨job, _, _, _, hjob, _⟩
    · exact ⟨_, _, rfl, hsame.1⟩
    · cases hjob
  · rw [hrun] at h
    exact absurd rfl (h job _)

/-- With a generator that stays in the world of the job that is taken, the call does so. -/
theorem Engine.sameOutside_processQueue (e : Engine) {g : Generator (StateM Studio)} {s t : Studio}
    {job : Job} (hunique : s.db.UniqueJobs)
    (htake : (takeJob : StateM Studio _) s = (.ok (some job), t)) (hg : g.StaysIn job.world) :
    s.db.SameOutside job.world (e.processQueue g s).2.db := by
  obtain ⟨htaken, hjob⟩ := sameOutside_takeJob hunique htake
  have hrun : e.processQueue g s = e.runJob g job t := by
    unfold processQueue
    rw [StateM.bind_run, htake]
  have hask := (sameDb_askFor e job t).1
  rw [hrun]
  unfold runJob
  rw [StateM.bind_run]
  rcases hrequest : (e.askFor job : StateM Studio _) t with ⟨cause | request, u⟩
  · rw [hrequest] at hask
    have hasked : t.db.SameOutside job.world u.db := .of_eq hask
    exact (htaken.trans hasked).trans (sameOutside_settle _ (hasked.jobIn hjob))
  · rw [hrequest] at hask
    have hanswered : t.db.SameOutside job.world (g.call e.timeout request u).2.db := by
      rw [← show u.db = t.db from hask]
      exact hg e.timeout request u
    exact (htaken.trans hanswered).trans (sameOutside_settle _ (hanswered.jobIn hjob))

/-! ## Isolation -/

/-- Worlds and owners are isolated. The database is any database; the jobs in it have names of their
own where this is said. -/
structure Engine.Isolation (e : Engine) : Prop where
  saveModuleFields : ∀ world module owner fields,
    (e.saveModuleFields world module owner fields).StaysIn world ∧
      (e.saveModuleFields world module owner fields).NeedsOwner world owner
  publish : ∀ world owner,
    (e.publish world owner).StaysIn world ∧ (e.publish world owner).NeedsOwner world owner
  retryModule : ∀ world module owner,
    (e.retryModule world module owner).StaysIn world ∧
      (e.retryModule world module owner).NeedsOwner world owner
  generationStatus : ∀ world owner,
    (e.generationStatus world owner).StaysIn world ∧
      (e.generationStatus world owner).NeedsOwner world owner
  initializeJobs : ∀ world keys, (e.initializeJobs world keys).StaysIn world
  generateModule : ∀ world module owner,
    Inquiry.Isolated (e.draftInquiry world module owner) (e.generateModule · world module owner)
      world owner
  refineField : ∀ world module field owner text instruction,
    Inquiry.Isolated (e.refineInquiry world module field owner text instruction)
      (e.refineField · world module field owner text instruction) world owner
  /-- A call of the queue stays in the world of the job that it takes if its generator does. -/
  processQueue : ∀ (s : Studio), s.db.UniqueJobs → ∀ job t,
    (takeJob : StateM Studio _) s = (.ok (some job), t) →
    s.db.SameOutside job.world t.db ∧ ∀ g : Generator (StateM Studio), g.StaysIn job.world →
      s.db.SameOutside job.world (e.processQueue g s).2.db
  processQueue_idle : ∀ s : Studio,
    (∀ job t, (takeJob : StateM Studio _) s ≠ (.ok (some job), t)) →
    ∀ g : Generator (StateM Studio), (e.processQueue g s).2.db = s.db
  /-- Whatever else happened, its later transactions write rows of that world. -/
  transactions : ∀ (s : System) i c, s.calls[i]? = some c →
    s.studio.db.JobIn c.job.id c.job.world → ∀ ev, ev = .ask i ∨ ev.settles i = true →
      s.studio.db.SameOutside c.job.world (s.step e ev).studio.db
  /-- In every run the job of a call is one of its world. -/
  jobIn : ∀ events, ∀ c ∈ (System.run e events).calls,
    (System.run e events).studio.db.JobIn c.job.id c.job.world
  /-- In every run the jobs have names of their own. -/
  uniqueJobs : ∀ events, (System.run e events).studio.db.UniqueJobs

/-- The transactions of a call of the queue write rows of the world of its job. -/
theorem System.sameOutside_step {e : Engine} {s : System} {i : Nat} {c : QueueCall}
    (hc : s.calls[i]? = some c) (hjob : s.studio.db.JobIn c.job.id c.job.world) {ev : Event}
    (hev : ev = .ask i ∨ ev.settles i = true) :
    s.studio.db.SameOutside c.job.world (s.step e ev).studio.db := by
  have hstep (f : QueueCall → Studio → QueueCall × Studio) :
      (s.onCall f i).studio = (f c s.studio).2 := by
    rw [onCall_of_some hc]
  rcases hev with rfl | hev
  · rw [show (s.step e (.ask i)).studio = _ from hstep (·.ask e)]
    exact .of_eq (c.sameDb_ask e s.studio).1.1
  · cases ev with
    | settle j reply =>
      obtain rfl : j = i := beq_iff_eq.1 hev
      rw [show (s.step e (.settle j reply)).studio = _ from hstep (·.settle reply)]
      exact QueueCall.sameOutside_settle reply hjob
    | release j =>
      obtain rfl : j = i := beq_iff_eq.1 hev
      rw [show (s.step e (.release j)).studio = _ from hstep (·.release)]
      exact QueueCall.sameOutside_release hjob
    | _ => cases hev

/-- Every operation on a world leaves the rows of other worlds, whatever it returns. Where the caller
does not own the world, or it is missing or deleted, the operation fails, changes nothing and asks
nothing. A call of the queue leaves the rows of all worlds but that of its job. -/
theorem Engine.isolation (e : Engine) : e.Isolation where
  saveModuleFields world module owner fields :=
    ⟨e.staysIn_saveModuleFields world module owner fields,
      e.needsOwner_saveModuleFields world module owner fields⟩
  publish world owner := ⟨e.staysIn_publish world owner, e.needsOwner_publish world owner⟩
  retryModule world module owner :=
    ⟨e.staysIn_retryModule world module owner, e.needsOwner_retryModule world module owner⟩
  generationStatus world owner :=
    ⟨staysIn_of_sameDb (sameDb_generationStatus e world owner) world,
      e.needsOwner_generationStatus world owner⟩
  initializeJobs world keys := e.staysIn_initializeJobs world keys
  generateModule world module owner :=
    Inquiry.isolated_of_answered (fun g => e.generateModule_inquiry g world module owner)
      (e.staysIn_draftInquiry world module owner) (e.needsOwner_draftInquiry world module owner)
  refineField world module field owner text instruction :=
    Inquiry.isolated_of_answered
      (fun g => e.refineField_inquiry g world module field owner text instruction)
      (e.staysIn_refineInquiry world module field owner text instruction)
      (e.needsOwner_refineInquiry world module field owner text instruction)
  processQueue s hunique job t htake :=
    ⟨(sameOutside_takeJob hunique htake).1, fun _ hg => e.sameOutside_processQueue hunique htake hg⟩
  processQueue_idle s h g := by
    obtain ⟨outcome, t, hinquiry, hdb⟩ := e.idle_processQueue h
    rw [processQueue_inquiry, StateM.bind_run, hinquiry]
    exact hdb
  transactions s i c hc hjob ev hev := System.sameOutside_step hc hjob hev
  jobIn events c hc r hr hid :=
    ((System.Sound.run e events).tracked c.job (List.mem_map_of_mem hc) r hr hid).1
  uniqueJobs events := (System.Sound.run e events).db.keyed.uniqueJobs

end Lorebook
