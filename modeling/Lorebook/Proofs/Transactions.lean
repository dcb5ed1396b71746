import Lorebook.Engine.Editing
import Lorebook.Engine.Drafting
import Lorebook.Engine.Recovery
import Lorebook.Proofs.Statements

set_option autoImplicit false

/-! # What operations commit

An operation of the engine that succeeds commits a journal of writes, which the `commit_*` lemmas
spell out together with what the operation found before. One that fails leaves the database, which
is `FailsClean`. In both cases names are only ever added. -/

namespace Lorebook

open Studio Operation

/-! ## Commits -/

/-- Between two studios, the writes were committed, and the new jobs among them have new names. -/
structure Commit (s s' : Studio) (ws : List Write) : Prop where
  journal : Journal s.db ws s'.db
  names : s.minted ≤ s'.minted
  fresh : ∀ j, .addJob j ∈ ws → ∃ n, s.minted ≤ n ∧ n < s'.minted ∧ j.id = JobId.mint n

namespace Commit

variable {s t s' : Studio} {ws vs : List Write}

theorem of_sameDb (h : SameDb s s') : Commit s s' [] where
  journal := Journal.nil_iff.2 h.1
  names := h.2
  fresh j hj := by cases hj

theorem trans (h : Commit s t ws) (h' : Commit t s' vs) : Commit s s' (ws ++ vs) where
  journal := h.journal.append h'.journal
  names := Nat.le_trans h.names h'.names
  fresh j hj := by
    rcases List.mem_append.1 hj with hj | hj
    · obtain ⟨n, hle, hlt, hid⟩ := h.fresh j hj
      exact ⟨n, hle, Nat.lt_of_lt_of_le hlt h'.names, hid⟩
    · obtain ⟨n, hle, hlt, hid⟩ := h'.fresh j hj
      exact ⟨n, Nat.le_trans h.names hle, hlt, hid⟩

/-- What does not touch the database may come before. -/
theorem of_sameDb_trans (h : SameDb s t) (h' : Commit t s' ws) : Commit s s' ws :=
  (of_sameDb h).trans h'

/-- What does not touch the database may come after. -/
theorem trans_sameDb (h : Commit s t ws) (h' : SameDb t s') : Commit s s' ws := by
  have := h.trans (of_sameDb h')
  rwa [List.append_nil] at this

/-- A statement that adds no job commits its journal. -/
theorem of_store {db' : Database} (h : Journal s.db ws db') (hws : ∀ j, .addJob j ∉ ws) :
    Commit s (s.withDb db') ws where
  journal := h
  names := Nat.le_refl _
  fresh j hj := absurd hj (hws j)

end Commit

/-! ## Failing cleanly -/

section

variable {α β : Type}

/-- When the operation fails, the database is as before. -/
def FailsClean (op : Operation α) : Prop :=
  ∀ ⦃s e s'⦄, Fails op s e s' → SameDb s s'

theorem failsClean_of_respects {op : Operation α} (h : Respects SameDb op) : FailsClean op :=
  fun _ _ _ hfails => h.of_fails hfails

theorem failsClean_atomically {op : Operation α} (h : Respects NamesGrow op) :
    FailsClean (atomically op) :=
  fun _ _ _ hfails => sameDb_of_fails_atomically h hfails

theorem failsClean_bind {x : Operation α} {f : α → Operation β} (hx : Respects SameDb x)
    (hf : ∀ a, FailsClean (f a)) : FailsClean (x >>= f) := by
  intro s e s' h
  rw [fails_bind] at h
  rcases h with hfails | ⟨a, t, hyields, hfails⟩
  · exact hx.of_fails hfails
  · exact Chain.trans (hx.of_yields hyields) (hf a hfails)

theorem failsClean_store {st : Statement α}
    (h : ∀ {db e db'}, Fails st db e db' → db' = db) : FailsClean (store st) := by
  intro s e s' hfails
  obtain ⟨cause, db, hst, _, rfl⟩ := (fails_store st s e s').1 hfails
  exact ⟨h hst, Nat.le_refl _⟩

end

namespace Engine

/-! ## Worlds and modules that are looked up -/

theorem sameDb_ensureOwner (world : World) (owner : OwnerId) :
    Respects SameDb (ensureOwner world owner) :=
  respects_ite (respects_pure _) (respects_throw _)

theorem sameDb_ownedWorld (id : WorldId) (owner : OwnerId) :
    Respects SameDb (ownedWorld id owner) :=
  respects_bind (respects_store (Worlds.reads_require id)) fun w =>
    respects_bind (sameDb_ensureOwner w owner) fun _ => respects_pure w

theorem sameDb_newModule (world : WorldId) (d : ModuleDefinition) :
    Respects SameDb (newModule world d) :=
  respects_bind respects_mint fun _ => respects_bind respects_readClock fun _ => respects_pure _

theorem sameDb_moduleOrNew (world : WorldId) (d : ModuleDefinition) :
    Respects SameDb (moduleOrNew world d) := by
  refine respects_bind (respects_store (Modules.reads_find? world d.key)) fun found => ?_
  cases found with
  | none => exact sameDb_newModule world d
  | some m => exact respects_pure m

theorem respects_definition {R : Studio → Studio → Prop} [StudioChain R] (e : Engine)
    (key : String) : Respects R (e.definition key) :=
  respects_ofExcept _ _

/-- The owner of a live world, as the world was found. -/
theorem ownedWorld_found {id : WorldId} {owner : OwnerId} {s : Studio} {w : World} {s' : Studio}
    (h : Yields (ownedWorld id owner) s w s') : s.db.LiveWorld id w ∧ w.owner = owner := by
  simp only [ownedWorld, ensureOwner, yields_bind, yields_store, yields_ite, yields_pure,
    yields_throw, and_false, or_false] at h
  obtain ⟨w', _, ⟨db, hrequire, rfl⟩, _, _, ⟨howned, _, rfl⟩, rfl, rfl⟩ := h
  exact ⟨Worlds.liveWorld_of_require hrequire, of_decide_eq_true howned⟩

/-- The module of a definition as an operation finds it: stored, or new and without values. -/
inductive CurrentModule (db : Database) (world : WorldId) (d : ModuleDefinition) :
    WorldModule → Prop where
  | stored {m : WorldModule} (h : db.StoredModule world d.key m) : CurrentModule db world d m
  | fresh (habsent : ∀ r ∈ db.modules, Modules.isOf world d.key r = false) (id : ModuleId)
      (now : Instant) : CurrentModule db world d
        { WorldModule.new id world d.key now with status := .derive d .empty }

theorem CurrentModule.world_eq {db : Database} {world : WorldId} {d : ModuleDefinition}
    {m : WorldModule} (h : CurrentModule db world d m) : m.world = world := by
  cases h with
  | stored h => exact h.world_eq
  | fresh habsent id now => rfl

theorem CurrentModule.key_eq {db : Database} {world : WorldId} {d : ModuleDefinition}
    {m : WorldModule} (h : CurrentModule db world d m) : m.key = d.key := by
  cases h with
  | stored h => exact h.key_eq
  | fresh habsent id now => rfl

theorem moduleOrNew_current {world : WorldId} {d : ModuleDefinition} {s : Studio}
    {m : WorldModule} {s' : Studio} (h : Yields (moduleOrNew world d) s m s') :
    CurrentModule s.db world d m := by
  simp only [moduleOrNew, yields_bind, yields_store] at h
  obtain ⟨found, t, ⟨db, hfind, rfl⟩, h⟩ := h
  rcases Modules.find?_cases hfind with ⟨m', rfl, hstored⟩ | ⟨rfl, habsent⟩
  · simp only [yields_pure] at h
    obtain ⟨rfl, -⟩ := h
    exact .stored hstored
  · simp only [newModule, yields_bind, yields_mint, yields_readClock, yields_pure] at h
    obtain ⟨_, _, ⟨rfl, rfl⟩, _, _, ⟨rfl, rfl⟩, rfl, rfl⟩ := h
    exact .fresh habsent _ _

/-! ## Leasing and settling -/

/-- What marking the module of a job with a status writes, on a database. -/
inductive Marks (db : Database) (job : Job) (status : ModuleStatus) (now : Instant) :
    List Write → Prop where
  | absent (h : ∀ r ∈ db.modules, Modules.isOf job.world job.moduleKey r = false) :
      Marks db job status now []
  | stored {m : WorldModule} (h : db.StoredModule job.world job.moduleKey m) :
      Marks db job status now [.saveModule ({ m with status := status }.touch none now)]

/-- Marking a module stores it, with the status, under the names of the job. -/
theorem Marks.eq_saveModule {db : Database} {job : Job} {status : ModuleStatus} {now : Instant}
    {ws : List Write} (h : Marks db job status now ws) {w : Write} (hw : w ∈ ws) :
    ∃ m, w = .saveModule m ∧ m.world = job.world ∧ m.key = job.moduleKey ∧ m.status = status := by
  cases h with
  | absent _ => cases hw
  | stored hm => exact ⟨_, List.mem_singleton.1 hw, hm.world_eq, hm.key_eq, rfl⟩

/-- Marking a module writes nothing else. -/
theorem Marks.notMem {db : Database} {job : Job} {status : ModuleStatus} {now : Instant}
    {ws : List Write} (h : Marks db job status now ws) {w : Write} (hw : ∀ m, w ≠ .saveModule m) :
    w ∉ ws := by
  intro hmem
  obtain ⟨m, heq, _⟩ := h.eq_saveModule hmem
  exact hw m heq

/-- Marking a module leaves the jobs. -/
theorem Marks.onJobs_eq {db : Database} {job : Job} {status : ModuleStatus} {now : Instant}
    {ws : List Write} (h : Marks db job status now ws) :
    ∀ w ∈ ws, ∀ rows, w.onJobs rows = rows := by
  intro w hw rows
  obtain ⟨m, rfl, _⟩ := h.eq_saveModule hw
  rfl

/-- What marking writes depends on the stored modules only. -/
theorem Marks.of_modules_eq {db db' : Database} {job : Job} {status : ModuleStatus}
    {now : Instant} {ws : List Write} (h : Marks db job status now ws)
    (hmodules : db'.modules = db.modules) : Marks db' job status now ws := by
  cases h with
  | absent h =>
    rw [← hmodules] at h
    exact .absent h
  | stored h =>
    obtain ⟨row, hfind, hdecode⟩ := h
    rw [← hmodules] at hfind
    exact .stored ⟨row, hfind, hdecode⟩

theorem namesGrow_markModule (job : Job) (status : ModuleStatus) (now : Instant) :
    Respects NamesGrow (markModule job status now) := by
  refine respects_bind (namesGrow_store _) fun found => ?_
  cases found with
  | none => exact respects_pure _
  | some m => exact namesGrow_store _

theorem commit_markModule {job : Job} {status : ModuleStatus} {now : Instant} {s : Studio}
    {u : Unit} {s' : Studio} (h : Yields (markModule job status now) s u s') :
    ∃ ws, Marks s.db job status now ws ∧ Commit s s' ws := by
  simp only [markModule, yields_bind, yields_store] at h
  obtain ⟨found, t, ⟨db, hfind, rfl⟩, h⟩ := h
  have hdb := (Modules.reads_find? _ _).of_yields hfind
  subst hdb
  rcases Modules.find?_cases hfind with ⟨m, rfl, hstored⟩ | ⟨rfl, habsent⟩
  · simp only [yields_store] at h
    obtain ⟨db', hsave, rfl⟩ := h
    exact ⟨_, .stored hstored, Commit.of_store (Modules.journal_save hsave) (by simp)⟩
  · simp only [yields_pure] at h
    obtain ⟨-, rfl⟩ := h
    exact ⟨_, .absent habsent, Commit.of_sameDb (Chain.refl _)⟩

theorem failsClean_leaseNext : FailsClean leaseNext := by
  refine failsClean_atomically (respects_bind respects_readClock fun now =>
    respects_bind (namesGrow_store _) fun found => ?_)
  cases found with
  | none => exact respects_pure _
  | some job => exact respects_bind (namesGrow_markModule _ _ _) fun _ => respects_pure _

/-- A lease takes the next row and marks its module, or there is nothing to lease. -/
theorem commit_leaseNext {s : Studio} {found : Option Job} {s' : Studio}
    (h : Yields leaseNext s found s') :
    (found = none ∧ SameDb s s') ∨
      ∃ job row now ws, found = some job ∧
        (Jobs.leased (.text (Rfc3339.stored now)) row).decode = .ok job ∧
        Marks s.db job .generating now ws ∧ Commit s s' (.lease row now :: ws) := by
  simp only [leaseNext, yields_atomically, yields_bind, yields_readClock, yields_store] at h
  obtain ⟨now, _, ⟨rfl, rfl⟩, found', _, ⟨db, hlease, rfl⟩, h⟩ := h
  rcases Jobs.journal_leaseNext hlease with ⟨rfl, rfl⟩ | ⟨row, job, rfl, hjournal, hdecode⟩
  · simp only [yields_pure] at h
    obtain ⟨rfl, rfl⟩ := h
    exact Or.inl ⟨rfl, rfl, Nat.le_refl _⟩
  · simp only [yields_bind, yields_pure] at h
    obtain ⟨_, t, hmark, rfl, rfl⟩ := h
    obtain ⟨ws, hmarks, hcommit⟩ := commit_markModule hmark
    have hlease' : Commit s.ticked (s.ticked.withDb db) [.lease row s.clock] :=
      Commit.of_store hjournal (by simp)
    have hdb : db = (Write.lease row s.clock).apply s.db :=
      Journal.nil_iff.1 (Journal.cons_iff.1 hjournal).2
    refine Or.inr ⟨job, row, s.clock, ws, rfl, hdecode, ?_, ?_⟩
    · exact hmarks.of_modules_eq (by rw [withDb_db, hdb]; rfl)
    · exact Commit.of_sameDb_trans (StudioChain.ticked s) (hlease'.trans hcommit)

/-- A completion found the world live and the module stored. It settles the job, stores the content
with the fingerprint of the fields that it found, and activates the world when nothing of it is
outstanding any more. -/
theorem commit_complete {job : Job} {content : String} {s : Studio} {activated : Bool}
    {s' : Studio} (h : Yields (complete job content) s activated s') :
    ∃ w m now, s.db.LiveWorld job.world w ∧ s.db.StoredModule job.world job.moduleKey m ∧
      (activated = false ↔ ∃ r ∈ s'.db.jobs, r.world = .text job.world.text ∧
        (r.hasStatus .waiting = true ∨ r.hasStatus .running = true)) ∧
      Commit s s' ([.succeed job.id now, .saveModule (completed content now m)] ++
        if activated then [.changeWorld (w.activate now)] else []) := by
  simp only [complete, yields_atomically, yields_bind, yields_readClock, yields_store,
    yields_ite, yields_pure, yields_tell] at h
  obtain ⟨now, _, ⟨rfl, rfl⟩, w, _, ⟨db, hworld, rfl⟩, _, _, ⟨db₁, hmark, rfl⟩, m, _,
    ⟨db₂, hmodule, rfl⟩, _, _, ⟨db₃, hsave, rfl⟩, n, _, ⟨db₄, hcount, rfl⟩, hend⟩ := h
  -- The readings in between leave the database.
  have hdb : db = s.db := ((Worlds.reads_require _).of_yields hworld).symm
  have hdb₂ : db₂ = db₁ := ((Modules.reads_require _ _).of_yields hmodule).symm
  have hdb₄ : db₄ = db₃ := ((Jobs.reads_countOutstanding _).of_yields hcount).symm
  subst hdb hdb₂ hdb₄
  have hsettled := Jobs.journal_markSucceeded hmark
  have hstored : s.db.StoredModule job.world job.moduleKey m := by
    have hm := Modules.stored_of_require hmodule
    rw [Journal.nil_iff.1 (Journal.cons_iff.1 hsettled).2] at hm
    exact hm
  have hcommit : Commit s (s.ticked.withDb db₄)
      [.succeed job.id s.clock, .saveModule (completed content s.clock m)] :=
    Commit.of_sameDb_trans (StudioChain.ticked s)
      (Commit.of_store (hsettled.append (Modules.journal_save hsave)) (by simp))
  have hpending : 0 < n ↔ ∃ r ∈ db₄.jobs, r.world = .text job.world.text ∧
      (r.hasStatus .waiting = true ∨ r.hasStatus .running = true) :=
    Jobs.countOutstanding_cases hcount
  rcases hend with ⟨hn, rfl, rfl⟩ | ⟨hn, _, _, ⟨db₅, hupdate, rfl⟩, _, _, rfl, rfl, rfl⟩
  · refine ⟨w, m, s.clock, Worlds.liveWorld_of_require hworld, hstored, ?_, ?_⟩
    · simpa using hpending.1 hn
    · simpa using hcommit
  · have hwrite := Worlds.journal_update hupdate
    refine ⟨w, m, s.clock, Worlds.liveWorld_of_require hworld, hstored, ?_, ?_⟩
    · have hjobs : db₅.jobs = db₄.jobs := by
        rw [Journal.nil_iff.1 (Journal.cons_iff.1 hwrite).2]
        rfl
      rw [told_db, withDb_db, hjobs, ← hpending]
      simp [hn]
    · refine hcommit.trans (Commit.trans_sameDb (Commit.of_store hwrite (by simp)) ?_)
      exact StudioChain.told _ _

theorem failsClean_complete (job : Job) (content : String) :
    FailsClean (complete job content) := by
  refine failsClean_atomically (respects_bind respects_readClock fun _ =>
    respects_bind (namesGrow_store _) fun _ => respects_bind (namesGrow_store _) fun _ =>
    respects_bind (namesGrow_store _) fun _ => respects_bind (namesGrow_store _) fun _ =>
    respects_bind (namesGrow_store _) fun _ => ?_)
  exact respects_ite (respects_pure _) (respects_bind (namesGrow_store _) fun _ =>
    respects_bind (respects_tell _) fun _ => respects_pure _)

/-- A failure settles the job and marks its module. -/
theorem commit_fail {job : Job} {message : String} {s : Studio} {u : Unit} {s' : Studio}
    (h : Yields (fail job message) s u s') :
    ∃ now ws, Marks s.db job .failed now ws ∧
      Commit s s' (.fail job.id message now :: ws) := by
  simp only [fail, yields_atomically, yields_bind, yields_readClock, yields_store] at h
  obtain ⟨now, _, ⟨rfl, rfl⟩, _, _, ⟨db, hmark, rfl⟩, hmodule⟩ := h
  have hsettled := Jobs.journal_markFailed hmark
  obtain ⟨ws, hmarks, hcommit⟩ := commit_markModule hmodule
  have hdb := Journal.nil_iff.1 (Journal.cons_iff.1 hsettled).2
  exact ⟨s.clock, ws, hmarks.of_modules_eq (by rw [withDb_db, hdb]; rfl),
    Commit.of_sameDb_trans (StudioChain.ticked s)
      ((Commit.of_store hsettled (by simp)).trans hcommit)⟩

theorem failsClean_fail (job : Job) (message : String) : FailsClean (fail job message) :=
  failsClean_atomically (respects_bind respects_readClock fun _ =>
    respects_bind (namesGrow_store _) fun _ => namesGrow_markModule _ _ _)

/-- Releasing a lease fails the job as `fail` does, or finds that it is not running. -/
theorem commit_release {job : Job} {cause : EngineError} {s : Studio} {released : Bool}
    {s' : Studio} (h : Yields (release job cause) s released s') :
    (released = false ∧ SameDb s s') ∨
      (released = true ∧ ∃ message now ws, Marks s.db job .failed now ws ∧
        Commit s s' (.fail job.id message now :: ws)) := by
  simp only [release, yields_atomically, yields_bind, yields_readClock, yields_statement] at h
  obtain ⟨now, _, ⟨rfl, rfl⟩, result, t, ⟨hresult, ht⟩, h⟩ := h
  rcases hrun : Jobs.markFailed job.id s!"result discarded: {cause.message}" s.clock s.db with
    ⟨e | u, db⟩
  · -- A job that is not running stays as it is.
    have hdb : db = s.db := Jobs.reads_of_fails_markFailed hrun
    have hrun' : s.ticked.db.run (Jobs.markFailed job.id s!"result discarded: {cause.message}"
      s.clock) = (.error e, db) := hrun
    rw [hrun'] at hresult ht
    subst hresult ht hdb
    have hsame : SameDb s (s.ticked.withDb s.db) := ⟨rfl, Nat.le_refl _⟩
    cases e <;> simp only [yields_pure, yields_throw] at h <;>
      exact Or.inl ⟨h.1, h.2 ▸ hsame⟩
  · have hsettled := Jobs.journal_markFailed (show Yields _ s.db u db from hrun)
    have hrun' : s.ticked.db.run (Jobs.markFailed job.id s!"result discarded: {cause.message}"
      s.clock) = (.ok u, db) := hrun
    rw [hrun'] at hresult ht
    subst hresult ht
    simp only [yields_bind, yields_pure] at h
    obtain ⟨_, t, hmodule, rfl, rfl⟩ := h
    obtain ⟨ws, hmarks, hcommit⟩ := commit_markModule hmodule
    have hdb := Journal.nil_iff.1 (Journal.cons_iff.1 hsettled).2
    have hsettle : Commit s.ticked (s.ticked.withDb db)
        [.fail job.id s!"result discarded: {cause.message}" s.clock] :=
      Commit.of_store hsettled (by simp)
    exact Or.inr ⟨rfl, _, s.clock, ws, hmarks.of_modules_eq (by rw [withDb_db, hdb]; rfl),
      Commit.of_sameDb_trans (StudioChain.ticked s) (hsettle.trans hcommit)⟩

theorem failsClean_release (job : Job) (cause : EngineError) :
    FailsClean (release job cause) := by
  refine failsClean_atomically (respects_bind respects_readClock fun _ =>
    respects_bind (namesGrow_statement _) fun result => ?_)
  rcases result with e | u
  · cases e <;> first | exact respects_pure _ | exact respects_throw _
  · exact respects_bind (namesGrow_markModule _ _ _) fun _ => respects_pure _

/-! ## Sweeping -/

/-- The write fails a job or marks a module as failed, as the expiry of a lease does. -/
inductive Expires : Write → Prop where
  | job (id : JobId) (message : String) (now : Instant) : Expires (.fail id message now)
  | module (m : WorldModule) (h : m.status = .failed) : Expires (.saveModule m)

theorem Marks.expires {db : Database} {job : Job} {now : Instant} {ws : List Write}
    (h : Marks db job .failed now ws) : ∀ w ∈ ws, Expires w := by
  intro w hw
  obtain ⟨m, rfl, _, _, hstatus⟩ := h.eq_saveModule hw
  exact .module m hstatus

theorem namesGrow_expire (now : Instant) (job : Job) : Respects NamesGrow (expire now job) :=
  respects_bind (namesGrow_store _) fun _ => respects_bind (namesGrow_markModule _ _ _) fun _ =>
    respects_bind (respects_tell _) fun _ => namesGrow_store _

/-- An expiry fails the job and marks its module, as it is then. -/
theorem marks_of_expire {now : Instant} {job : Job} {s : Studio} {j : Job} {s' : Studio}
    (h : Yields (expire now job) s j s') :
    ∃ ws, Marks s.db job .failed now ws ∧ Commit s s' (.fail job.id leaseExpired now :: ws) := by
  simp only [expire, yields_bind, yields_store, yields_tell] at h
  obtain ⟨_, _, ⟨db, hmark, rfl⟩, _, t, hmodule, _, _, rfl, db', hrequire, rfl⟩ := h
  obtain ⟨ws, hmarks, hcommit⟩ := commit_markModule hmodule
  have hsettled := Jobs.journal_markFailed hmark
  have hdb := Journal.nil_iff.1 (Journal.cons_iff.1 hsettled).2
  have hsettle : Commit s (s.withDb db) [.fail job.id leaseExpired now] :=
    Commit.of_store hsettled (by simp)
  refine ⟨ws, hmarks.of_modules_eq (by rw [withDb_db, hdb]; rfl),
    (hsettle.trans hcommit).trans_sameDb ⟨?_, Nat.le_refl _⟩⟩
  exact ((Jobs.reads_require _).of_yields hrequire).symm

theorem commit_expire {now : Instant} {job : Job} {s : Studio} {j : Job} {s' : Studio}
    (h : Yields (expire now job) s j s') :
    ∃ ws, (∀ w ∈ ws, Expires w) ∧ Commit s s' ws := by
  obtain ⟨ws, hmarks, hcommit⟩ := marks_of_expire h
  refine ⟨_, fun w hw => ?_, hcommit⟩
  rcases List.mem_cons.1 hw with rfl | hw
  · exact .job _ _ _
  · exact hmarks.expires w hw

theorem commit_expireAll {now : Instant} {jobs : List Job} {s : Studio} {js : List Job}
    {s' : Studio} (h : Yields (jobs.mapM (expire now)) s js s') :
    ∃ ws, (∀ w ∈ ws, Expires w) ∧ Commit s s' ws := by
  induction jobs generalizing s js with
  | nil =>
    simp only [List.mapM_nil, yields_pure] at h
    obtain ⟨-, rfl⟩ := h
    exact ⟨[], by simp, Commit.of_sameDb (Chain.refl _)⟩
  | cons job jobs ih =>
    simp only [List.mapM_cons, yields_bind, yields_pure] at h
    obtain ⟨_, t, hexpire, _, _, hrest, rfl, rfl⟩ := h
    obtain ⟨ws, hws, hcommit⟩ := commit_expire hexpire
    obtain ⟨vs, hvs, hcommit'⟩ := ih hrest
    refine ⟨ws ++ vs, fun w hw => ?_, hcommit.trans hcommit'⟩
    rcases List.mem_append.1 hw with hw | hw
    · exact hws w hw
    · exact hvs w hw

/-- A look at stale leases expires jobs and does nothing else. -/
theorem commit_recoverStaleLeases {timeout : Span} {s : Studio} {js : List Job} {s' : Studio}
    (h : Yields (recoverStaleLeases timeout) s js s') :
    ∃ ws, (∀ w ∈ ws, Expires w) ∧ Commit s s' ws := by
  simp only [recoverStaleLeases, yields_bind, yields_ite, yields_throw, yields_atomically,
    yields_readClock, yields_store, and_false, false_or, or_false] at h
  obtain ⟨_, _, _, ⟨rfl, rfl⟩, _, stale, _, ⟨db, hstale, rfl⟩, hexpire⟩ := h
  have hread : SameDb s (s.ticked.withDb db) :=
    ⟨((Jobs.reads_runningSinceBefore _).of_yields hstale).symm, Nat.le_refl _⟩
  obtain ⟨ws, hws, hcommit⟩ := commit_expireAll hexpire
  exact ⟨ws, hws, Commit.of_sameDb_trans hread hcommit⟩

/-- What every expiry keeps, a look at stale leases keeps. -/
theorem recoverStaleLeases_invariant {I : Database → Prop} {timeout : Span} {s : Studio}
    {js : List Job} {s' : Studio} (h : Yields (recoverStaleLeases timeout) s js s')
    (step : ∀ db db' job now ws, Marks db job .failed now ws →
      Journal db (.fail job.id leaseExpired now :: ws) db' → I db → I db') (hs : I s.db) :
    I s'.db := by
  simp only [recoverStaleLeases, yields_bind, yields_ite, yields_throw, yields_atomically,
    yields_readClock, yields_store, and_false, false_or, or_false] at h
  obtain ⟨_, _, _, ⟨rfl, rfl⟩, _, stale, _, ⟨db, hstale, rfl⟩, hexpire⟩ := h
  have hdb : db = s.db := ((Jobs.reads_runningSinceBefore _).of_yields hstale).symm
  -- The jobs expire one after the other, each on what the ones before it left.
  have hall (jobs : List Job) {t : Studio} {js : List Job} (ht : I t.db)
      (h : Yields (jobs.mapM (expire s.clock)) t js s') : I s'.db := by
    induction jobs generalizing t js with
    | nil =>
      simp only [List.mapM_nil, yields_pure] at h
      rw [h.2]
      exact ht
    | cons job jobs ih =>
      simp only [List.mapM_cons, yields_bind, yields_pure] at h
      obtain ⟨_, u, hfirst, _, _, hrest, rfl, rfl⟩ := h
      obtain ⟨ws, hmarks, hcommit⟩ := marks_of_expire hfirst
      exact ih (step _ _ _ _ _ hmarks hcommit.journal ht) hrest
  exact hall stale (by rw [withDb_db, hdb]; exact hs) hexpire

theorem failsClean_recoverStaleLeases (timeout : Span) :
    FailsClean (recoverStaleLeases timeout) := by
  unfold recoverStaleLeases
  split
  · exact failsClean_of_respects (respects_throw _)
  · refine failsClean_atomically (respects_bind respects_readClock fun now => ?_)
    exact respects_ite (respects_bind (namesGrow_store _) fun _ =>
      respects_mapM (namesGrow_expire now) _) (respects_throw _)

/-! ## Editing and drafting -/

/-- A new world is a draft with a name of its own. -/
theorem commit_createWorld {owner : OwnerId} {name : String} {tagline : Option String}
    {themes : List String} {s : Studio} {w : World} {s' : Studio}
    (h : Yields (createWorld owner name tagline themes) s w s') :
    w.status = .draft ∧ Commit s s' [.addWorld w] := by
  unfold createWorld at h
  split at h
  · simp at h
  · simp only [yields_bind, yields_mint, yields_readClock, yields_store, yields_pure] at h
    obtain ⟨_, _, ⟨rfl, rfl⟩, _, _, ⟨rfl, rfl⟩, _, _, ⟨db, hinsert, rfl⟩, rfl, rfl⟩ := h
    have hnames : SameDb s s.minting.ticked := ⟨rfl, Nat.le_succ _⟩
    exact ⟨rfl, Commit.of_sameDb_trans hnames
      (Commit.of_store (Worlds.journal_insert hinsert) (by simp))⟩

theorem failsClean_createWorld (owner : OwnerId) (name : String) (tagline : Option String)
    (themes : List String) : FailsClean (createWorld owner name tagline themes) := by
  unfold createWorld
  split
  · exact failsClean_of_respects (respects_throw _)
  · refine failsClean_bind respects_mint fun n => failsClean_bind respects_readClock fun now => ?_
    intro s e s' h
    simp only [fails_bind, fails_pure, and_false, exists_false, or_false] at h
    exact failsClean_store Worlds.reads_of_fails_insert h

/-- Saving fields writes them over those of the current module. -/
theorem commit_saveModuleFields {e : Engine} {world : WorldId} {module : String}
    {owner : OwnerId} {fields : List (String × String)} {s : Studio} {m : WorldModule}
    {s' : Studio} (h : Yields (e.saveModuleFields world module owner fields) s m s') :
    ∃ d m₀ now, e.registry.require module = .ok d ∧ CurrentModule s.db world d m₀ ∧
      m = (withFields d fields m₀).touch (some owner) now ∧ Commit s s' [.saveModule m] := by
  simp only [saveModuleFields, definition, yields_bind, yields_ofExcept] at h
  obtain ⟨d, _, ⟨hd, rfl⟩, h⟩ := h
  split at h
  · simp at h
  · simp only [yields_atomically, yields_bind, yields_readClock, yields_store, yields_pure] at h
    obtain ⟨w, t, howned, m₀, t', hcurrent, now, _, ⟨rfl, rfl⟩, _, _, ⟨db, hsave, rfl⟩, rfl,
      rfl⟩ := h
    have hw := (sameDb_ownedWorld world owner).of_yields howned
    have hm := (sameDb_moduleOrNew world d).of_yields hcurrent
    have hfound := moduleOrNew_current hcurrent
    rw [hw.1] at hfound
    exact ⟨d, m₀, _, hd, hfound, rfl, Commit.of_sameDb_trans (Chain.trans hw hm)
      (Commit.of_sameDb_trans (StudioChain.ticked t')
        (Commit.of_store (Modules.journal_save hsave) (by simp)))⟩

theorem failsClean_saveModuleFields (e : Engine) (world : WorldId) (module : String)
    (owner : OwnerId) (fields : List (String × String)) :
    FailsClean (e.saveModuleFields world module owner fields) := by
  refine failsClean_bind (respects_definition e module) fun d => ?_
  split
  · exact failsClean_of_respects (respects_throw _)
  · exact failsClean_atomically
      (respects_bind (namesGrow_of_sameDb (sameDb_ownedWorld world owner)) fun _ =>
        respects_bind (namesGrow_of_sameDb (sameDb_moduleOrNew world d)) fun _ =>
        respects_bind respects_readClock fun _ => respects_bind (namesGrow_store _) fun _ =>
        respects_pure _)

theorem sameDb_ensureNotQueued (world : WorldId) (module : String) :
    Respects SameDb (ensureNotQueued world module) := by
  refine respects_bind (respects_store (Jobs.reads_find? world module)) fun found => ?_
  cases found with
  | none => exact respects_pure _
  | some job => exact respects_ite (respects_pure _) (respects_throw _)

theorem sameDb_loadScope (id : WorldId) (owner : OwnerId) (d : ModuleDefinition) :
    Respects SameDb (loadScope id owner d) := by
  refine respects_bind (respects_store (respects_bind (Worlds.reads_require id) fun _ =>
    respects_bind (Modules.reads_listForWorld id) fun _ => respects_pure _)) fun found => ?_
  refine respects_bind (sameDb_ensureOwner _ _) fun _ => ?_
  split
  · exact respects_pure _
  · exact respects_bind (sameDb_newModule _ _) fun _ => respects_pure _

section

variable {R : Studio → Studio → Prop} [StudioChain R]

theorem respects_credentialsFor (e : Engine) (world : World) :
    Respects R (e.credentialsFor world) :=
  respects_bind (respects_forM respects_tell _) fun _ => respects_ofExcept _ _

theorem respects_renderPrompt (e : Engine) (stage : PromptStage) (module : String)
    (context : Json) : Respects R (e.renderPrompt stage module context) :=
  respects_ofExcept _ _

/-- Asking for the content of a job leaves the database. -/
theorem respects_requestFor (e : Engine) (job : Job) : Respects R (e.requestFor job) := by
  refine respects_bind (respects_definition e _) fun d => respects_bind
    (respects_store (respects_bind (Worlds.reads_require _) fun _ =>
      respects_bind (Modules.reads_listForWorld _) fun _ => respects_pure _)) fun found => ?_
  split
  rename_i world siblings
  split
  · exact respects_throw _
  · exact respects_bind (respects_renderPrompt _ _ _ _) fun _ =>
      respects_bind (respects_credentialsFor _ _) fun _ => respects_pure _

end

/-- Asking for a draft leaves the database. -/
theorem sameDb_draftRequestIn (e : Engine) (id : WorldId) (d : ModuleDefinition)
    (scope : World × WorldModule × List WorldModule) :
    Respects SameDb (e.draftRequestIn id d scope) :=
  respects_bind (sameDb_atomically (sameDb_ensureNotQueued _ _)) fun _ =>
    respects_bind (respects_credentialsFor _ _) fun _ =>
    respects_bind (respects_renderPrompt _ _ _ _) fun _ => respects_pure _

/-- A merge writes the proposed fields over those of the current module, which is not queued. -/
theorem commit_mergeDraft {id : WorldId} {d : ModuleDefinition} {owner : OwnerId}
    {proposed : List (String × String)} {s : Studio} {m : WorldModule} {s' : Studio}
    (h : Yields (mergeDraft id d owner proposed) s m s') :
    ∃ m₀ now, CurrentModule s.db id d m₀ ∧ m = (drafted proposed m₀).touch (some owner) now ∧
      Commit s s' [.saveModule m] := by
  simp only [mergeDraft, yields_atomically, yields_bind, yields_readClock, yields_store,
    yields_tell, yields_pure] at h
  obtain ⟨_, t, hqueued, m₀, t', hcurrent, now, _, ⟨rfl, rfl⟩, _, _, ⟨db, hsave, rfl⟩, _, _, rfl,
    rfl, rfl⟩ := h
  have hq := (sameDb_ensureNotQueued _ _).of_yields hqueued
  have hm := (sameDb_moduleOrNew id d).of_yields hcurrent
  have hfound := moduleOrNew_current hcurrent
  rw [hq.1] at hfound
  refine ⟨m₀, _, hfound, rfl, Commit.of_sameDb_trans (Chain.trans hq hm)
    (Commit.of_sameDb_trans (StudioChain.ticked t') (Commit.trans_sameDb
      (Commit.of_store (Modules.journal_save hsave) (by simp)) ?_))⟩
  exact StudioChain.told _ _

theorem failsClean_mergeDraft (id : WorldId) (d : ModuleDefinition) (owner : OwnerId)
    (proposed : List (String × String)) : FailsClean (mergeDraft id d owner proposed) :=
  failsClean_atomically
    (respects_bind (namesGrow_of_sameDb (sameDb_ensureNotQueued _ _)) fun _ =>
      respects_bind (namesGrow_of_sameDb (sameDb_moduleOrNew id d)) fun _ =>
      respects_bind respects_readClock fun _ => respects_bind (namesGrow_store _) fun _ =>
      respects_bind (respects_tell _) fun _ => respects_pure _)

theorem failsClean_acceptDraft (id : WorldId) (d : ModuleDefinition) (owner : OwnerId)
    (reply : GenerationReply) : FailsClean (acceptDraft id d owner reply) :=
  failsClean_bind (respects_ofExcept _ _) fun _ => failsClean_bind (respects_ofExcept _ _) fun _ =>
    failsClean_bind (respects_tell _) fun _ => failsClean_mergeDraft _ _ _ _

/-- Accepting the reply to a draft request merges what it proposes. -/
theorem commit_acceptDraft {id : WorldId} {d : ModuleDefinition} {owner : OwnerId}
    {reply : GenerationReply} {s : Studio} {m : WorldModule} {s' : Studio}
    (h : Yields (acceptDraft id d owner reply) s m s') :
    ∃ m₀ proposed now, CurrentModule s.db id d m₀ ∧
      m = (drafted proposed m₀).touch (some owner) now ∧ Commit s s' [.saveModule m] := by
  simp only [acceptDraft, yields_bind, yields_ofExcept, yields_tell] at h
  obtain ⟨text, _, ⟨_, rfl⟩, proposed, _, ⟨_, rfl⟩, _, t, rfl, hmerge⟩ := h
  obtain ⟨m₀, now, hcurrent, hm, hcommit⟩ := commit_mergeDraft hmerge
  exact ⟨m₀, proposed, now, hcurrent, hm,
    Commit.of_sameDb_trans (StudioChain.told _ _) hcommit⟩

end Engine

end Lorebook
