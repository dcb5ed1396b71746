import Lorebook.Proofs.Answers
import Lorebook.Proofs.ReadBack

set_option autoImplicit false

/-! # Retrying is all or nothing

Retrying looks for the module in the registry, for its world and the owner, and for its job; it puts
the job back in the queue and only then looks for the module, so that a module without a row undoes
what was written before. On a database that the schema keeps and whose rows can be read it succeeds
exactly where `Engine.CanRetry` holds; everywhere else it leaves the database and fails as the first
check says that does not pass (`Engine.RetryRefusal`). Where it succeeds, `Database.Retried` says row
by row what is left (`Engine.retry_exact`). -/

namespace Lorebook

open Studio Operation

/-! ## When a retry is possible -/

/-- Whether a row is that of the job of one module. -/
def Jobs.isOf (world : WorldId) (key : String) (r : JobRow) : Bool :=
  r.world.isText world.text && r.moduleKey.isText key

theorem Jobs.isOf_iff {world : WorldId} {key : String} {r : JobRow} :
    isOf world key r = true ↔ r.world = .text world.text ∧ r.moduleKey = .text key := by
  rw [isOf, Bool.and_eq_true, Cell.isText_iff, Cell.isText_iff]

namespace Engine

/-- The world is live and belongs to the owner. -/
def OwnsWorld (db : Database) (id : WorldId) (owner : OwnerId) : Prop :=
  ∃ w, db.LiveWorld id w ∧ w.owner = owner

/-- A module's job can be retried: the registry knows the module, its world is the owner's, the job
is stored and does not run, and the module is stored. -/
structure CanRetry (e : Engine) (db : Database) (id : WorldId) (key : String) (owner : OwnerId) :
    Prop where
  known : key ∈ e.registry.keys
  owned : OwnsWorld db id owner
  settled : ∃ r ∈ db.jobs, Jobs.isOf id key r = true ∧ r.hasStatus .running = false
  stored : ∃ m, db.StoredModule id key m

/-- Why a retry is refused: the first check that does not pass, after all those before it did. -/
inductive RetryRefusal (e : Engine) (db : Database) (id : WorldId) (key : String)
    (owner : OwnerId) : EngineError → Prop where
  | unknownModule (h : key ∉ e.registry.keys) :
      RetryRefusal e db id key owner (.notFound (.moduleKey key))
  | noWorld (known : key ∈ e.registry.keys) (h : ∀ r ∈ db.worlds, Worlds.isLive id r = false) :
      RetryRefusal e db id key owner (.notFound (.world id))
  | notOwner (known : key ∈ e.registry.keys) {w : World} (live : db.LiveWorld id w)
      (h : w.owner ≠ owner) : RetryRefusal e db id key owner (.forbidden (.notOwner id owner))
  | noJob (known : key ∈ e.registry.keys) (owned : OwnsWorld db id owner)
      (h : ∀ r ∈ db.jobs, Jobs.isOf id key r = false) :
      RetryRefusal e db id key owner (.notFound (.jobOf id key))
  | running (known : key ∈ e.registry.keys) (owned : OwnsWorld db id owner) {r : JobRow}
      (hr : r ∈ db.jobs) (hof : Jobs.isOf id key r = true) {job : JobId}
      (hid : r.id = .text job.text) (h : r.hasStatus .running = true) :
      RetryRefusal e db id key owner (.conflict (.jobRunning job))
  | noModule (known : key ∈ e.registry.keys) (owned : OwnsWorld db id owner)
      (settled : ∃ r ∈ db.jobs, Jobs.isOf id key r = true ∧ r.hasStatus .running = false)
      (h : ∀ r ∈ db.modules, Modules.isOf id key r = false) :
      RetryRefusal e db id key owner (.notFound (.moduleOf key id))

/-! ## The checks -/

section

variable {e : Engine} {s : Studio} {id : WorldId} {key : String} {owner : OwnerId}

theorem yields_definition (h : key ∈ e.registry.keys) : ∃ d, Yields (e.definition key) s d s := by
  obtain ⟨d, hd⟩ := Registry.require_of_mem h
  exact ⟨d, (yields_ofExcept _ _ s d s).2 ⟨hd, rfl⟩⟩

theorem fails_definition (h : key ∉ e.registry.keys) :
    Fails (e.definition key) s (.notFound (.moduleKey key)) s := by
  have hnone : e.registry.find? key = none := by
    refine List.find?_eq_none.2 fun d hd heq => h ?_
    exact List.mem_map.2 ⟨d, hd, eq_of_beq heq⟩
  rw [definition, Registry.require, hnone]
  exact Fails.throw _ s

theorem fails_ownedWorld_of_absent (h : Fails (Worlds.require id) s.db (.notFound (.world id)) s.db) :
    Fails (ownedWorld id owner) s (.notFound (.world id)) s :=
  (Fails.store s h).bind

theorem fails_ownedWorld_of_foreign (hcomplete : s.db.dropped = []) {w : World}
    (hlive : s.db.LiveWorld id w) (hne : w.owner ≠ owner) :
    Fails (ownedWorld id owner) s (.forbidden (.notOwner id owner)) s := by
  refine Yields.bind_fails (Yields.store s (Worlds.yields_require hcomplete hlive)) ?_
  rw [ensureOwner, if_neg (by simpa [World.isOwnedBy] using hne), hlive.id_eq]
  exact (Fails.throw _ s).bind

end

end Engine

/-- A job that does not run is put back in the queue. -/
theorem Jobs.yields_resetForRetry {db : Database} (hcomplete : db.dropped = []) {id : JobId}
    {now : Instant} (h : (Write.requeue id now).Allowed db) :
    Yields (resetForRetry id now) db () ((Write.requeue id now).apply db) := by
  obtain ⟨r, hr, hid, hidle⟩ := h
  have hany : (db.jobs.any fun q => q.id.isText id.text && !q.hasStatus .running) = true :=
    List.any_eq_true.2 ⟨r, hr, by rw [Cell.isText_iff.2 hid, hidle]; rfl⟩
  have hchange : Yields (change id (!·.hasStatus .running)
      (requeued (.text (Rfc3339.stored now)))) db true ((Write.requeue id now).apply db) := by
    refine Yields.bind (Statement.yields_needs_complete hcomplete _)
      (Yields.bind (Yields.get db) ?_)
    rw [if_pos hany]
    exact Yields.bind (Yields.modify _ _) (Yields.pure _ _)
  exact Yields.bind hchange (Yields.pure _ _)

namespace Engine

section

variable {e : Engine} {s : Studio} {id : WorldId} {key : String} {owner : OwnerId}

/-- The row of a module's job is found by the module. -/
theorem yields_find?_of_isOf (hkeyed : s.db.Keyed) {r : JobRow} (hr : r ∈ s.db.jobs)
    (hof : Jobs.isOf id key r = true) {job : Job} (hjob : r.decode = .ok job) :
    Yields (store (Jobs.find? id key)) s (some job) s := by
  have hholds := JobRow.holds_of_decode hjob
  obtain ⟨hworld, hkey⟩ := Jobs.isOf_iff.1 hof
  obtain rfl : job.world = id :=
    WorldId.eq_of_text (Cell.text.inj (hholds.world.symm.trans hworld))
  obtain rfl : job.moduleKey = key := Cell.text.inj (hholds.moduleKey.symm.trans hkey)
  exact Yields.store s
    (Jobs.yields_find?_of_nodup hkeyed.complete hkeyed.jobIds hkeyed.jobKeys hr hjob)

/-- A job that was put back in the queue can be looked up, while only other tables change. -/
theorem yields_require_requeued {db db' : Database} (hkeyed : db.Keyed) {r : JobRow}
    (hr : r ∈ db.jobs) {job : Job} (hjob : r.decode = .ok job)
    (hidle : r.hasStatus .running = false) {now : Instant} (hnow : now.InEra)
    (hjobs : db'.jobs = ((Write.requeue job.id now).apply db).jobs) (hcomplete : db'.dropped = []) :
    ∃ j, (Jobs.requeued (.text (Rfc3339.stored now)) r).decode = .ok j ∧
      Yields (Jobs.require job.id) db' j db' := by
  have hreads := (JobRow.decode_eq_ok.1 hjob).requeued hnow
  have hid : r.id = .text job.id.text := (JobRow.holds_of_decode hjob).id
  have hrow : Jobs.requeued (.text (Rfc3339.stored now)) r ∈ db'.jobs := by
    rw [hjobs]
    refine List.mem_map.2 ⟨r, hr, ?_⟩
    simp only [Write.onJob, Cell.isText_iff.2 hid, hidle, Bool.not_false, Bool.and_self, if_true]
  have hids : (db'.jobs.map (·.id)).Nodup := by
    rw [hjobs]
    exact (hkeyed.journal (Journal.single (w := .requeue job.id now)
      ⟨r, hr, hid, hidle⟩)).jobIds
  exact ⟨_, JobRow.decode_eq_ok.2 hreads,
    Jobs.yields_require_of_nodup hcomplete hids hrow (JobRow.decode_eq_ok.2 hreads)⟩

/-- A retry succeeds where it can, on rows that can be read. -/
theorem succeeds_retryModule (hkeyed : s.db.Keyed) (hrows : s.db.Readable)
    (hera : s.clock.InEra) (h : e.CanRetry s.db id key owner) :
    Succeeds (e.retryModule id key owner) s := by
  obtain ⟨d, hd⟩ := yields_definition (s := s) h.known
  obtain ⟨w, hlive, rfl⟩ := h.owned
  obtain ⟨r, hr, hof, hidle⟩ := h.settled
  obtain ⟨m, hm⟩ := h.stored
  obtain ⟨job, hjob⟩ := hrows.jobs r hr
  -- The databases after the job was reset, the module was saved and the world was written back.
  let db₁ := (Write.requeue job.id s.clock).apply s.db
  let db₂ := (Write.saveModule (awaiting w.owner s.clock m)).apply db₁
  let db₃ := (Write.changeWorld (w.beginGeneration s.clock)).apply db₂
  have hcomplete₁ : db₁.dropped = [] := hkeyed.complete
  have hcomplete₂ : db₂.dropped = [] := hkeyed.complete
  have hreset : Yields (Jobs.resetForRetry job.id s.clock) s.db () db₁ :=
    Jobs.yields_resetForRetry hkeyed.complete ⟨r, hr, (JobRow.holds_of_decode hjob).id, hidle⟩
  have hm₁ : db₁.StoredModule id key m := hm
  have hsaved : Yields (Modules.save (awaiting w.owner s.clock m)) db₁ () db₂ :=
    Modules.yields_save_allowed hcomplete₁ (hm₁.allowed_saveModule hm.world_eq hm.key_eq)
  have hlive₂ : db₂.LiveWorld id w := hlive
  have hupdated : Yields (Worlds.update (w.beginGeneration s.clock)) db₂ () db₃ :=
    Worlds.yields_update hcomplete₂ (hlive₂.allowed_changeWorld hlive.id_eq)
  refine Yields.bind_succeeds hd (Succeeds.atomically
    (Yields.bind_succeeds (yields_ownedWorld hkeyed.complete hlive)
      (Yields.bind_succeeds (yields_find?_of_isOf hkeyed hr hof hjob)
        (Yields.bind_succeeds (yields_clock s)
          (Yields.bind_succeeds (Yields.store _ hreset)
            (Yields.bind_succeeds (Yields.store _ (Modules.yields_require hcomplete₁ hm₁))
              (Yields.bind_succeeds (Yields.store _ hsaved) ?_)))))))
  by_cases hgenerating : w.status = .generating
  · rw [if_pos hgenerating]
    obtain ⟨j, _, hrequire⟩ := yields_require_requeued hkeyed hr hjob hidle hera (rfl : db₂.jobs = _)
      hkeyed.complete
    exact Yields.bind_succeeds (yields_told _ _) (Yields.store _ hrequire).succeeds
  · rw [if_neg hgenerating]
    obtain ⟨j, _, hrequire⟩ := yields_require_requeued hkeyed hr hjob hidle hera (rfl : db₃.jobs = _)
      hkeyed.complete
    exact Yields.bind_succeeds (Yields.store _ hupdated)
      (Yields.bind_succeeds (yields_told _ _) (Yields.store _ hrequire).succeeds)

/-- The lookup of a job that is not stored finds nothing. -/
theorem yields_find?_none (hcomplete : s.db.dropped = [])
    (h : ∀ r ∈ s.db.jobs, Jobs.isOf id key r = false) :
    Yields (store (Jobs.find? id key)) s none s := by
  have hnone : s.db.jobs.filter (fun r => r.world.isText id.text && r.moduleKey.isText key) = [] :=
    List.filter_eq_nil_iff.2 fun r hr => Bool.eq_false_iff.1 (h r hr)
  refine Yields.store s (Yields.bind (Statement.yields_needs_complete hcomplete _)
    (Yields.bind (Yields.get s.db) ?_))
  rw [hnone]
  exact Yields.bind (Yields.pure [] s.db) (Yields.pure none s.db)

/-- A retry is possible, or it is refused by the first check that does not pass. -/
theorem retryModule_cases (e : Engine) (id : WorldId) (key : String) (owner : OwnerId)
    (hkeyed : s.db.Keyed) (hrows : s.db.Readable) :
    e.CanRetry s.db id key owner ∨ ∃ cause s', Fails (e.retryModule id key owner) s cause s' ∧
      RetryRefusal e s.db id key owner cause := by
  by_cases hknown : key ∈ e.registry.keys
  swap
  · exact Or.inr ⟨_, _, (fails_definition hknown).bind, .unknownModule hknown⟩
  obtain ⟨d, hd⟩ := yields_definition (s := s) hknown
  rcases Worlds.require_cases hkeyed.complete hrows id with ⟨w, hlive⟩ | ⟨hdead, hfails⟩
  swap
  · exact Or.inr ⟨_, _, hd.bind_fails (fails_ownedWorld_of_absent hfails).bind.atomically,
      .noWorld hknown hdead⟩
  by_cases howner : w.owner = owner
  swap
  · exact Or.inr ⟨_, _, hd.bind_fails
      (fails_ownedWorld_of_foreign hkeyed.complete hlive howner).bind.atomically,
      .notOwner hknown hlive howner⟩
  subst howner
  have howned : OwnsWorld s.db id w.owner := ⟨w, hlive, rfl⟩
  have hworld := yields_ownedWorld hkeyed.complete hlive
  by_cases hjob : ∃ r ∈ s.db.jobs, Jobs.isOf id key r = true
  swap
  · have hnone : ∀ r ∈ s.db.jobs, Jobs.isOf id key r = false := fun r hr =>
      Bool.eq_false_iff.2 fun hof => hjob ⟨r, hr, hof⟩
    exact Or.inr ⟨_, _, hd.bind_fails (hworld.bind_fails
      ((yields_find?_none hkeyed.complete hnone).bind_fails (Fails.throw _ s))).atomically,
      .noJob hknown howned hnone⟩
  obtain ⟨r, hr, hof⟩ := hjob
  obtain ⟨job, hjob⟩ := hrows.jobs r hr
  have hid : r.id = .text job.id.text := (JobRow.holds_of_decode hjob).id
  have hfound := yields_find?_of_isOf hkeyed hr hof hjob
  by_cases hrunning : r.hasStatus .running = true
  · have hreset := Jobs.fails_resetForRetry_of_nodup hkeyed.complete hkeyed.jobIds hr hrunning hjob
      s.clock
    exact Or.inr ⟨_, _, hd.bind_fails (hworld.bind_fails (hfound.bind_fails
      ((yields_clock s).bind_fails (Fails.store s.ticked hreset).bind))).atomically,
      .running hknown howned hr hof hid hrunning⟩
  have hidle : r.hasStatus .running = false := Bool.eq_false_iff.2 hrunning
  rcases Modules.stored_or_absent hrows id key with ⟨m, hm⟩ | habsent
  · exact Or.inl ⟨hknown, howned, ⟨r, hr, hof, hidle⟩, m, hm⟩
  · let db₁ := (Write.requeue job.id s.clock).apply s.db
    have hreset : Yields (Jobs.resetForRetry job.id s.clock) s.db () db₁ :=
      Jobs.yields_resetForRetry hkeyed.complete ⟨r, hr, hid, hidle⟩
    have habsent₁ : ∀ r ∈ db₁.modules, Modules.isOf id key r = false := habsent
    have hcomplete₁ : db₁.dropped = [] := hkeyed.complete
    have hmodule := Fails.store (s.ticked.withDb db₁) (Modules.fails_require hcomplete₁ habsent₁)
    exact Or.inr ⟨_, _, hd.bind_fails (hworld.bind_fails (hfound.bind_fails
      ((yields_clock s).bind_fails
        ((Yields.store s.ticked hreset).bind_fails hmodule.bind)))).atomically,
      .noModule hknown howned ⟨r, hr, hof, hidle⟩ habsent⟩

end

end Engine

/-! ## What a retry leaves -/

/-- The later row is the earlier one, waiting again: what its last run left is cleared, and its
place and its attempts stay. -/
structure JobRow.Requeued (r r' : JobRow) : Prop where
  status : r'.status = .text JobStatus.waiting.text
  lastError : r'.lastError = .null
  startedAt : r'.startedAt = .null
  finishedAt : r'.finishedAt = .null
  id : r'.id = r.id
  world : r'.world = r.world
  moduleKey : r'.moduleKey = r.moduleKey
  sequence : r'.sequence = r.sequence
  type : r'.type = r.type
  attempts : r'.attempts = r.attempts
  createdAt : r'.createdAt = r.createdAt

/-- The later row is of the same module with the same prose; it awaits generation, as the editor
left it. -/
structure ModuleRow.AwaitsFor (editor : OwnerId) (r r' : ModuleRow) : Prop
    extends r.SameProse r' where
  status : r'.status = .text ModuleStatus.awaitingGeneration.text
  lastEditor : r'.lastEditor = .text editor.text
  createdAt : r'.createdAt = r.createdAt

/-- The later row is of the same world, which is generating; its version and the time of its
publication stay. -/
structure WorldRow.Generates (r r' : WorldRow) : Prop where
  status : r'.status = .text WorldStatus.generating.text
  version : r'.version = r.version
  publishedAt : ∃ t, r.publishedAt.HoldsTime? t ∧
    (r'.publishedAt = r.publishedAt ∨ r'.publishedAt = .ofTime t)
  id : r'.id = r.id
  owner : r'.owner = r.owner
  name : r'.name = r.name
  tagline : r'.tagline = r.tagline
  createdAt : r'.createdAt = r.createdAt
  deletedAt : r'.deletedAt = r.deletedAt

/-- What a retry leaves of each row: the job waits again, its module awaits generation, its world is
generating, and every other row is as it was. The job that is returned is the stored one. -/
structure Database.Retried (db db' : Database) (id : WorldId) (key : String) (owner : OwnerId)
    (j : Job) : Prop where
  jobs : List.Forall₂ (fun r r' => if Jobs.isOf id key r then r.Requeued r' else r' = r)
    db.jobs db'.jobs
  modules : List.Forall₂ (fun r r' => if Modules.isOf id key r then r.AwaitsFor owner r' else r' = r)
    db.modules db'.modules
  worlds : List.Forall₂ (fun r r' => if Worlds.isLive id r then r.Generates r' else r' = r)
    db.worlds db'.worlds
  returned : ∃ r ∈ db'.jobs, Jobs.isOf id key r = true ∧ r.decode = .ok j

section

variable {db : Database} {id : WorldId} {key : String}

theorem Database.Keyed.eq_of_isOf (h : db.Keyed) {q r : JobRow} (hq : q ∈ db.jobs)
    (hr : r ∈ db.jobs) (hqof : Jobs.isOf id key q = true) (hrof : Jobs.isOf id key r = true) :
    q = r := by
  obtain ⟨hworld, hkey⟩ := Jobs.isOf_iff.1 hqof
  obtain ⟨hworld', hkey'⟩ := Jobs.isOf_iff.1 hrof
  refine List.inj_on_of_nodup_map h.jobKeys hq hr ?_
  rw [hworld, hkey, hworld', hkey']

theorem Database.Keyed.eq_of_isLive (h : db.Keyed) {q r : WorldRow} (hq : q ∈ db.worlds)
    (hr : r ∈ db.worlds) (hqlive : Worlds.isLive id q = true) (hrlive : Worlds.isLive id r = true) :
    q = r :=
  List.inj_on_of_nodup_map h.worldIds hq hr
    ((Worlds.isLive_iff.1 hqlive).1.trans (Worlds.isLive_iff.1 hrlive).1.symm)

/-- Putting a job back in the queue changes its row and no other. -/
theorem Write.forall₂_requeue (hkeyed : db.Keyed) {r : JobRow} (hr : r ∈ db.jobs)
    (hof : Jobs.isOf id key r = true) (hidle : r.hasStatus .running = false) {job : JobId}
    (hid : r.id = .text job.text) (now : Instant) :
    List.Forall₂ (fun r r' => if Jobs.isOf id key r then r.Requeued r' else r' = r)
      db.jobs ((requeue job now).onJobs db.jobs) := by
  rw [onJobs, List.forall₂_map_right_iff, List.forall₂_same]
  intro q hq
  split
  · rename_i hqof
    obtain rfl := hkeyed.eq_of_isOf hq hr hqof hof
    simp only [onJob, Cell.isText_iff.2 hid, hidle, Bool.not_false, Bool.and_self, if_true]
    exact ⟨rfl, rfl, rfl, rfl, rfl, rfl, rfl, rfl, rfl, rfl, rfl⟩
  · rename_i hqof
    refine if_neg fun hhit => hqof ?_
    rw [Bool.and_eq_true, Cell.isText_iff] at hhit
    rwa [eq_of_jobId hkeyed.jobIds hq hr (hhit.1.trans hid.symm)]

/-- Saving a stored module as awaiting generation changes its row and no other. -/
theorem Write.forall₂_awaiting (hkeyed : db.Keyed) {m : WorldModule}
    (hm : db.StoredModule id key m) (owner : OwnerId) (now : Instant) :
    List.Forall₂ (fun r r' => if Modules.isOf id key r then r.AwaitsFor owner r' else r' = r)
      db.modules ((saveModule (Engine.awaiting owner now m)).onModules db.modules) := by
  have hnames : Modules.isOf (Engine.awaiting owner now m).world (Engine.awaiting owner now m).key =
      Modules.isOf id key := by
    rw [show (Engine.awaiting owner now m).world = id from hm.world_eq,
      show (Engine.awaiting owner now m).key = key from hm.key_eq]
  obtain ⟨row, hfind, hdecode⟩ := hm
  have hrow := List.mem_of_find?_eq_some hfind
  have hholds := ModuleRow.holds_of_decode hdecode
  rw [onModules, hnames, if_pos (List.any_eq_true.2 ⟨row, hrow, List.find?_some hfind⟩),
    List.forall₂_map_right_iff, List.forall₂_same]
  intro r hr
  split
  · rename_i hof
    obtain rfl : r = row :=
      Option.some.inj ((Modules.find?_isOf hkeyed.moduleKeys hr hof).symm.trans hfind)
    refine { id := rfl, world := rfl, key := rfl, fields := ?_, content := hholds.content.symm,
             hash := hholds.hash.symm, status := rfl, lastEditor := rfl, createdAt := rfl }
    rw [hholds.fieldValues?_eq]
    exact FieldMap.decode_compact m.fields
  · rfl

/-- Writing back a live world as generating changes its row and no other. -/
theorem Write.forall₂_beginGeneration (hkeyed : db.Keyed) {w : World} (hw : db.LiveWorld id w)
    (now : Instant) : List.Forall₂ (fun r r' => if Worlds.isLive id r then r.Generates r' else r' = r)
      db.worlds ((changeWorld (w.beginGeneration now)).onWorlds db.worlds) := by
  have hname : (w.beginGeneration now).id = id := hw.id_eq
  obtain ⟨row, hfind, hdecode⟩ := hw
  have hreads := WorldRow.decode_eq_ok.1 hdecode
  rw [onWorlds, hname, List.forall₂_map_right_iff, List.forall₂_same]
  intro r hr
  split
  · rename_i hlive
    obtain rfl := hkeyed.eq_of_isLive hr (List.mem_of_find?_eq_some hfind) hlive
      (List.find?_some hfind)
    exact ⟨rfl, hreads.version.symm, ⟨w.publishedAt, hreads.publishedAt, Or.inr rfl⟩, rfl, rfl,
      hreads.name.symm, hreads.tagline.symm, rfl, rfl⟩
  · rfl

/-- A live world that is generating stays as it is. -/
theorem Database.LiveWorld.forall₂_generates (hkeyed : db.Keyed) {w : World}
    (hw : db.LiveWorld id w) (hgenerating : w.status = .generating) :
    List.Forall₂ (fun r r' => if Worlds.isLive id r then r.Generates r' else r' = r)
      db.worlds db.worlds := by
  obtain ⟨row, hfind, hdecode⟩ := hw
  have hreads := WorldRow.decode_eq_ok.1 hdecode
  rw [List.forall₂_same]
  intro r hr
  split
  · rename_i hlive
    obtain rfl := hkeyed.eq_of_isLive hr (List.mem_of_find?_eq_some hfind) hlive
      (List.find?_some hfind)
    exact ⟨hgenerating ▸ hreads.status, rfl, ⟨w.publishedAt, hreads.publishedAt, Or.inl rfl⟩, rfl,
      rfl, rfl, rfl, rfl, rfl⟩
  · rfl

end

namespace Engine

variable {e : Engine} {s t : Studio} {id : WorldId} {key : String} {owner : OwnerId} {j : Job}

/-- The job that a retry returns is read from a row of the name that the job of the module had. -/
theorem returned_of_retryModule (h : Yields (e.retryModule id key owner) s j t) :
    ∃ r ∈ s.db.jobs, Jobs.isOf id key r = true ∧
      ∃ r' ∈ t.db.jobs, r'.id = r.id ∧ r'.decode = .ok j := by
  simp only [retryModule, yields_bind, yields_atomically, yields_store] at h
  obtain ⟨_, u, hknown, w, v, howned, found, _, ⟨db, hfind, rfl⟩, h⟩ := h
  have hu := (respects_definition (R := SameDb) e key).of_yields hknown
  have hv := (sameDb_ownedWorld id owner).of_yields howned
  rcases Jobs.find?_cases hfind with ⟨job, rfl, r, hr, hworld, hkey, hdecode⟩ | ⟨rfl, _⟩
  swap
  · simp at h
  rw [hv.1, hu.1] at hr
  have hid : r.id = .text job.id.text := (JobRow.holds_of_decode hdecode).id
  simp only [yields_bind, yields_readClock, yields_store, yields_tell, yields_ite] at h
  obtain ⟨_, _, _, _, _, _, _, _, _, _, _, _, ⟨_, _, _, _, db', hrequire, rfl⟩ |
    ⟨_, _, _, _, _, _, _, db', hrequire, rfl⟩⟩ := h <;>
  · obtain ⟨r', hr', hid', hdecode'⟩ := Jobs.row_of_require hrequire
    exact ⟨r, hr, Jobs.isOf_iff.2 ⟨hworld, hkey⟩, r',
      (Jobs.reads_require _).of_yields hrequire ▸ hr', hid'.trans hid.symm, hdecode'⟩

/-- What a retry that succeeds found and left. -/
theorem retried_of_retryModule (hkeyed : s.db.Keyed)
    (h : Yields (e.retryModule id key owner) s j t) :
    e.CanRetry s.db id key owner ∧ s.db.Retried t.db id key owner j := by
  obtain ⟨w, job, m, now, r, hlive, rfl, hr, hworld, hkey, hdecode, hm, hcommit⟩ :=
    commit_retryModule h
  have hof : Jobs.isOf id key r = true := Jobs.isOf_iff.2 ⟨hworld, hkey⟩
  have hid : r.id = .text job.id.text := (JobRow.holds_of_decode hdecode).id
  obtain ⟨⟨q, hq, hqid, hidle⟩, hjournal⟩ := Journal.cons_iff.1 hcommit.journal
  obtain rfl := eq_of_jobId hkeyed.jobIds hq hr (hqid.trans hid.symm)
  have hrest := (Journal.cons_iff.1 hjournal).2
  -- What may come after the module is the world.
  have hjobs : t.db.jobs = (Write.requeue job.id now).onJobs s.db.jobs :=
    hrest.jobs_eq fun x hx rows => by
      split at hx
      · cases hx
      · rw [List.mem_singleton.1 hx]
        rfl
  have hmodules : t.db.modules =
      (Write.saveModule (awaiting w.owner now m)).onModules s.db.modules :=
    hrest.modules_eq fun x hx rows => by
      split at hx
      · cases hx
      · rw [List.mem_singleton.1 hx]
        rfl
  have hknown : key ∈ e.registry.keys := by
    by_contra hunknown
    exact Yields.not_fails h (fails_definition hunknown).bind
  refine ⟨⟨hknown, ⟨w, hlive, rfl⟩, ⟨q, hr, hof, hidle⟩, m, hm⟩, ?_, ?_, ?_, ?_⟩
  · rw [hjobs]
    exact Write.forall₂_requeue hkeyed hr hof hidle hid now
  · rw [hmodules]
    exact Write.forall₂_awaiting hkeyed hm w.owner now
  · by_cases hgenerating : w.status = .generating
    · rw [if_pos hgenerating] at hrest
      rw [Journal.nil_iff.1 hrest]
      exact hlive.forall₂_generates hkeyed hgenerating
    · rw [if_neg hgenerating] at hrest
      rw [Journal.nil_iff.1 (Journal.cons_iff.1 hrest).2]
      exact Write.forall₂_beginGeneration hkeyed hlive now
  · obtain ⟨r₀, hr₀, hof₀, r', hr', hid', hdecode'⟩ := returned_of_retryModule h
    rw [hjobs] at hr'
    obtain ⟨q', hq', rfl⟩ := List.mem_map.1 hr'
    have hnames : ((Write.requeue job.id now).onJob q').id = q'.id ∧
        Jobs.isOf id key ((Write.requeue job.id now).onJob q') = Jobs.isOf id key q' := by
      simp only [Write.onJob]
      split <;> exact ⟨rfl, rfl⟩
    obtain rfl := eq_of_jobId hkeyed.jobIds hq' hr₀ (hnames.1.symm.trans hid')
    exact ⟨_, hjobs ▸ hr', hnames.2.trans hof₀, hdecode'⟩

/-! ## All or nothing -/

/-- Retrying succeeds exactly where it can, and leaves what it should. Everywhere else it leaves the
database and fails as its first check says that does not pass, in particular with a conflict exactly
for a running job of an owner's world. -/
structure RetriesExactly (e : Engine) (id : WorldId) (key : String) (owner : OwnerId)
    (s : Studio) : Prop where
  succeeds : Succeeds (e.retryModule id key owner) s ↔ e.CanRetry s.db id key owner
  exact : ∀ j s', Yields (e.retryModule id key owner) s j s' → s.db.Retried s'.db id key owner j
  refuses : ∀ cause s', Fails (e.retryModule id key owner) s cause s' →
    s'.db = s.db ∧ RetryRefusal e s.db id key owner cause
  conflicts : (∃ clash s', Fails (e.retryModule id key owner) s (.conflict clash) s') ↔
    key ∈ e.registry.keys ∧ OwnsWorld s.db id owner ∧
      ∃ r ∈ s.db.jobs, Jobs.isOf id key r = true ∧ r.hasStatus .running = true

/-- Retrying is exact and atomic, on every database that the schema keeps and whose rows can be
read. -/
theorem retry_exact (e : Engine) (id : WorldId) (key : String) (owner : OwnerId) {s : Studio}
    (hkeyed : s.db.Keyed) (hrows : s.db.Readable) (hera : s.clock.InEra) :
    e.RetriesExactly id key owner s where
  succeeds := ⟨fun ⟨_, _, h⟩ => (retried_of_retryModule hkeyed h).1,
    succeeds_retryModule hkeyed hrows hera⟩
  exact _ _ h := (retried_of_retryModule hkeyed h).2
  refuses cause s' h := by
    refine ⟨(failsClean_retryModule e id key owner h).1, ?_⟩
    rcases retryModule_cases e id key owner hkeyed hrows with hcan | ⟨_, _, hfails, hrefusal⟩
    · obtain ⟨_, _, hyields⟩ := succeeds_retryModule hkeyed hrows hera hcan
      exact absurd h hyields.not_fails
    · rwa [h.error_eq hfails]
  conflicts := by
    constructor
    · rintro ⟨clash, s', h⟩
      rcases retryModule_cases e id key owner hkeyed hrows with hcan | ⟨_, _, hfails, hrefusal⟩
      · obtain ⟨_, _, hyields⟩ := succeeds_retryModule hkeyed hrows hera hcan
        exact absurd h hyields.not_fails
      · rw [← h.error_eq hfails] at hrefusal
        cases hrefusal with
        | running known owned hr hof _ hrunning => exact ⟨known, owned, _, hr, hof, hrunning⟩
    · rintro ⟨known, ⟨w, hlive, howner⟩, r, hr, hof, hrunning⟩
      have hbusy : ¬ ∃ q ∈ s.db.jobs, Jobs.isOf id key q = true ∧ q.hasStatus .running = false := by
        rintro ⟨q, hq, hqof, hidle⟩
        rw [hkeyed.eq_of_isOf hq hr hqof hof, hrunning] at hidle
        cases hidle
      rcases retryModule_cases e id key owner hkeyed hrows with hcan | ⟨_, s', hfails, hrefusal⟩
      · exact absurd hcan.settled hbusy
      · cases hrefusal with
        | unknownModule h => exact absurd known h
        | noWorld _ h =>
          obtain ⟨row, hfind, _⟩ := hlive
          exact absurd (List.find?_some hfind)
            (Bool.eq_false_iff.1 (h row (List.mem_of_find?_eq_some hfind)))
        | notOwner _ hlive' h => exact absurd howner (hlive.unique hlive' ▸ h)
        | noJob _ _ h => rw [h r hr] at hof; cases hof
        | running _ _ _ _ _ _ => exact ⟨_, s', hfails⟩
        | noModule _ _ settled _ => exact absurd settled hbusy

/-- Retrying the job of a call that came to nothing. -/
theorem retry_exact_failed :
    let s := (System.run .minimal [.createFirst, .publishFirst, .lease, .ask 0,
      .settle 0 (.error .emptyResponse)]).studio
    s.db.jobs.any (·.hasStatus .failed) = true ∧
      Engine.minimal.RetriesExactly (.mint 0) "m" ⟨"owner"⟩ s :=
  ⟨by decide +kernel, retry_exact .minimal (.mint 0) "m" ⟨"owner"⟩ (by decide +kernel)
    (by decide +kernel) (by decide +kernel)⟩

end Engine

end Lorebook
