import Lorebook.Proofs.Runs
import Lorebook.Proofs.StoredRows

set_option autoImplicit false

/-! # What statements write

Every change of the database that the engine makes is one of a few writes. `Write.apply` says what a
write does to the tables, `Write.Allowed` on which databases it happens, and `Journal` chains writes
between two databases. Each statement of the store is a reading or one write; the lemmas below say
which. An invariant of the database then has to be checked for the writes only, whatever order the
operations of the engine come in. -/

namespace Lorebook

/-! ## Writes -/

/-- A job as it is first queued. -/
def Job.IsNew (j : Job) : Prop :=
  j = Job.newWaiting j.id j.world j.moduleKey j.sequence j.createdAt

/-- One change of the stored tables. -/
inductive Write where
  | addWorld (w : World)
  /-- Write back a live world. -/
  | changeWorld (w : World)
  /-- Mark a world as deleted. -/
  | hideWorld (id : WorldId) (now : Instant)
  /-- Remove a world with its modules and jobs. -/
  | removeWorld (id : WorldId)
  | saveModule (m : WorldModule)
  /-- Drop the jobs of a world. -/
  | clearQueue (world : WorldId)
  | addJob (j : Job)
  /-- Lease the job of a row. -/
  | lease (row : JobRow) (now : Instant)
  | succeed (id : JobId) (now : Instant)
  | fail (id : JobId) (message : String) (now : Instant)
  | requeue (id : JobId) (now : Instant)

namespace Write

/-- What a write does to the table of worlds. -/
def onWorlds : Write → List WorldRow → List WorldRow
  | addWorld w, rows => rows ++ [WorldRow.ofWorld w]
  | changeWorld w, rows =>
    rows.map fun r => if Worlds.isLive w.id r then Worlds.overwritten w r else r
  | hideWorld id now, rows => rows.map fun r =>
    if Worlds.isLive id r then
      { r with
        deletedAt := .text (Rfc3339.stored now)
        updatedAt := .text (Rfc3339.stored now) }
    else r
  | removeWorld id, rows => rows.filter fun r => !r.id.isText id.text
  | _, rows => rows

/-- What a write does to the table of modules. -/
def onModules : Write → List ModuleRow → List ModuleRow
  | saveModule m, rows =>
    if rows.any (Modules.isOf m.world m.key) then
      rows.map fun r =>
        if Modules.isOf m.world m.key r then Modules.overwritten (ModuleRow.ofModule m) r else r
    else rows ++ [ModuleRow.ofModule m]
  | removeWorld id, rows => rows.filter fun r => !r.world.isText id.text
  | _, rows => rows

/-- What a write does to the row of a job, unless it drops it. -/
def onJob : Write → JobRow → JobRow
  | lease row now, r =>
    if r.id = row.id then Jobs.leased (.text (Rfc3339.stored now)) row else r
  | succeed id now, r =>
    if r.id.isText id.text && r.hasStatus .running then
      Jobs.succeeded (.text (Rfc3339.stored now)) r
    else r
  | fail id message now, r =>
    if r.id.isText id.text && r.hasStatus .running then
      Jobs.failed message (.text (Rfc3339.stored now)) r
    else r
  | requeue id now, r =>
    if r.id.isText id.text && !r.hasStatus .running then
      Jobs.requeued (.text (Rfc3339.stored now)) r
    else r
  | _, r => r

/-- What a write does to the table of jobs. -/
def onJobs : Write → List JobRow → List JobRow
  | addJob j, rows => rows ++ [JobRow.ofJob j]
  | clearQueue world, rows => rows.filter fun r => !r.world.isText world.text
  | removeWorld id, rows => rows.filter fun r => !r.world.isText id.text
  | lease row now, rows => rows.map (lease row now).onJob
  | succeed id now, rows => rows.map (succeed id now).onJob
  | fail id message now, rows => rows.map (fail id message now).onJob
  | requeue id now, rows => rows.map (requeue id now).onJob
  | _, rows => rows

/-- What a write does to the database. -/
def apply (w : Write) (db : Database) : Database :=
  { db with
    worlds := w.onWorlds db.worlds
    modules := w.onModules db.modules
    jobs := w.onJobs db.jobs }

@[simp] theorem apply_worlds (w : Write) (db : Database) :
    (w.apply db).worlds = w.onWorlds db.worlds := rfl
@[simp] theorem apply_modules (w : Write) (db : Database) :
    (w.apply db).modules = w.onModules db.modules := rfl
@[simp] theorem apply_jobs (w : Write) (db : Database) :
    (w.apply db).jobs = w.onJobs db.jobs := rfl
@[simp] theorem apply_dropped (w : Write) (db : Database) :
    (w.apply db).dropped = db.dropped := rfl

/-- The databases on which a write happens; on others the statement behind it refuses. -/
def Allowed : Write → Database → Prop
  | addWorld w, db => ∀ r ∈ db.worlds, r.id ≠ .text w.id.text
  | changeWorld w, db => ∃ r ∈ db.worlds, Worlds.isLive w.id r = true
  | hideWorld id _, db => ∃ r ∈ db.worlds, Worlds.isLive id r = true
  | removeWorld id, db => ∃ r ∈ db.worlds, r.id = .text id.text
  | saveModule m, db =>
    (∃ r ∈ db.modules, Modules.isOf m.world m.key r = true) ∨
      ((∀ r ∈ db.modules, r.id ≠ .text m.id.text) ∧ ∃ w ∈ db.worlds, w.id = .text m.world.text)
  | clearQueue world, db =>
    ∀ r ∈ db.jobs, r.world = .text world.text → r.hasStatus .running = false
  | addJob j, db => j.IsNew ∧
    (∀ r ∈ db.jobs, ¬ (r.world = .text j.world.text ∧ r.moduleKey = .text j.moduleKey)) ∧
    (∀ r ∈ db.jobs, r.id ≠ .text j.id.text) ∧ ∃ w ∈ db.worlds, w.id = .text j.world.text
  | lease row now, db => Jobs.nextRow? db = some row ∧
    ∃ j, (Jobs.leased (.text (Rfc3339.stored now)) row).decode = .ok j
  | succeed id _, db => ∃ r ∈ db.jobs, r.id = .text id.text ∧ r.hasStatus .running = true
  | fail id _ _, db => ∃ r ∈ db.jobs, r.id = .text id.text ∧ r.hasStatus .running = true
  | requeue id _, db => ∃ r ∈ db.jobs, r.id = .text id.text ∧ r.hasStatus .running = false

end Write

/-- Writes that lead from one database to another, each on a database that allows it. -/
inductive Journal : Database → List Write → Database → Prop where
  | done (db : Database) : Journal db [] db
  | next {db db' : Database} {w : Write} {ws : List Write} (allowed : w.Allowed db)
      (rest : Journal (w.apply db) ws db') : Journal db (w :: ws) db'

namespace Journal

variable {db db' db'' : Database} {w : Write} {ws vs : List Write}

theorem single (h : w.Allowed db) : Journal db [w] (w.apply db) :=
  .next h (.done _)

theorem append (h : Journal db ws db') (h' : Journal db' vs db'') :
    Journal db (ws ++ vs) db'' := by
  induction h with
  | done db => exact h'
  | next allowed rest ih => exact .next allowed (ih h')

theorem nil_iff : Journal db [] db' ↔ db' = db := by
  constructor
  · intro h
    cases h
    rfl
  · rintro rfl
    exact .done db'

theorem cons_iff : Journal db (w :: ws) db' ↔ w.Allowed db ∧ Journal (w.apply db) ws db' := by
  constructor
  · intro h
    cases h with
    | next allowed rest => exact ⟨allowed, rest⟩
  · rintro ⟨allowed, rest⟩
    exact .next allowed rest

theorem append_iff :
    Journal db (ws ++ vs) db'' ↔ ∃ db', Journal db ws db' ∧ Journal db' vs db'' := by
  constructor
  · intro h
    induction ws generalizing db with
    | nil => exact ⟨db, .done db, h⟩
    | cons w ws ih =>
      obtain ⟨allowed, rest⟩ := cons_iff.1 h
      obtain ⟨db', hws, hvs⟩ := ih rest
      exact ⟨db', .next allowed hws, hvs⟩
  · rintro ⟨db', hws, hvs⟩
    exact hws.append hvs

/-- What each allowed write preserves, a journal preserves. -/
theorem invariant {I : Database → Prop} (h : Journal db ws db')
    (step : ∀ w ∈ ws, ∀ db, w.Allowed db → I db → I (w.apply db)) (hdb : I db) : I db' := by
  induction h with
  | done db => exact hdb
  | @next db db' w ws allowed rest ih =>
    exact ih (fun v hv => step v (List.mem_cons_of_mem w hv))
      (step w List.mem_cons_self db allowed hdb)

/-- Writes that leave the table of worlds leave it together. -/
theorem worlds_eq (h : Journal db ws db') (hws : ∀ w ∈ ws, ∀ rows, w.onWorlds rows = rows) :
    db'.worlds = db.worlds :=
  h.invariant (I := fun d => d.worlds = db.worlds)
    (fun w hw d _ hd => by rw [Write.apply_worlds, hws w hw, hd]) rfl

/-- Writes that leave the table of modules leave it together. -/
theorem modules_eq (h : Journal db ws db') (hws : ∀ w ∈ ws, ∀ rows, w.onModules rows = rows) :
    db'.modules = db.modules :=
  h.invariant (I := fun d => d.modules = db.modules)
    (fun w hw d _ hd => by rw [Write.apply_modules, hws w hw, hd]) rfl

/-- Writes that leave the table of jobs leave it together. -/
theorem jobs_eq (h : Journal db ws db') (hws : ∀ w ∈ ws, ∀ rows, w.onJobs rows = rows) :
    db'.jobs = db.jobs :=
  h.invariant (I := fun d => d.jobs = db.jobs)
    (fun w hw d _ hd => by rw [Write.apply_jobs, hws w hw, hd]) rfl

end Journal

end Lorebook
