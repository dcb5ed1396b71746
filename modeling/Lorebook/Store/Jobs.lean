import Lorebook.Store.Database

set_option autoImplicit false

/-! # The table of generation jobs

The jobs of a world form its queue. At most one job of the whole table runs at a time: `leaseNext`
takes the next waiting job of a live world only while no job is running. -/

namespace Lorebook.Jobs

open Statement

/-! ## The queue of a world -/

/-- Insert a new job. -/
def insert (j : Job) : Statement Unit := do
  needs .jobs
  needs .worlds
  let row := JobRow.ofJob j
  let db ← get
  if db.jobs.any fun r => r.world = row.world && r.moduleKey = row.moduleKey then
    refuse (.uniqueFailed .jobs ["world_id", "module_key"])
  else if db.jobs.any (·.id = row.id) then refuse (.uniqueFailed .jobs ["id"])
  else if db.worlds.any (·.id = row.world) then set { db with jobs := db.jobs ++ [row] }
  else refuse .foreignKeyFailed

/-- Drop every job of a world and insert others in their place. -/
def replaceForWorld (world : WorldId) (jobs : List Job) : Statement Unit := do
  needs .jobs
  needs .worlds
  modify fun db => { db with jobs := db.jobs.filter fun r => !r.world.isText world.text }
  jobs.forM insert

/-! ## Reading -/

/-- Rows in the order of a key, equal ones staying as they were. -/
def sortRows (key : JobRow → Cell) (rows : List JobRow) : List JobRow :=
  rows.mergeSort fun a b => (key a).notAfter (key b)

/-- The jobs of rows. -/
def decodeAll (rows : List JobRow) : Statement (List Job) :=
  rows.mapM fun r => ofDecoded r.decode

/-- The jobs of a world, by sequence. -/
def listForWorld (world : WorldId) : Statement (List Job) := do
  needs .jobs
  let rows := (← get).jobs.filter fun r => r.world.isText world.text
  decodeAll (sortRows (·.sequence) (sortRows (·.moduleKey) rows))

/-- The job of a module, if there is one. -/
def find? (world : WorldId) (moduleKey : String) : Statement (Option Job) := do
  needs .jobs
  let rows := (← get).jobs.filter fun r =>
    r.world.isText world.text && r.moduleKey.isText moduleKey
  return (← decodeAll rows).head?

/-- The job of a name. -/
def require (id : JobId) : Statement Job := do
  needs .jobs
  let rows := (← get).jobs.filter fun r => r.id.isText id.text
  match (← decodeAll rows).head? with
  | some j => return j
  | none => throw (.notFound (.job id))

/-- Rows by world and then by sequence, equal ones staying as they were. -/
def queueOrder (rows : List JobRow) : List JobRow :=
  rows.mergeSort fun a b =>
    a.world.before b.world || (a.world = b.world && a.sequence.notAfter b.sequence)

/-- The rows in a status, in the order of the queue. -/
def withStatus (status : JobStatus) (rows : List JobRow) : List JobRow :=
  queueOrder (rows.filter (·.hasStatus status))

theorem mem_withStatus {status : JobStatus} {rows : List JobRow} {r : JobRow} :
    r ∈ withStatus status rows ↔ r ∈ rows ∧ r.hasStatus status = true := by
  simp [withStatus, queueOrder]

/-- The running job of all worlds, if there is one. -/
def running? : Statement (Option Job) := do
  needs .jobs
  match (withStatus .running (← get).jobs).head? with
  | some row => return some (← ofDecoded row.decode)
  | none => return none

/-- The running job of a world, if there is one. -/
def runningOf? (world : WorldId) : Statement (Option Job) := do
  needs .jobs
  match (withStatus .running ((← get).jobs.filter (·.world.isText world.text))).head? with
  | some row => return some (← ofDecoded row.decode)
  | none => return none

/-- The running jobs whose lease began before an instant, the earliest first. -/
def runningSinceBefore (cutoff : Instant) : Statement (List Job) := do
  needs .jobs
  let rows := (withStatus .running (← get).jobs).filter fun r =>
    !r.startedAt.isNull && r.startedAt.before (.text (Rfc3339.stored cutoff))
  decodeAll (sortRows (·.startedAt) rows)

/-- The number of jobs of a world that are waiting or running. -/
def countOutstanding (world : WorldId) : Statement Nat := do
  needs .jobs
  return ((← get).jobs.filter fun r =>
    r.world.isText world.text && (r.hasStatus .waiting || r.hasStatus .running)).length

/-! ## Status changes -/

/-- Change the rows of a name that pass a test; tells whether there was one. -/
def change (id : JobId) (test : JobRow → Bool) (f : JobRow → JobRow) : Statement Bool := do
  needs .jobs
  let hits (r : JobRow) : Bool := r.id.isText id.text && test r
  if (← get).jobs.any hits then
    modify fun db => { db with jobs := db.jobs.map fun r => if hits r then f r else r }
    return true
  else return false

/-- The row that the next lease takes: the first waiting one, by world and sequence, whose world is
live; none while any job is running. -/
def nextRow? (db : Database) : Option JobRow :=
  if db.jobs.any (·.hasStatus .running) then none
  else (withStatus .waiting db.jobs).find? fun j =>
    db.worlds.any fun w => w.id = j.world && w.deletedAt.isNull

theorem nextRow?_of_running {db : Database} (h : db.jobs.any (·.hasStatus .running) = true) :
    nextRow? db = none := by
  simp [nextRow?, h]

/-- What the next lease takes is a waiting row. -/
theorem mem_of_nextRow? {db : Database} {r : JobRow} (h : nextRow? db = some r) :
    r ∈ db.jobs ∧ r.hasStatus .waiting = true := by
  unfold nextRow? at h
  split at h
  · cases h
  · exact mem_withStatus.1 (List.mem_of_find?_eq_some h)

/-- A row once leased: running, one attempt more, its start noted. -/
def leased (time : Cell) (r : JobRow) : JobRow :=
  { r with
    status := .text JobStatus.running.text
    attempts := r.attempts.successor
    startedAt := time
    finishedAt := .null
    updatedAt := time }

/-- Lease the next job, if one is waiting and none is running. -/
def leaseNext (now : Instant) : Statement (Option Job) := do
  needs .jobs
  needs .worlds
  match nextRow? (← get) with
  | none => return none
  | some row =>
    -- A row without a name cannot be picked out of the table.
    if row.id.isNull then return none
    let row' := leased (.text (Rfc3339.stored now)) row
    modify fun db => { db with jobs := db.jobs.map fun r => if r.id = row.id then row' else r }
    return some (← ofDecoded row'.decode)

/-- Tell a job that is not running from one that does not exist. -/
def ensureLeased (id : JobId) (changed : Bool) : Statement Unit := do
  unless changed do
    let _ ← require id
    throw (.conflict (.jobNotRunning id))

/-- A row once settled as succeeded. -/
def succeeded (time : Cell) (r : JobRow) : JobRow :=
  { r with
    status := .text JobStatus.succeeded.text
    lastError := .null
    finishedAt := time
    updatedAt := time }

/-- A row once settled as failed, with a message. -/
def failed (message : String) (time : Cell) (r : JobRow) : JobRow :=
  { r with
    status := .text JobStatus.failed.text
    lastError := .text message
    finishedAt := time
    updatedAt := time }

/-- A row once put back in the queue. Its attempts stay. -/
def requeued (time : Cell) (r : JobRow) : JobRow :=
  { r with
    status := .text JobStatus.waiting.text
    lastError := .null
    startedAt := .null
    finishedAt := .null
    updatedAt := time }

/-- Settle a running job as succeeded. -/
def markSucceeded (id : JobId) (now : Instant) : Statement Unit := do
  ensureLeased id
    (← change id (·.hasStatus .running) (succeeded (.text (Rfc3339.stored now))))

/-- Settle a running job as failed, with a message. -/
def markFailed (id : JobId) (message : String) (now : Instant) : Statement Unit := do
  ensureLeased id
    (← change id (·.hasStatus .running) (failed message (.text (Rfc3339.stored now))))

/-- Put a job that is not running back in the queue. -/
def resetForRetry (id : JobId) (now : Instant) : Statement Unit := do
  let changed ← change id (!·.hasStatus .running) (requeued (.text (Rfc3339.stored now)))
  unless changed do
    let _ ← require id
    throw (.conflict (.jobRunning id))

end Lorebook.Jobs
