import Lorebook.Engine.Queue

set_option autoImplicit false

/-! # Retrying and recovering jobs

A settled job runs again only when its owner asks for it. A running job whose worker vanished is
recognized by the age of its lease and failed. -/

namespace Lorebook.Engine

open Studio Operation

/-- Put a settled job back in the queue, with its module and its world. -/
def retryModule (e : Engine) (world : WorldId) (module : String) (owner : OwnerId) :
    Operation Job := do
  let _ ← e.definition module
  atomically do
    let w ← ownedWorld world owner
    match ← store (Jobs.find? world module) with
    | none => throw (.notFound (.jobOf world module))
    | some job =>
      let now ← readClock
      store (Jobs.resetForRetry job.id now)
      let m ← store (Modules.require world module)
      store (Modules.save (awaiting owner now m))
      unless w.status = .generating do
        store (Worlds.update (w.beginGeneration now))
      tell ⟨.info, .queue, "job requeued",
        [("job_id", .str job.id.text), ("attempts", .nat job.attempts)]⟩
      store (Jobs.require job.id)

/-- The message of a job whose lease expired. -/
def leaseExpired : String := "lease expired"

/-- The greatest age that leases can be asked for, in nanoseconds: as many milliseconds as fit 64
bits with a sign. -/
def greatestLeaseTimeout : Nat := (twoPow 63 - 1) * 1000000

/-- Fail a job whose lease expired, with its module. -/
def expire (now : Instant) (job : Job) : Operation Job := do
  store (Jobs.markFailed job.id leaseExpired now)
  markModule job .failed now
  tell ⟨.warn, .queue, "stale lease recovered", jobFields job⟩
  store (Jobs.require job.id)

/-- Fail every running job that was leased longer ago than a span. -/
def recoverStaleLeases (timeout : Span) : Operation (List Job) :=
  if greatestLeaseTimeout < timeout.toNanos then throw (.validation .leaseTimeoutOutOfRange)
  else atomically do
    let now ← readClock
    let cutoff := now.later (-timeout.toNanos)
    if cutoff.isRepresentable then
      let stale ← store (Jobs.runningSinceBefore cutoff)
      stale.mapM (expire now)
    else throw .calendarExceeded

end Lorebook.Engine
