import Lorebook.Engine.Recovery
import Lorebook.Settings

set_option autoImplicit false

/-! # The worker

A worker drives the queue. `drain` processes jobs until there is nothing to do. `run` keeps going:
when there is nothing to do it pauses, and after a lease timeout without a look at stale leases it
looks again. A job in flight is always finished before the worker stops. -/

namespace Lorebook

/-- What a worker counted. -/
structure WorkerStats where
  succeeded : Nat := 0
  failed : Nat := 0
  leaseLost : Nat := 0
  idlePolls : Nat := 0
  storeErrors : Nat := 0
  /-- Stale leases that were failed. -/
  recovered : Nat := 0
deriving DecidableEq, Repr

/-- Count an outcome. -/
def WorkerStats.record (stats : WorkerStats) : QueueOutcome → WorkerStats
  | .idle => { stats with idlePolls := stats.idlePolls + 1 }
  | .succeeded .. => { stats with succeeded := stats.succeeded + 1 }
  | .failed .. => { stats with failed := stats.failed + 1 }
  | .leaseLost _ => { stats with leaseLost := stats.leaseLost + 1 }
  | .storeUnavailable _ => { stats with storeErrors := stats.storeErrors + 1 }

/-- How a worker waits. -/
structure Pace (m : Type → Type) where
  /-- The nanoseconds that have passed on a timer. -/
  elapsed : m Nat
  /-- A random number up to a bound. -/
  jitter : Nat → m Nat
  /-- Wait for a span; tells whether the worker is to go on. -/
  pause : Span → m Bool

/-- Where a running worker stands. -/
structure WorkerRun where
  stats : WorkerStats := {}
  /-- The timer at the last look at stale leases. -/
  lastSweep : Nat := 0

namespace Worker

open Studio Operation Engine

variable {m : Type → Type} [Monad m] [MonadStateOf Studio m]

/-- Fail the jobs that a vanished worker left running; gives their number. -/
def recover (settings : WorkerSettings) : m (Except EngineError Nat) := do
  match ← perform (recoverStaleLeases (.ofSeconds settings.leaseTimeoutSecs)) with
  | .error e => return .error e
  | .ok recovered =>
    unless recovered.isEmpty do
      tell ⟨.warn, .worker, "recovered stale leases", [("count", .nat recovered.length)]⟩
    return .ok recovered.length

/-- Process jobs until there is nothing to do, at most so many times; gives what was counted and
whether the end was reached. -/
def drainFrom (e : Engine) (generator : Generator m) (stats : WorkerStats) :
    Nat → m (WorkerStats × Bool)
  | 0 => return (stats, false)
  | limit + 1 => do
    let outcome ← e.processQueue generator
    let stats := stats.record outcome
    if outcome.isPause then return (stats, true) else drainFrom e generator stats limit

/-- Process jobs until there is nothing to do, at most so many times. -/
def drain (e : Engine) (generator : Generator m) (limit : Nat) : m (WorkerStats × Bool) :=
  drainFrom e generator {} limit

/-! ## Running -/

/-- Look at stale leases; a failure is logged, unless the operation broke off. -/
def sweep (settings : WorkerSettings) (stats : WorkerStats) :
    ExceptT EngineError m WorkerStats := do
  match ← ExceptT.lift (recover settings) with
  | .ok count => return { stats with recovered := stats.recovered + count }
  | .error .calendarExceeded => throw .calendarExceeded
  | .error e =>
    tell ⟨.warn, .worker, "stale lease recovery failed", [("error", .str e.message)]⟩
    return stats

/-- How long an idle worker pauses, with a random delay; `none` when the milliseconds do not fit 64
bits. -/
def idleDelay? (settings : WorkerSettings) (jitter : Nat) : Option Span :=
  let millis := settings.pollIntervalMs + jitter
  if millis < twoPow 64 then some (.ofMillis millis) else none

/-- Look at stale leases if there is nothing to do and a lease timeout has passed since the last
look. -/
def sweepIfDue (settings : WorkerSettings) (pace : Pace m) (outcome : QueueOutcome)
    (run : WorkerRun) : ExceptT EngineError m WorkerRun := do
  let due := run.lastSweep + (Span.ofSeconds settings.leaseTimeoutSecs).toNanos
  if outcome.isPause && due ≤ (← (pace.elapsed : m _)) then
    return { stats := ← sweep settings run.stats, lastSweep := ← (pace.elapsed : m _) }
  else return run

/-- How long the worker waits after an outcome. -/
def pauseAfter (settings : WorkerSettings) (pace : Pace m) (outcome : QueueOutcome) :
    ExceptT EngineError m Span := do
  if outcome.isPause then
    match idleDelay? settings (← (pace.jitter settings.idleJitterMs : m _)) with
    | some delay => return delay
    | none => throw .delayExceeded
  else return ⟨0, 0⟩

/-- Process jobs and pause, at most so many times, until a pause says to stop. -/
def rounds (e : Engine) (generator : Generator m) (settings : WorkerSettings) (pace : Pace m)
    (run : WorkerRun) : Nat → ExceptT EngineError m WorkerRun
  | 0 => return run
  | limit + 1 => do
    let outcome ← (e.processQueue generator : m _)
    let run ← sweepIfDue settings pace outcome { run with stats := run.stats.record outcome }
    if ← (pace.pause (← pauseAfter settings pace outcome) : m _) then
      rounds e generator settings pace run limit
    else return run

/-- Run until a pause says to stop, for at most so many rounds. -/
def run (e : Engine) (generator : Generator m) (settings : WorkerSettings) (pace : Pace m)
    (limit : Nat) : ExceptT EngineError m WorkerStats := do
  let stats ← sweep settings {}
  let start : WorkerRun := { stats := stats, lastSweep := ← (pace.elapsed : m _) }
  tell ⟨.info, .worker, "worker started", [
    ("poll_interval_ms", .nat settings.pollIntervalMs),
    ("idle_jitter_ms", .nat settings.idleJitterMs)]⟩
  let stats := (← rounds e generator settings pace start limit).stats
  tell ⟨.info, .worker, "worker stopped", [
    ("succeeded", .nat stats.succeeded), ("failed", .nat stats.failed),
    ("idle_polls", .nat stats.idlePolls), ("recovered", .nat stats.recovered)]⟩
  return stats

end Worker

end Lorebook
