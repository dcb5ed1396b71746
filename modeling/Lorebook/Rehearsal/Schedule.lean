import Lorebook.Engine.Worker
import Lorebook.Rehearsal.Stage

set_option autoImplicit false

/-! # Schedules

A rehearsal can let a worker run alongside a schedule of other things, each of which happens a span
after the one before it is over. The schedule goes on only in the pauses of the worker, where it
comes first, and it starts with the first of them; while it waits for something, the worker works.
The worker stops in the pause in which the schedule ends. -/

namespace Lorebook.Schedule

variable {ε τ α : Type}

/-- Let things happen in turn, each after its span; gives what came of them. -/
def play (act : τ → Staged ε α) (entries : List (Span × τ)) : Staged ε (List α) :=
  entries.mapM fun e => do
    (Timed.wait e.1 : Timed (Stage ε) Unit)
    act e.2

/-- What happens on a stage alongside an activity. -/
abbrev Alongside (ε α : Type) := StateT (Activity (Stage ε) α) (Staged ε)

/-- Pause for a span, in which the activity goes on; tells whether something of it is left. -/
def pause (span : Span) : Alongside ε α Bool := do
  match ← getThe (Activity (Stage ε) α) with
  | .finished _ => return false
  | .ongoing rest =>
    let activity ← (Timed.upTo span rest : Timed (Stage ε) _)
    set activity
    return activity.value?.isNone

/-- The pace of a worker alongside an activity. Its pauses have no random part. -/
def pace : Pace (Alongside ε α) where
  elapsed := (Timed.elapsed : Timed (Stage ε) Nat)
  jitter _ := return 0
  pause := pause

/-- Run a worker until a schedule ends, for at most so many rounds; gives what came of the
schedule too. -/
def runWorker (e : Engine) (generator : Generator (Staged ε)) (settings : WorkerSettings)
    (schedule : Staged ε α) (limit : Nat) :
    Staged ε (Except EngineError (WorkerStats × Option α)) := do
  let lifted : Generator (Alongside ε α) := fun span request => generator span request
  let start : Activity (Stage ε) α := .ongoing (schedule (← read))
  let (stats, activity) ← ((Worker.run e lifted settings pace limit).run).run start
  return stats.map fun stats => (stats, activity.value?)

end Lorebook.Schedule
