import Lorebook.Time.Span

set_option autoImplicit false

/-! # Virtual time

A rehearsal does not wait for anything. It has a timer that jumps: when everything waits, the timer
moves to the first time at which something goes on. So an action is given by its `Progress`: it is
over, or it waits for a time and says how it goes on. That makes it possible to bound an action by a
span (`Timed.within`), to leave it where it waits and to come back to it later (`Timed.upTo`).

What waits is woken at its time or later, never earlier. When it is woken just at the end of its
bound it still goes on, and of bounds that end together the innermost cuts. -/

namespace Lorebook

/-- How things stand at a time, which is in nanoseconds on the timer. -/
structure Moment (σ : Type) where
  now : Nat := 0
  state : σ

/-- How far an action has come. -/
inductive Progress (σ α : Type) where
  /-- It is over. -/
  | finished (moment : Moment σ) (value : α)
  /-- It waits for a time; from then on it goes on as `resume` says. -/
  | waiting (moment : Moment σ) (wake : Nat) (resume : Moment σ → Progress σ α)

/-- An action that reads and changes a state and may wait. -/
def Timed (σ α : Type) : Type := Moment σ → Progress σ α

/-- An action that is left from time to time. -/
inductive Activity (σ α : Type) where
  /-- What is left to be done. -/
  | ongoing (rest : Timed σ α)
  | finished (value : α)

/-- The value of an activity that is over. -/
def Activity.value? {σ α : Type} : Activity σ α → Option α
  | .ongoing _ => none
  | .finished value => some value

variable {σ α β γ : Type}

namespace Progress

/-- Go on with another action. -/
def bind (p : Progress σ α) (f : α → Timed σ β) : Progress σ β :=
  match p with
  | .finished m v => f v m
  | .waiting m wake resume => .waiting m wake fun m => (resume m).bind f

/-- The progress up to a time; gives nothing when the action still waits then. -/
def within (stop : Nat) : Progress σ α → Progress σ (Option α)
  | .finished m v => .finished m (some v)
  | .waiting m wake resume =>
    if stop ≤ m.now then .finished m none
    else .waiting m (min wake stop) fun m =>
      if wake ≤ m.now then (resume m).within stop else .finished m none

/-- The progress up to a time; gives what is left then. -/
def upTo (goal : Nat) : Progress σ α → Progress σ (Activity σ α)
  | .finished m v => .finished m (.finished v)
  | .waiting m wake resume =>
    let left := .ongoing fun m => if wake ≤ m.now then resume m else .waiting m wake resume
    if goal ≤ m.now then .finished m left
    else .waiting m (min wake goal) fun m =>
      if wake ≤ m.now then (resume m).upTo goal else .finished m left

/-- The value and the state at the end, when nothing else happens. -/
def finish : Progress σ α → α × σ
  | .finished m v => (v, m.state)
  | .waiting m wake resume => (resume { m with now := max m.now wake }).finish

theorem bind_finished (p : Progress σ α) : p.bind (fun v m => .finished m v) = p := by
  induction p with
  | finished m v => rfl
  | waiting m wake resume ih => simp only [bind, ih]

theorem bind_bind (p : Progress σ α) (f : α → Timed σ β) (g : β → Timed σ γ) :
    (p.bind f).bind g = p.bind fun v m => (f v m).bind g := by
  induction p with
  | finished m v => rfl
  | waiting m wake resume ih => simp only [bind, ih]

end Progress

namespace Timed

instance [Inhabited α] : Inhabited (Timed σ α) := ⟨fun m => .finished m default⟩

instance : Monad (Timed σ) where
  pure v := fun m => .finished m v
  bind x f := fun m => (x m).bind f

instance : LawfulMonad (Timed σ) :=
  LawfulMonad.mk' (Timed σ) (fun x => funext fun m => (x m).bind_finished) (fun _ _ => rfl)
    (fun x f g => funext fun m => (x m).bind_bind f g)

instance : MonadStateOf σ (Timed σ) where
  get := fun m => .finished m m.state
  set s := fun m => .finished { m with state := s } ⟨⟩
  modifyGet f := fun m =>
    let (v, s) := f m.state
    .finished { m with state := s } v

/-- The nanoseconds that have passed. -/
def elapsed : Timed σ Nat := fun m => .finished m m.now

/-- The nanoseconds that a timer has room for. -/
def room : Nat := 9223372036854775808 * 1000000000

/-- A span that stands for all that a timer has no room for: thirty years of 365 days. -/
def farSpan : Span := .ofSeconds (30 * 365 * 86400)

/-- The time at which a span ends that begins now. -/
def endOf (now : Nat) (span : Span) : Nat :=
  if now + span.toNanos < room then now + span.toNanos else now + farSpan.toNanos

/-- Wait until a time, unless it has come already. -/
def waitUntil (goal : Nat) : Timed σ Unit := fun m =>
  if goal ≤ m.now then .finished m () else .waiting m goal fun m => .finished m ()

/-- Wait for a span. -/
def wait (span : Span) : Timed σ Unit := fun m => waitUntil (endOf m.now span) m

/-- Run an action bounded by a span; gives nothing when it is cut off. -/
def within (limit : Span) (action : Timed σ α) : Timed σ (Option α) := fun m =>
  (action m).within (endOf m.now limit)

/-- Run an action for a span; gives what is left of it then. -/
def upTo (span : Span) (action : Timed σ α) : Timed σ (Activity σ α) := fun m =>
  (action m).upTo (endOf m.now span)

/-- Run an action by itself, from the start of the timer. -/
def run (action : Timed σ α) (s : σ) : α × σ :=
  (action { state := s }).finish

end Timed

end Lorebook
