import Lorebook.Engine.Error
import Lorebook.Log
import Lorebook.Store.Jobs
import Lorebook.Store.Modules
import Lorebook.Store.Worlds

set_option autoImplicit false

/-! # The state that the engine works on

The studio holds the database, the clock, the supply of names and the log. An `Operation` reads and
changes it and may fail; `Operation.atomically` undoes what a failed operation did to the database,
while names that were given out, clock readings and log events stay. -/

namespace Lorebook

/-- What the engine works on. -/
structure Studio where
  db : Database
  /-- The number of names given out so far. -/
  minted : Nat
  /-- The next reading of the clock. -/
  clock : Instant
  /-- The events so far, the latest first. -/
  log : List LogEvent

/-- The time in nanoseconds that passes between two readings of the clock. -/
def clockTick : Nat := 1000

namespace Studio

variable {m : Type → Type} [MonadStateOf Studio m]

/-- Log an event. -/
def tell (e : LogEvent) : m PUnit :=
  modify fun s => { s with log := e :: s.log }

/-- Read the clock, which goes on. -/
def readClock : m Instant :=
  modifyGet fun s => (s.clock, { s with clock := s.clock.later clockTick })

/-- Give out the number of a new name. -/
def mint : m Nat :=
  modifyGet fun s => (s.minted, { s with minted := s.minted + 1 })

/-- Run a statement on the database. -/
def statement {α : Type} (s : Statement α) : m (Except StoreError α) :=
  modifyGet fun studio =>
    let (result, db) := studio.db.run s
    (result, { studio with db := db })

end Studio

/-- A reading or changing of the studio that may fail. -/
abbrev Operation (α : Type) := ExceptT EngineError (StateM Studio) α

namespace Operation

variable {α : Type}

/-- What a look-up gives. -/
def ofExcept {ε : Type} (convert : ε → EngineError) (e : Except ε α) : Operation α :=
  match e with
  | .ok v => return v
  | .error e => throw (convert e)

/-- Run a statement, whose failure is the operation's. -/
def store (s : Statement α) : Operation α := do
  ofExcept .ofStore (← Studio.statement s)

/-- Run an operation as a whole: when it fails, everything it did to the database is undone. -/
def atomically (op : Operation α) : Operation α := fun studio =>
  match op studio with
  | (.ok v, studio') => (.ok v, studio')
  | (.error e, studio') => (.error e, { studio' with db := studio.db })

theorem atomically_of_ok {op : Operation α} {studio studio' : Studio} {v : α}
    (h : op studio = (.ok v, studio')) : atomically op studio = (.ok v, studio') := by
  simp [atomically, h]

theorem atomically_of_error {op : Operation α} {studio studio' : Studio} {e : EngineError}
    (h : op studio = (.error e, studio')) :
    atomically op studio = (.error e, { studio' with db := studio.db }) := by
  simp [atomically, h]

/-- What failed as a whole left the database as it was. -/
theorem db_eq_of_atomically_error {op : Operation α} {studio studio' : Studio} {e : EngineError}
    (h : atomically op studio = (.error e, studio')) : studio'.db = studio.db := by
  rcases hop : op studio with ⟨result, after⟩
  cases result with
  | ok v =>
    rw [atomically_of_ok hop] at h
    cases h
  | error cause =>
    rw [atomically_of_error hop] at h
    cases h
    rfl

/-- Run an operation and take its failure as a value. -/
def perform {m : Type → Type} [MonadStateOf Studio m] (op : Operation α) :
    m (Except EngineError α) :=
  modifyGet fun studio => op.run.run studio

end Operation

end Lorebook
