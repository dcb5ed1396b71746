import Lorebook.Engine.Studio
import Lorebook.Generation.Script
import Lorebook.Rehearsal.Timer

set_option autoImplicit false

/-! # Stages

A rehearsal takes place on a stage, which everything that happens in it shares. Databases are opened
on it one after the other. What happens works with the database that it began with, also while
another is opened meanwhile; the clock, the supply of names, the log and the script are the same for
all. -/

namespace Lorebook

/-- What a rehearsal takes place on. -/
structure Stage (ε : Type) where
  /-- The databases in the order in which they were opened. -/
  databases : List Database := []
  /-- The number of names given out so far. -/
  minted : Nat := 0
  /-- The next reading of the clock. -/
  clock : Instant
  /-- The events so far, the latest first. -/
  log : List LogEvent := []
  /-- The replies to come and the calls made. -/
  script : Script := {}
  /-- What else the rehearsal keeps. -/
  extra : ε

/-- What happens on a stage, with the database of a number. -/
abbrev Staged (ε : Type) := ReaderT Nat (Timed (Stage ε))

variable {ε α : Type}

namespace Stage

/-- What the engine works on, with the database of a number. -/
def studio (s : Stage ε) (n : Nat) : Studio where
  db := (s.databases[n]?).getD .empty
  minted := s.minted
  clock := s.clock
  log := s.log

/-- The stage on which the engine has changed what it works on. -/
def withStudio (s : Stage ε) (n : Nat) (studio : Studio) : Stage ε :=
  { s with
    databases := s.databases.set n studio.db
    minted := studio.minted
    clock := studio.clock
    log := studio.log }

/-- What was put on the stage is there. -/
theorem studio_withStudio {s : Stage ε} {n : Nat} (h : n < s.databases.length) (studio : Studio) :
    (s.withStudio n studio).studio n = studio := by
  simp [Stage.studio, withStudio, h]

/-- A change to one database leaves the others. -/
theorem databases_withStudio_ne {s : Stage ε} {n k : Nat} (h : n ≠ k) (studio : Studio) :
    (s.withStudio n studio).databases[k]? = s.databases[k]? := by
  simp [withStudio, h]

end Stage

namespace Staged

instance : MonadStateOf Studio (Staged ε) where
  get := fun n m => .finished m (m.state.studio n)
  set studio := fun n m => .finished { m with state := m.state.withStudio n studio } ⟨⟩
  modifyGet f := fun n m =>
    let (v, studio) := f (m.state.studio n)
    .finished { m with state := m.state.withStudio n studio } v

instance : MonadStateOf Script (Staged ε) where
  get := fun _ m => .finished m m.state.script
  set script := fun _ m => .finished { m with state := { m.state with script := script } } ⟨⟩
  modifyGet f := fun _ m =>
    let (v, script) := f m.state.script
    .finished { m with state := { m.state with script := script } } v

/-- Read and change what else is kept. -/
def modifyExtra (f : ε → α × ε) : Staged ε α := fun _ m =>
  let (v, extra) := f m.state.extra
  .finished { m with state := { m.state with extra := extra } } v

/-- Open a database; gives its number. -/
def openDatabase (db : Database) : Staged ε Nat := fun _ m =>
  let s := m.state
  .finished { m with state := { s with databases := s.databases ++ [db] } } s.databases.length

/-- Act with the database of a number. -/
def withDatabase (n : Nat) (action : Staged ε α) : Staged ε α := fun _ => action n

end Staged

end Lorebook
