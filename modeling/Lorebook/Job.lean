import Lorebook.Ident
import Lorebook.Text.Word
import Lorebook.Time.Instant

set_option autoImplicit false

/-! # Generation jobs

A job is one unit of queued work: to produce the content of one module. It names its module by key,
so that module rows may come and go between publications. -/

namespace Lorebook

/-- Where a job stands. -/
inductive JobStatus where
  | waiting
  | running
  | succeeded
  | failed
deriving DecidableEq, Repr

namespace JobStatus

/-- The word for a status. -/
def text : JobStatus → String
  | .waiting => "WAITING"
  | .running => "RUNNING"
  | .succeeded => "SUCCEEDED"
  | .failed => "FAILED"

/-- Every status. -/
def all : List JobStatus := [.waiting, .running, .succeeded, .failed]

/-- The status of a word. -/
def ofText? (word : String) : Option JobStatus :=
  all.find? fun s => s.text == word

@[simp] theorem ofText?_text (s : JobStatus) : ofText? s.text = some s := by
  cases s <;> decide

/-- Read the word for a status. -/
def parse : String → Except UnknownWord JobStatus :=
  parseWord "job status" ofText?

/-- Whether the job is settled. -/
def isTerminal : JobStatus → Bool
  | .succeeded | .failed => true
  | _ => false

end JobStatus

/-- The kind of work that a job does. -/
inductive JobType where
  /-- Write a module's content from its final prompt. -/
  | moduleFinal
deriving DecidableEq, Repr

namespace JobType

/-- The word for a kind. -/
def text : JobType → String
  | .moduleFinal => "MODULE_FINAL"

/-- The kind of a word. -/
def ofText? (word : String) : Option JobType :=
  if word = "MODULE_FINAL" then some .moduleFinal else none

@[simp] theorem ofText?_text (t : JobType) : ofText? t.text = some t := by
  cases t; decide

/-- Read the word for a type. -/
def parse : String → Except UnknownWord JobType :=
  parseWord "job type" ofText?

end JobType

/-- A generation job. -/
structure Job where
  id : JobId
  world : WorldId
  moduleKey : String
  /-- The place in the queue of a publication, from 1 on. -/
  sequence : Nat
  type : JobType
  status : JobStatus
  attempts : Nat
  lastError : Option String
  startedAt : Option Instant
  finishedAt : Option Instant
  createdAt : Instant
  updatedAt : Instant
deriving DecidableEq

/-- A job that has not run. -/
def Job.newWaiting (id : JobId) (world : WorldId) (moduleKey : String) (sequence : Nat)
    (now : Instant) : Job where
  id := id
  world := world
  moduleKey := moduleKey
  sequence := sequence
  type := .moduleFinal
  status := .waiting
  attempts := 0
  lastError := none
  startedAt := none
  finishedAt := none
  createdAt := now
  updatedAt := now

end Lorebook
