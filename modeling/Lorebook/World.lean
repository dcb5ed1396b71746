import Lorebook.Ident
import Lorebook.Text.Word
import Lorebook.Time.Instant

set_option autoImplicit false

/-! # Worlds

A world is the creative work that an owner assembles from modules. It starts as a draft; only
publication and the generation queue move it on, and each activation counts its version up. -/

namespace Lorebook

/-- Where a world stands in its life. -/
inductive WorldStatus where
  | draft
  | generating
  | active
  | archived
deriving DecidableEq, Repr

namespace WorldStatus

/-- The word for a status. -/
def text : WorldStatus → String
  | .draft => "DRAFT"
  | .generating => "GENERATING"
  | .active => "ACTIVE"
  | .archived => "ARCHIVED"

/-- Every status. -/
def all : List WorldStatus := [.draft, .generating, .active, .archived]

/-- The status of a word. -/
def ofText? (word : String) : Option WorldStatus :=
  all.find? fun s => s.text == word

@[simp] theorem ofText?_text (s : WorldStatus) : ofText? s.text = some s := by
  cases s <;> decide

/-- Read the word for a status. -/
def parse : String → Except UnknownWord WorldStatus :=
  parseWord "world status" ofText?

end WorldStatus

/-- A world. -/
structure World where
  id : WorldId
  owner : OwnerId
  name : String
  tagline : Option String
  themes : List String
  status : WorldStatus
  version : Int
  publishedAt : Option Instant
  createdAt : Instant
  updatedAt : Instant
  deletedAt : Option Instant
deriving DecidableEq

namespace World

/-- A new draft. -/
def new (id : WorldId) (owner : OwnerId) (name : String) (now : Instant) : World where
  id := id
  owner := owner
  name := name
  tagline := none
  themes := []
  status := .draft
  version := 0
  publishedAt := none
  createdAt := now
  updatedAt := now
  deletedAt := none

/-- Whether an account owns the world. -/
def isOwnedBy (w : World) (owner : OwnerId) : Bool :=
  w.owner = owner

/-- The world once activated: its version counts up and the time of publication is noted. -/
def activate (w : World) (now : Instant) : World :=
  { w with status := .active, version := w.version + 1, publishedAt := some now, updatedAt := now }

/-- The world once its modules are queued for generation. -/
def beginGeneration (w : World) (now : Instant) : World :=
  { w with status := .generating, updatedAt := now }

end World

end Lorebook
