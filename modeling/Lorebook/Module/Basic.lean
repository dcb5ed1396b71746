import Lorebook.Digest.Sha256
import Lorebook.Entries
import Lorebook.Ident
import Lorebook.Module.Definition
import Lorebook.Text.Word
import Lorebook.Time.Instant

set_option autoImplicit false

/-! # Modules of a world

A module holds the field values that its owner wrote and, once generated, the finished content with
a fingerprint of the values it was generated from. While the fingerprint agrees with the current
values, the content can be published again without another generation. -/

namespace Lorebook

/-- The values of a module's fields, by field key. -/
abbrev FieldMap := Dictionary String

/-- Where a module stands between editing and generation. -/
inductive ModuleStatus where
  | empty
  | inProgress
  | ready
  | awaitingGeneration
  | generating
  | completed
  | failed
deriving DecidableEq, Repr

namespace ModuleStatus

/-- The word for a status. -/
def text : ModuleStatus → String
  | .empty => "EMPTY"
  | .inProgress => "IN_PROGRESS"
  | .ready => "READY"
  | .awaitingGeneration => "AWAITING_GENERATION"
  | .generating => "GENERATING"
  | .completed => "COMPLETED"
  | .failed => "FAILED"

/-- Every status. -/
def all : List ModuleStatus :=
  [.empty, .inProgress, .ready, .awaitingGeneration, .generating, .completed, .failed]

/-- The status of a word. -/
def ofText? (word : String) : Option ModuleStatus :=
  all.find? fun s => s.text == word

@[simp] theorem ofText?_text (s : ModuleStatus) : ofText? s.text = some s := by
  cases s <;> decide

/-- Read the word for a status. -/
def parse : String → Except UnknownWord ModuleStatus :=
  parseWord "module status" ofText?

/-- Whether publication may take the module as it is. -/
def isReadyForPublish : ModuleStatus → Bool
  | .ready | .awaitingGeneration | .completed => true
  | _ => false

/-- The editing status that the field values imply: empty when nothing is filled in, ready when
every required field passes, and in progress otherwise. -/
def derive (definition : ModuleDefinition) (fields : FieldMap) : ModuleStatus :=
  if fields.values.all Text.isBlank then .empty
  else if definition.requiredFields.all fun f => (f.violation? (fields.find? f.key)).isNone then
    .ready
  else .inProgress

end ModuleStatus

/-! ## Fingerprints -/

/-- The bytes that stand for a field map: every entry's key and value, each followed by a separator
of its own. -/
def fieldBytes (fields : FieldMap) : List UInt8 :=
  fields.entries.flatMap fun e =>
    e.1.toUTF8.toList ++ 0x1f :: e.2.toUTF8.toList ++ [0x1e]

/-- The fingerprint of field values. -/
def contentHash (fields : FieldMap) : String :=
  Sha256.hexDigest (fieldBytes fields)

/-- A module of a world. -/
structure WorldModule where
  id : ModuleId
  world : WorldId
  key : String
  fields : FieldMap
  status : ModuleStatus
  /-- The fingerprint of the field values that the content was generated from. -/
  hash : Option String
  content : Option String
  lastEditor : Option OwnerId
  createdAt : Instant
  updatedAt : Instant
deriving DecidableEq

namespace WorldModule

/-- A module without values. -/
def new (id : ModuleId) (world : WorldId) (key : String) (now : Instant) : WorldModule where
  id := id
  world := world
  key := key
  fields := .empty
  status := .empty
  hash := none
  content := none
  lastEditor := none
  createdAt := now
  updatedAt := now

/-- The value of a field. -/
def field? (m : WorldModule) (key : String) : Option String :=
  m.fields.find? key

/-- Whether the stored fingerprint is that of the current values. -/
def hashMatches (m : WorldModule) : Bool :=
  m.hash == some (contentHash m.fields)

/-- Whether the content was completed from the current values. -/
def isReusable (m : WorldModule) : Bool :=
  m.status = .completed && m.hashMatches

/-- The module as touched at a time, by an editor if there is one. -/
def touch (m : WorldModule) (editor : Option OwnerId) (now : Instant) : WorldModule :=
  { m with lastEditor := editor.or m.lastEditor, updatedAt := now }

end WorldModule

end Lorebook
