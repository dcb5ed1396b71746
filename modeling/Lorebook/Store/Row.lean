import Lorebook.Exchange.Json
import Lorebook.Json.Printer
import Lorebook.Json.Reader
import Lorebook.Store.Cell
import Lorebook.Store.Error

set_option autoImplicit false

/-! # Stored rows

A row is a record of cells. Writing a world, a module or a job fills every cell with text or an
integer: instants as timestamps of fixed width, lists and maps as JSON, statuses as words. Reading
checks every cell again and names the first one that does not hold what it should. -/

namespace Lorebook

/-- A reading of stored cells. -/
abbrev Decoded (α : Type) := Except StoreError α

/-! ## Cells of a column -/

/-- A cell with its place: the table, the column and the position among the columns read. -/
structure CellAt where
  table : TableName
  column : String
  index : Nat
  cell : Cell

namespace CellAt

/-- A fault of the cell. -/
def fail {α : Type} (c : CellAt) (fault : CellFault) : Decoded α :=
  .error (.corruptRow c.table c.column fault)

/-- The kind is not the one asked for. -/
def wrongKind {α : Type} (c : CellAt) : Decoded α :=
  c.fail (.wrongKind c.cell.kind c.index c.column)

/-- A text. -/
def text (c : CellAt) : Decoded String :=
  match c.cell with
  | .text s => .ok s
  | _ => c.wrongKind

/-- A text that may be absent. -/
def textOption (c : CellAt) : Decoded (Option String) :=
  match c.cell with
  | .null => .ok none
  | .text s => .ok (some s)
  | _ => c.wrongKind

/-- An integer. -/
def int (c : CellAt) : Decoded Int :=
  match c.cell with
  | .int n => .ok n
  | _ => c.wrongKind

/-- A natural number of at most 32 bits. -/
def nat32 (c : CellAt) : Decoded Nat := do
  let n ← c.int
  if 0 ≤ n ∧ n < (twoPow 32 : Int) then return n.toNat else c.fail (.outOfRange n c.index)

/-- The instant of a timestamp. -/
def parseTime (c : CellAt) (raw : String) : Decoded Instant :=
  match Rfc3339.parse? raw with
  | some t => .ok t
  | none => c.fail (.invalidTimestamp raw "not a timestamp")

/-- An instant. -/
def time (c : CellAt) : Decoded Instant := do
  c.parseTime (← c.text)

/-- An instant that may be absent. -/
def timeOption (c : CellAt) : Decoded (Option Instant) := do
  match ← c.textOption with
  | none => return none
  | some raw => return some (← c.parseTime raw)

/-- A value of JSON text. -/
def parseJson {α : Type} (c : CellAt) (decode : Json.Decoder α) (raw : String) : Decoded α :=
  match (Json.parseRecord? raw).bind decode with
  | some v => .ok v
  | none => c.fail (.invalidJson "not of the expected form")

/-- A word of a fixed set. -/
def parseWord {α : Type} (c : CellAt) (ofText? : String → Option α) (raw : String) : Decoded α :=
  match ofText? raw with
  | some v => .ok v
  | none => c.fail (.unknownVariant raw)

end CellAt

/-- A stored instant that may be absent. -/
def Cell.ofTime (t : Option Instant) : Cell :=
  .ofOption (t.map Rfc3339.stored)

/-! ## Worlds -/

/-- A row of the table of worlds. -/
structure WorldRow where
  id : Cell
  owner : Cell
  name : Cell
  tagline : Cell
  themes : Cell
  status : Cell
  version : Cell
  publishedAt : Cell
  createdAt : Cell
  updatedAt : Cell
  deletedAt : Cell
deriving DecidableEq

namespace WorldRow

/-- The row of a world. -/
def ofWorld (w : World) : WorldRow where
  id := .text w.id.text
  owner := .text w.owner.text
  name := .text w.name
  tagline := .ofOption w.tagline
  themes := .text (Json.strings w.themes).compact
  status := .text w.status.text
  version := .int w.version
  publishedAt := .ofTime w.publishedAt
  createdAt := .text (Rfc3339.stored w.createdAt)
  updatedAt := .text (Rfc3339.stored w.updatedAt)
  deletedAt := .ofTime w.deletedAt

/-- The columns in order, each with its cell. -/
def columns (r : WorldRow) : List (String × Cell) := [
  ("id", r.id), ("owner_id", r.owner), ("name", r.name), ("tagline", r.tagline),
  ("themes", r.themes), ("status", r.status), ("version", r.version),
  ("published_at", r.publishedAt), ("created_at", r.createdAt), ("updated_at", r.updatedAt),
  ("deleted_at", r.deletedAt)]

/-- A cell of the row with its place. -/
def cellAt (column : String) (index : Nat) (cell : Cell) : CellAt :=
  ⟨.worlds, column, index, cell⟩

/-- The world of a row. -/
def decode (r : WorldRow) : Decoded World := do
  let statusAt := cellAt "status" 5 r.status
  let status ← statusAt.text
  let themesAt := cellAt "themes" 4 r.themes
  let themes ← themesAt.text
  return {
    id := ⟨← (cellAt "id" 0 r.id).text⟩
    owner := ⟨← (cellAt "owner_id" 1 r.owner).text⟩
    name := ← (cellAt "name" 2 r.name).text
    tagline := ← (cellAt "tagline" 3 r.tagline).textOption
    themes := ← themesAt.parseJson (Json.decodeList Json.decodeText) themes
    status := ← statusAt.parseWord WorldStatus.ofText? status
    version := ← (cellAt "version" 6 r.version).int
    publishedAt := ← (cellAt "published_at" 7 r.publishedAt).timeOption
    createdAt := ← (cellAt "created_at" 8 r.createdAt).time
    updatedAt := ← (cellAt "updated_at" 9 r.updatedAt).time
    deletedAt := ← (cellAt "deleted_at" 10 r.deletedAt).timeOption }

end WorldRow

/-! ## Modules -/

/-- A row of the table of modules. -/
structure ModuleRow where
  id : Cell
  world : Cell
  key : Cell
  fields : Cell
  status : Cell
  hash : Cell
  content : Cell
  lastEditor : Cell
  createdAt : Cell
  updatedAt : Cell
deriving DecidableEq

namespace ModuleRow

/-- The row of a module. -/
def ofModule (m : WorldModule) : ModuleRow where
  id := .text m.id.text
  world := .text m.world.text
  key := .text m.key
  fields := .text (FieldMap.toJson m.fields).compact
  status := .text m.status.text
  hash := .ofOption m.hash
  content := .ofOption m.content
  lastEditor := .ofOption (m.lastEditor.map (·.text))
  createdAt := .text (Rfc3339.stored m.createdAt)
  updatedAt := .text (Rfc3339.stored m.updatedAt)

/-- The columns in order, each with its cell. -/
def columns (r : ModuleRow) : List (String × Cell) := [
  ("id", r.id), ("world_id", r.world), ("module_key", r.key), ("fields", r.fields),
  ("status", r.status), ("content_hash", r.hash), ("full_content", r.content),
  ("last_editor", r.lastEditor), ("created_at", r.createdAt), ("updated_at", r.updatedAt)]

/-- A cell of the row with its place. -/
def cellAt (column : String) (index : Nat) (cell : Cell) : CellAt :=
  ⟨.modules, column, index, cell⟩

/-- The module of a row. -/
def decode (r : ModuleRow) : Decoded WorldModule := do
  let fieldsAt := cellAt "fields" 3 r.fields
  let fields ← fieldsAt.text
  let statusAt := cellAt "status" 4 r.status
  let status ← statusAt.text
  let fields ← fieldsAt.parseJson (Json.decodeMap Json.decodeText) fields
  return {
    id := ⟨← (cellAt "id" 0 r.id).text⟩
    world := ⟨← (cellAt "world_id" 1 r.world).text⟩
    key := ← (cellAt "module_key" 2 r.key).text
    fields := fields
    status := ← statusAt.parseWord ModuleStatus.ofText? status
    hash := ← (cellAt "content_hash" 5 r.hash).textOption
    content := ← (cellAt "full_content" 6 r.content).textOption
    lastEditor := (← (cellAt "last_editor" 7 r.lastEditor).textOption).map OwnerId.mk
    createdAt := ← (cellAt "created_at" 8 r.createdAt).time
    updatedAt := ← (cellAt "updated_at" 9 r.updatedAt).time }

end ModuleRow

/-! ## Jobs -/

/-- A row of the table of generation jobs. -/
structure JobRow where
  id : Cell
  world : Cell
  moduleKey : Cell
  sequence : Cell
  type : Cell
  status : Cell
  attempts : Cell
  lastError : Cell
  startedAt : Cell
  finishedAt : Cell
  createdAt : Cell
  updatedAt : Cell
deriving DecidableEq

namespace JobRow

/-- The row of a job. -/
def ofJob (j : Job) : JobRow where
  id := .text j.id.text
  world := .text j.world.text
  moduleKey := .text j.moduleKey
  sequence := .int j.sequence
  type := .text j.type.text
  status := .text j.status.text
  attempts := .int j.attempts
  lastError := .ofOption j.lastError
  startedAt := .ofTime j.startedAt
  finishedAt := .ofTime j.finishedAt
  createdAt := .text (Rfc3339.stored j.createdAt)
  updatedAt := .text (Rfc3339.stored j.updatedAt)

/-- The columns in order, each with its cell. -/
def columns (r : JobRow) : List (String × Cell) := [
  ("id", r.id), ("world_id", r.world), ("module_key", r.moduleKey), ("sequence", r.sequence),
  ("job_type", r.type), ("status", r.status), ("attempts", r.attempts),
  ("last_error", r.lastError), ("started_at", r.startedAt), ("finished_at", r.finishedAt),
  ("created_at", r.createdAt), ("updated_at", r.updatedAt)]

/-- A cell of the row with its place. -/
def cellAt (column : String) (index : Nat) (cell : Cell) : CellAt :=
  ⟨.jobs, column, index, cell⟩

/-- The job of a row. -/
def decode (r : JobRow) : Decoded Job := do
  let typeAt := cellAt "job_type" 4 r.type
  let type ← typeAt.text
  let statusAt := cellAt "status" 5 r.status
  let status ← statusAt.text
  return {
    id := ⟨← (cellAt "id" 0 r.id).text⟩
    world := ⟨← (cellAt "world_id" 1 r.world).text⟩
    moduleKey := ← (cellAt "module_key" 2 r.moduleKey).text
    sequence := ← (cellAt "sequence" 3 r.sequence).nat32
    type := ← typeAt.parseWord JobType.ofText? type
    status := ← statusAt.parseWord JobStatus.ofText? status
    attempts := ← (cellAt "attempts" 6 r.attempts).nat32
    lastError := ← (cellAt "last_error" 7 r.lastError).textOption
    startedAt := ← (cellAt "started_at" 8 r.startedAt).timeOption
    finishedAt := ← (cellAt "finished_at" 9 r.finishedAt).timeOption
    createdAt := ← (cellAt "created_at" 10 r.createdAt).time
    updatedAt := ← (cellAt "updated_at" 11 r.updatedAt).time }

/-- Whether the row is in a status. -/
def hasStatus (r : JobRow) (s : JobStatus) : Bool :=
  r.status.isText s.text

end JobRow

end Lorebook
