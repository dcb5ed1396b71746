import Lorebook.Store.Row

set_option autoImplicit false

/-! # The database

The database is a value: the rows of its tables in the order in which they were inserted. A
`Statement` reads and changes it; a statement that fails changes nothing by itself, but what ran
before it stays unless `atomically` runs the whole as one. Keys are unique, the world of a module or
a job exists, and removing a world removes its modules and jobs.

A table can be missing from a database that something else has worked on; statements on it fail. -/

namespace Lorebook

/-- The stored tables. -/
structure Database where
  worlds : List WorldRow
  modules : List ModuleRow
  jobs : List JobRow
  /-- The rows of the table that holds the version of the schema. -/
  versions : List Cell
  /-- The tables that are missing. -/
  dropped : List TableName
deriving DecidableEq

/-- A reading or changing of the database. -/
abbrev Statement (α : Type) := ExceptT StoreError (StateM Database) α

namespace Database

/-- The version of the schema that this library writes. -/
def schemaVersion : Nat := 1

/-- A new database. -/
def empty : Database where
  worlds := []
  modules := []
  jobs := []
  versions := [.int schemaVersion]
  dropped := []

instance : Inhabited Database := ⟨empty⟩

/-- Run a statement on a database. -/
def run {α : Type} (db : Database) (s : Statement α) : Except StoreError α × Database :=
  StateT.run (ExceptT.run s) db

end Database

namespace Statement

variable {α : Type}

/-- Refuse for a reason of the database. -/
def refuse (fault : DatabaseFault) : Statement α :=
  throw (.database fault)

/-- What reading a row gives. -/
def ofDecoded (d : Decoded α) : Statement α :=
  match d with
  | .ok v => return v
  | .error e => throw e

/-- Refuse when a table is missing. -/
def needs (table : TableName) : Statement Unit := do
  if table ∈ (← get).dropped then refuse (.noSuchTable table)

/-- Run a statement as a whole: when it fails, everything it changed is undone. -/
def atomically (s : Statement α) : Statement α := fun db =>
  match s db with
  | (.ok v, db') => (.ok v, db')
  | (.error e, _) => (.error e, db)

theorem atomically_of_ok {s : Statement α} {db db' : Database} {v : α}
    (h : s db = (.ok v, db')) : atomically s db = (.ok v, db') := by
  simp [atomically, h]

theorem atomically_of_error {s : Statement α} {db db' : Database} {e : StoreError}
    (h : s db = (.error e, db')) : atomically s db = (.error e, db) := by
  simp [atomically, h]

end Statement

namespace Database

open Statement

/-! ## Tampering

Something other than this library may overwrite single cells or drop tables. Columns still turn
values into their own kind, and the constraints of the schema still hold. -/

/-- Whether a column of a table holds integers. -/
def isIntegerColumn (column : String) : Bool :=
  column = "version" || column = "sequence" || column = "attempts"

/-- The columns that must hold something, by table. -/
def requiredColumns : TableName → List String
  | .worlds =>
    ["owner_id", "name", "themes", "status", "version", "created_at", "updated_at"]
  | .modules => ["world_id", "module_key", "fields", "status", "created_at", "updated_at"]
  | .jobs =>
    ["world_id", "module_key", "sequence", "job_type", "status", "attempts", "created_at",
      "updated_at"]
  | .schemaVersion => ["version"]

end Database

/-- The row with one column replaced; `none` when there is no such column. -/
def WorldRow.set? (r : WorldRow) (column : String) (c : Cell) : Option WorldRow :=
  match column with
  | "id" => some { r with id := c }
  | "owner_id" => some { r with owner := c }
  | "name" => some { r with name := c }
  | "tagline" => some { r with tagline := c }
  | "themes" => some { r with themes := c }
  | "status" => some { r with status := c }
  | "version" => some { r with version := c }
  | "published_at" => some { r with publishedAt := c }
  | "created_at" => some { r with createdAt := c }
  | "updated_at" => some { r with updatedAt := c }
  | "deleted_at" => some { r with deletedAt := c }
  | _ => none

/-- The row with one column replaced; `none` when there is no such column. -/
def ModuleRow.set? (r : ModuleRow) (column : String) (c : Cell) : Option ModuleRow :=
  match column with
  | "id" => some { r with id := c }
  | "world_id" => some { r with world := c }
  | "module_key" => some { r with key := c }
  | "fields" => some { r with fields := c }
  | "status" => some { r with status := c }
  | "content_hash" => some { r with hash := c }
  | "full_content" => some { r with content := c }
  | "last_editor" => some { r with lastEditor := c }
  | "created_at" => some { r with createdAt := c }
  | "updated_at" => some { r with updatedAt := c }
  | _ => none

/-- The row with one column replaced; `none` when there is no such column. -/
def JobRow.set? (r : JobRow) (column : String) (c : Cell) : Option JobRow :=
  match column with
  | "id" => some { r with id := c }
  | "world_id" => some { r with world := c }
  | "module_key" => some { r with moduleKey := c }
  | "sequence" => some { r with sequence := c }
  | "job_type" => some { r with type := c }
  | "status" => some { r with status := c }
  | "attempts" => some { r with attempts := c }
  | "last_error" => some { r with lastError := c }
  | "started_at" => some { r with startedAt := c }
  | "finished_at" => some { r with finishedAt := c }
  | "created_at" => some { r with createdAt := c }
  | "updated_at" => some { r with updatedAt := c }
  | _ => none

namespace Database

open Statement

/-- Whether two cells clash in a unique column; cells that hold nothing never do. -/
def sameKey (a b : Cell) : Bool :=
  !a.isNull && a = b

/-- The columns of the first unique key that two of the rows share. -/
def sharedKey? (keys : List (List String × List (List Cell))) : Option (List String) :=
  (keys.find? fun k => hasDuplicate k.2).map (·.1)
where
  /-- Whether a list of keys has two that clash. -/
  hasDuplicate : List (List Cell) → Bool
    | [] => false
    | k :: rest =>
      rest.any (fun l => (k.zip l).all fun p => sameKey p.1 p.2) || hasDuplicate rest

/-- The worlds that modules and jobs name. -/
def namedWorlds (db : Database) : List Cell :=
  db.modules.map (·.world) ++ db.jobs.map (·.world)

/-- Whether overwriting a column of a row breaks what ties modules and jobs to their worlds. A
module or job may move to a world that exists. A world may take a name that at least as many
modules and jobs are left waiting for as had its old one. Other columns are free. -/
def breaksTies (table : TableName) (column id : String) (value : Cell) (db : Database) : Bool :=
  match table, column with
  | .modules, "world_id" => !db.worlds.any (·.id = value)
  | .jobs, "world_id" => !db.worlds.any (·.id = value)
  | .worlds, "id" =>
    let named (c : Cell) : Nat := db.namedWorlds.countP (· = c)
    (if value.isNull then 0 else named value) < named (.text id)
  | _, _ => false

/-- Replace a cell in the rows of one name and count them. -/
def replaceCells {ρ : Type} (idOf : ρ → Cell) (set? : ρ → Option ρ) (id : String)
    (rows : List ρ) : Option (List ρ × Nat) := do
  let hits (r : ρ) : Bool := (idOf r).isText id
  let changed ← rows.mapM fun r => if hits r then set? r else some r
  return (changed, rows.countP hits)

/-- Overwrite a column of the row of one name, or of every row of the table of versions; gives the
number of rows that changed. -/
def overwrite (table : TableName) (column id : String) (value : Cell) : Statement Nat := do
  needs table
  if column = "world_id" then needs .worlds
  let value := if isIntegerColumn column then value.asInteger else value.asText
  let db ← get
  let result : Option (Database × Nat) := match table with
    | .worlds => (replaceCells (·.id) (·.set? column value) id db.worlds).map fun (rows, n) =>
        ({ db with worlds := rows }, n)
    | .modules => (replaceCells (·.id) (·.set? column value) id db.modules).map fun (rows, n) =>
        ({ db with modules := rows }, n)
    | .jobs => (replaceCells (·.id) (·.set? column value) id db.jobs).map fun (rows, n) =>
        ({ db with jobs := rows }, n)
    | .schemaVersion =>
      if column = "version" then
        some ({ db with versions := db.versions.map fun _ => value }, db.versions.length)
      else none
  match result with
  | none => refuse (.noSuchColumn column)
  | some (changed, n) =>
    if 0 < n && value.isNull && column ∈ requiredColumns table then
      refuse (.notNullFailed table column)
    else
      let keys := match table with
        | .worlds => [(["id"], changed.worlds.map fun r => [r.id])]
        | .modules => [
          (["world_id", "module_key"], changed.modules.map fun r => [r.world, r.key]),
          (["id"], changed.modules.map fun r => [r.id])]
        | .jobs => [
          (["world_id", "module_key"], changed.jobs.map fun r => [r.world, r.moduleKey]),
          (["id"], changed.jobs.map fun r => [r.id])]
        | .schemaVersion => []
      match sharedKey? keys with
      | some columns => refuse (.uniqueFailed table columns)
      | none =>
        if 0 < n && db.breaksTies table column id value then refuse .foreignKeyFailed
        else
          set changed
          return n

/-- Drop a table with its rows. -/
def drop (table : TableName) : Statement Unit := do
  needs table
  modify fun db =>
    let db := { db with dropped := table :: db.dropped }
    match table with
    | .worlds => { db with worlds := [] }
    | .modules => { db with modules := [] }
    | .jobs => { db with jobs := [] }
    | .schemaVersion => { db with versions := [] }

/-! ## Opening -/

/-- Bring a stored database into use: missing tables are created, a missing version is entered, and
a later version than this library's is refused. -/
def prepare : Statement Unit := do
  modify fun db => { db with dropped := [] }
  match (← get).versions.head? with
  | some (.int n) =>
    if 0 ≤ n ∧ n < (twoPow 32 : Int) then
      if (schemaVersion : Int) < n then refuse (.newerSchema n.toNat schemaVersion)
    else enter
  | _ => enter
where
  /-- Enter the version of this library. -/
  enter : Statement Unit :=
    modify fun db => { db with versions := db.versions ++ [.int schemaVersion] }

end Database

end Lorebook
