import Lorebook.Ident
import Lorebook.Text.Quoted

set_option autoImplicit false

/-! # Errors of the store

The database can refuse a statement, what is asked for can be missing, the state can stand in the
way, and a stored row can hold what its column should not. -/

namespace Lorebook

/-- The tables of the database. -/
inductive TableName where
  | worlds
  | modules
  | jobs
  | schemaVersion
deriving DecidableEq, Repr

/-- The name of a table. -/
def TableName.text : TableName → String
  | .worlds => "worlds"
  | .modules => "world_modules"
  | .jobs => "world_generation_jobs"
  | .schemaVersion => "schema_version"

/-- The table of a name. -/
def TableName.ofText? (name : String) : Option TableName :=
  [TableName.worlds, .modules, .jobs, .schemaVersion].find? fun t => t.text == name

/-- Why the database refuses. -/
inductive DatabaseFault where
  | noSuchTable (table : TableName)
  | noSuchColumn (column : String)
  | uniqueFailed (table : TableName) (columns : List String)
  | foreignKeyFailed
  | notNullFailed (table : TableName) (column : String)
  /-- A column holds another kind than the reader asks for. -/
  | wrongKind (kind : String) (index : Nat) (column : String)
  /-- The path is that of a directory. -/
  | cannotOpen (path : String)
  /-- The file is no database. -/
  | notADatabase
  /-- The schema is of a later version than the supported one. -/
  | newerSchema (found supported : Nat)
  /-- A refusal in the words of the database. -/
  | described (message : String)
deriving DecidableEq, Repr

/-- The text of a refusal. -/
def DatabaseFault.message : DatabaseFault → String
  | .noSuchTable table => s!"no such table: {table.text}"
  | .noSuchColumn column => s!"no such column: {column}"
  | .uniqueFailed table columns =>
    let names := String.intercalate ", " (columns.map fun c => table.text ++ "." ++ c)
    s!"UNIQUE constraint failed: {names}"
  | .foreignKeyFailed => "FOREIGN KEY constraint failed"
  | .notNullFailed table column => s!"NOT NULL constraint failed: {table.text}.{column}"
  | .wrongKind kind index column =>
    s!"Invalid column type {kind} at index: {index}, name: {column}"
  | .cannotOpen path => s!"unable to open database file: {path}"
  | .notADatabase => "pragmas: file is not a database"
  | .newerSchema found supported =>
    s!"database schema version {found} is newer than supported version {supported}"
  | .described message => message

/-- What is missing. -/
inductive Absence where
  | world (id : WorldId)
  | moduleOf (module : String) (world : WorldId)
  | moduleKey (key : String)
  | fieldKey (module field : String)
  | job (id : JobId)
  | jobOf (world : WorldId) (module : String)
  | described (what : String)
deriving DecidableEq, Repr

/-- The words for what is missing. -/
def Absence.text : Absence → String
  | .world id => s!"world {id.text}"
  | .moduleOf key w => s!"module {key} of world {w.text}"
  | .moduleKey key => s!"module {key}"
  | .fieldKey m f => s!"field {m}.{f}"
  | .job id => s!"job {id.text}"
  | .jobOf w key => s!"job for {w.text}/{key}"
  | .described what => what

/-- What stands in the way. -/
inductive Clash where
  | jobRunning (id : JobId)
  | jobNotRunning (id : JobId)
  | worldGenerating (world : WorldId) (module : String)
  | moduleQueued (module status : String)
  | described (what : String)
deriving DecidableEq, Repr

/-- The words for what stands in the way. -/
def Clash.text : Clash → String
  | .jobRunning id => s!"job {id.text} is running"
  | .jobNotRunning id => s!"job {id.text} is not running"
  | .worldGenerating world module =>
    s!"world {world.text} is generating '{module}'; try again once it finishes"
  | .moduleQueued module status => s!"module {module} has a {status} generation job"
  | .described what => what

/-- What is wrong with a cell. -/
inductive CellFault where
  | wrongKind (kind : String) (index : Nat) (column : String)
  | outOfRange (value : Int) (index : Nat)
  | unknownVariant (word : String)
  | invalidJson (detail : String)
  | invalidTimestamp (raw detail : String)
  | described (detail : String)
deriving DecidableEq, Repr

/-- The text of a fault of a cell. -/
def CellFault.message : CellFault → String
  | .wrongKind kind index column => (DatabaseFault.wrongKind kind index column).message
  | .outOfRange value index => s!"Integer {value} out of range at index {index}"
  | .unknownVariant word => s!"unknown variant: {word}"
  | .invalidJson detail => s!"invalid JSON: {detail}"
  | .invalidTimestamp raw detail => s!"invalid timestamp {Text.quoted raw}: {detail}"
  | .described detail => detail

/-- What an operation of the store fails with. -/
inductive StoreError where
  | database (fault : DatabaseFault)
  | notFound (what : Absence)
  | conflict (what : Clash)
  | serialization (detail : String)
  | io (detail : String)
  | corruptRow (table : TableName) (column : String) (fault : CellFault)
deriving DecidableEq, Repr

/-- The word for a kind of error. -/
def StoreError.kind : StoreError → String
  | .database _ => "Database"
  | .notFound _ => "NotFound"
  | .conflict _ => "Conflict"
  | .serialization _ => "Serialization"
  | .io _ => "Io"
  | .corruptRow .. => "CorruptRow"

/-- The text of a store error. -/
def StoreError.message : StoreError → String
  | .database fault => s!"database error: {fault.message}"
  | .notFound what => s!"not found: {what.text}"
  | .conflict what => s!"conflict: {what.text}"
  | .serialization detail => s!"serialization error: {detail}"
  | .io detail => s!"IO error: {detail}"
  | .corruptRow table column fault =>
    s!"corrupt row in {table.text}.{column}: {fault.message}"

end Lorebook
