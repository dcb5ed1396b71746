import Lorebook.Store.Database

set_option autoImplicit false

/-! # The table of modules

A world has at most one module of a key. Saving a module writes over the one that is stored, whose
name and time of creation stay. -/

namespace Lorebook.Modules

open Statement

/-- Whether a row is that of one module of a world. -/
def isOf (world : WorldId) (key : String) (r : ModuleRow) : Bool :=
  r.world.isText world.text && r.key.isText key

/-- A stored row with the values of a module written over it. -/
def overwritten (new : ModuleRow) (r : ModuleRow) : ModuleRow :=
  { r with
    fields := new.fields
    status := new.status
    hash := new.hash
    content := new.content
    lastEditor := new.lastEditor
    updatedAt := new.updatedAt }

/-- Store a module, new or over the one of its key. -/
def save (m : WorldModule) : Statement Unit := do
  needs .modules
  needs .worlds
  let row := ModuleRow.ofModule m
  let db ← get
  if db.modules.any (isOf m.world m.key) then
    set { db with
      modules := db.modules.map fun r => if isOf m.world m.key r then overwritten row r else r }
  else if db.modules.any (·.id = row.id) then refuse (.uniqueFailed .modules ["id"])
  else if db.worlds.any (·.id = row.world) then
    set { db with modules := db.modules ++ [row] }
  else refuse .foreignKeyFailed

/-- The module of a key, if it is stored. -/
def find? (world : WorldId) (key : String) : Statement (Option WorldModule) := do
  needs .modules
  match (← get).modules.find? (isOf world key) with
  | some row => return some (← ofDecoded row.decode)
  | none => return none

/-- The stored module of a key. -/
def require (world : WorldId) (key : String) : Statement WorldModule := do
  match ← find? world key with
  | some m => return m
  | none => throw (.notFound (.moduleOf key world))

/-- The stored modules of a world, by key. -/
def listForWorld (world : WorldId) : Statement (List WorldModule) := do
  needs .modules
  let rows := (← get).modules.filter fun r => r.world.isText world.text
  (rows.mergeSort fun a b => a.key.notAfter b.key).mapM fun r => ofDecoded r.decode

end Lorebook.Modules
