import Lorebook.Store.Database

set_option autoImplicit false

/-! # The table of worlds

A world is live until it is marked as deleted; its modules and jobs stay until it is removed. -/

namespace Lorebook.Worlds

open Statement

/-- Whether a row is that of a live world of one name. -/
def isLive (id : WorldId) (r : WorldRow) : Bool :=
  r.id.isText id.text && r.deletedAt.isNull

/-- Insert a new world. -/
def insert (w : World) : Statement Unit := do
  needs .worlds
  let row := WorldRow.ofWorld w
  if (← get).worlds.any (·.id = row.id) then refuse (.uniqueFailed .worlds ["id"])
  modify fun db => { db with worlds := db.worlds ++ [row] }

/-- A live world, if there is one of the name. -/
def find? (id : WorldId) : Statement (Option World) := do
  needs .worlds
  match (← get).worlds.find? (isLive id) with
  | some row => return some (← ofDecoded row.decode)
  | none => return none

/-- A live world. -/
def require (id : WorldId) : Statement World := do
  match ← find? id with
  | some w => return w
  | none => throw (.notFound (.world id))

/-- The live worlds of an owner, the newest first. -/
def listForOwner (owner : OwnerId) : Statement (List World) := do
  needs .worlds
  let rows := (← get).worlds.filter fun r => r.owner.isText owner.text && r.deletedAt.isNull
  (rows.mergeSort fun a b => b.createdAt.notAfter a.createdAt).mapM fun r => ofDecoded r.decode

/-- The row of a live world with what can change written back. -/
def overwritten (w : World) (r : WorldRow) : WorldRow :=
  let new := WorldRow.ofWorld w
  { r with
    name := new.name
    tagline := new.tagline
    themes := new.themes
    status := new.status
    version := new.version
    publishedAt := new.publishedAt
    updatedAt := new.updatedAt }

/-- Write back what can change about a live world. -/
def update (w : World) : Statement Unit := do
  needs .worlds
  if (← get).worlds.any (isLive w.id) then
    modify fun db =>
      { db with worlds := db.worlds.map fun r => if isLive w.id r then overwritten w r else r }
  else throw (.notFound (.world w.id))

/-- Mark a live world as deleted. -/
def softDelete (id : WorldId) (now : Instant) : Statement Unit := do
  needs .worlds
  let time := Cell.text (Rfc3339.stored now)
  if (← get).worlds.any (isLive id) then
    modify fun db => { db with
      worlds := db.worlds.map fun r =>
        if isLive id r then { r with deletedAt := time, updatedAt := time } else r }
  else throw (.notFound (.world id))

/-- Remove a world, live or not, with its modules and jobs; tells whether there was one. -/
def hardDelete (id : WorldId) : Statement Bool := do
  needs .worlds
  if (← get).worlds.any (·.id.isText id.text) then
    modify fun db => { db with
      worlds := db.worlds.filter fun r => !r.id.isText id.text
      modules := db.modules.filter fun r => !r.world.isText id.text
      jobs := db.jobs.filter fun r => !r.world.isText id.text }
    return true
  else return false

/-- The owner of a live world. -/
def ownerOf (id : WorldId) : Statement (Option OwnerId) := do
  needs .worlds
  match (← get).worlds.find? (isLive id) with
  | none => return none
  | some row => match row.owner with
    | .text owner => return some ⟨owner⟩
    | c => refuse (.wrongKind c.kind 0 "owner_id")

end Lorebook.Worlds
