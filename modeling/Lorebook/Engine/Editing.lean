import Lorebook.Engine.Basic

set_option autoImplicit false

/-! # Editing worlds

Owners create worlds and write the fields of their modules. -/

namespace Lorebook.Engine

open Studio Operation

/-- Create a draft. -/
def createWorld (owner : OwnerId) (name : String) (tagline : Option String)
    (themes : List String) : Operation World := do
  match Text.trimmed? name with
  | none => throw (.validation .blankWorldName)
  | some name =>
    let id := WorldId.mint (← mint)
    let world := { World.new id owner name (← readClock) with tagline := tagline, themes := themes }
    store (Worlds.insert world)
    return world

/-- A module with field values written over its own and its status derived from them. -/
def withFields (definition : ModuleDefinition) (fields : List (String × String))
    (m : WorldModule) : WorldModule :=
  let fields := m.fields.insertAll fields
  { m with fields := fields, status := .derive definition fields }

/-- Write some fields of a module, as its owner does in an editor. -/
def saveModuleFields (e : Engine) (world : WorldId) (module : String) (owner : OwnerId)
    (fields : List (String × String)) : Operation WorldModule := do
  let definition ← e.definition module
  match fields.find? fun f => (definition.field? f.1).isNone with
  | some (unknown, _) => throw (.validation (.unknownField module unknown))
  | none =>
    atomically do
      let _ ← ownedWorld world owner
      let m ← moduleOrNew world definition
      let m := (withFields definition fields m).touch (some owner) (← readClock)
      store (Modules.save m)
      return m

end Lorebook.Engine
