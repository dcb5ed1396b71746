import Lorebook.Engine.Studio
import Lorebook.Generation.Request
import Lorebook.Prompt.Context
import Lorebook.Template.Render

set_option autoImplicit false

/-! # The engine

The engine is what stays fixed while it works: the registry, the prompts with their functions, the
keys of owners, and the bound on generator calls. Its operations on worlds are in the modules that
follow; this one holds what they share. -/

namespace Lorebook

/-- What every operation on worlds relies on. -/
structure Engine where
  registry : Registry
  catalog : Catalog
  functions : FunctionSet
  keyring : Keyring
  /-- The bound on a generator call. -/
  timeout : Span
  /-- The name of the database in the log. -/
  databaseName : String

namespace Engine

open Studio Operation

/-! ## Worlds and their owners -/

/-- Refuse a caller who does not own a world. -/
def ensureOwner (world : World) (owner : OwnerId) : Operation Unit :=
  if world.isOwnedBy owner then return ()
  else throw (.forbidden (.notOwner world.id owner))

/-- A live world of an owner. -/
def ownedWorld (id : WorldId) (owner : OwnerId) : Operation World := do
  let world ← store (Worlds.require id)
  ensureOwner world owner
  return world

/-! ## Modules -/

/-- A module that is not stored yet. -/
def newModule (world : WorldId) (definition : ModuleDefinition) : Operation WorldModule := do
  let id := ModuleId.mint (← mint)
  let m := WorldModule.new id world definition.key (← readClock)
  return { m with status := .derive definition m.fields }

/-- The stored module of a definition, or a new one. -/
def moduleOrNew (world : WorldId) (definition : ModuleDefinition) : Operation WorldModule := do
  match ← store (Modules.find? world definition.key) with
  | some m => return m
  | none => newModule world definition

/-- The definition of a module. -/
def definition (e : Engine) (key : String) : Operation ModuleDefinition :=
  ofExcept .ofRegistry (e.registry.require key)

/-- A world of an owner with all its stored modules, and the module of a definition among them or
a new one. -/
def loadScope (id : WorldId) (owner : OwnerId) (definition : ModuleDefinition) :
    Operation (World × WorldModule × List WorldModule) := do
  let (world, siblings) ← store do
    return (← Worlds.require id, ← Modules.listForWorld id)
  ensureOwner world owner
  match siblings.find? (·.key == definition.key) with
  | some m => return (world, m, siblings)
  | none => return (world, ← newModule id definition, siblings)

/-! ## Prompts and keys -/

/-- The prompt of a stage for a module. -/
def renderPrompt (e : Engine) (stage : PromptStage) (module : String) (context : Json) :
    Operation String :=
  ofExcept .template ((e.catalog.template stage module).render e.functions context)

/-- The credentials for calls on behalf of a world's owner. -/
def credentialsFor (e : Engine) (world : World) : Operation Credentials := do
  (e.keyring.events world.owner).forM tell
  ofExcept .preconditionFailed (e.keyring.resolve world.owner)

end Engine

end Lorebook
