import Lorebook.Json.Decode
import Lorebook.Module.Basic
import Lorebook.Registry
import Lorebook.World

set_option autoImplicit false

/-! # Fixtures

A fixture is a world written down for previews: its name, the values of its modules, and generated
content where there is some. -/

namespace Lorebook

/-- A world written down for previews. -/
structure Fixture where
  name : String
  tagline : Option String := none
  themes : List String := []
  /-- The field values of modules, by key. -/
  modules : Dictionary FieldMap := .empty
  /-- The content of modules, by key. -/
  content : Dictionary String := .empty

namespace Fixture

/-- The fixture of a record. -/
def decode : Json.Decoder Fixture := fun v => do
  match ← v.members? ["name", "tagline", "themes", "modules", "content"] with
  | [name, tagline, themes, modules, content] =>
    return {
      name := ← name.required Json.decodeText
      tagline := ← tagline.withDefault none (Json.decodeOption Json.decodeText)
      themes := ← themes.withDefault [] (Json.decodeList Json.decodeText)
      modules := ← modules.withDefault .empty (Json.decodeMap (Json.decodeMap Json.decodeText))
      content := ← content.withDefault .empty (Json.decodeMap Json.decodeText) }
  | _ => none

/-- The world of a fixture, made at a time. -/
def world (f : Fixture) (now : Instant) : World :=
  { World.new (.mint 0) ⟨"preview"⟩ f.name now with tagline := f.tagline, themes := f.themes }

/-- The module of a definition, under the name of a number. Its status follows from its values,
unless there is content. -/
def moduleFor (f : Fixture) (now : Instant) (number : Nat) (d : ModuleDefinition) : WorldModule :=
  let fields := (f.modules.find? d.key).getD .empty
  let content := f.content.find? d.key
  { WorldModule.new (.mint number) (f.world now).id d.key now with
    fields := fields
    content := content
    status := if content.isSome then .completed else .derive d fields }

/-- The modules of a fixture, one for each that a registry defines. -/
def worldModules (f : Fixture) (now : Instant) (registry : Registry) : List WorldModule :=
  registry.modules.mapIdx (f.moduleFor now)

/-- The keys of the fixture that a registry does not define. -/
def strayKeys (f : Fixture) (registry : Registry) : List String :=
  (f.modules.keys ++ f.content.keys).filter fun key => (registry.find? key).isNone

end Fixture

end Lorebook
