import Lorebook.Exchange.Json
import Lorebook.Ron.Reader

set_option autoImplicit false

/-! # Definition and prompt files

Module schemas and prompt catalogs are files in RON. A schema is the list of its definitions. -/

namespace Lorebook

open Ron (Shape)

/-- The form of a field definition in a schema file. -/
def FieldDefinition.shape : Shape :=
  .record "FieldDefinition" [
    ("key", .text), ("label", .text), ("required", .bool), ("min_length", .option (.nat 64)),
    ("max_length", .option (.nat 64)), ("focus", .option .text)]

/-- The form of a module definition in a schema file. -/
def ModuleDefinition.shape : Shape :=
  .record "ModuleDefinition" [
    ("key", .text), ("label", .text), ("order", .nat 32), ("description", .option .text),
    ("fields", .list FieldDefinition.shape)]

/-- The form of a prompt file. -/
def PromptSource.shape : Shape :=
  .record "PromptSource" [
    ("draft", .text), ("final", .text), ("refine", .text),
    ("modules", .map (.record "StageOverrides" [
      ("draft", .option .text), ("final", .option .text), ("refine", .option .text)]))]

/-- The registry of a schema file's text. -/
def Registry.parse (text : String) : Except RegistryError Registry :=
  match (Ron.parse? (.list ModuleDefinition.shape) text).bind
      (Json.decodeList ModuleDefinition.decode) with
  | some definitions => Registry.ofDefinitions definitions
  | none => .error (.malformed "not a list of module definitions")

/-- The source of a prompt file's text. -/
def PromptSource.parse? (text : String) : Option PromptSource :=
  (Ron.parse? PromptSource.shape text).bind PromptSource.decode

/-- The catalog of a prompt file's text. -/
def Catalog.parse (functions : FunctionSet) (text : String) : Except PromptError Catalog :=
  match PromptSource.parse? text with
  | some source => Catalog.compile functions source
  | none => .error (.malformed "not a prompt catalog")

end Lorebook
