import Lorebook.Engine.Basic
import Lorebook.Exchange.Ron
import Lorebook.Prompt.Packaged
import Lorebook.Registry.Packaged
import Lorebook.Settings

set_option autoImplicit false

/-! # Building an engine

A plan says what an engine is made of. What is given directly comes before what is in files, and
that before what is packaged with this library. The database is opened first, then the registry and
the prompts are read and checked against each other; the generator is asked for last. -/

namespace Lorebook

/-- A text in a file: what stands in it, or why it cannot be read. -/
abbrev FileText := Except String String

/-- Where the database of an engine comes from. -/
inductive DatabaseSource where
  /-- The database of the studio, under a name. -/
  | current (name : String)
  /-- A file at a path: what is stored there, or why it cannot be opened. -/
  | file (path : String) (stored : Except StoreError Database)

/-- What an engine is made of. -/
structure EnginePlan where
  database : Option DatabaseSource := none
  registry : Option Registry := none
  modulesFile : Option FileText := none
  promptsText : Option String := none
  promptsFile : Option FileText := none
  functions : FunctionSet := .builtin
  hasGenerator : Bool := false
  keyring : Keyring := {}
  /-- The bound on a generator call. -/
  timeout : Span := .ofSeconds 120

namespace Registry

/-- The registry of a schema file. -/
def ofFile : FileText → Except RegistryError Registry
  | .error detail => .error (.io detail)
  | .ok text => parse text

/-- The first registry there is: the one given, the one in a file, the packaged one. -/
def choose : Option Registry → Option FileText → Except RegistryError Registry
  | some r, _ => .ok r
  | none, some file => ofFile file
  | none, none => .ok packaged

end Registry

namespace Catalog

/-- The catalog of a prompt file. -/
def ofFile (functions : FunctionSet) : FileText → Except PromptError Catalog
  | .error detail => .error (.io detail)
  | .ok text => parse functions text

/-- The catalog that is packaged with this library. -/
def packaged (functions : FunctionSet) : Except PromptError Catalog :=
  compile functions PromptSource.packaged

/-- The first catalog there is: the one given as text, the one in a file, the packaged one. -/
def choose (functions : FunctionSet) : Option String → Option FileText →
    Except PromptError Catalog
  | some text, _ => parse functions text
  | none, some file => ofFile functions file
  | none, none => packaged functions

end Catalog

namespace Engine

open Studio Operation

/-- Open a stored database and bring it into use. -/
def openDatabase (path : String) (stored : Except StoreError Database) : Operation Unit := do
  let db ← ofExcept .ofStore stored
  modify fun s => { s with db := db }
  store Database.prepare
  tell ⟨.info, .database, "database opened", [("path", .str path)]⟩

/-- Open the database of a plan; gives its name. -/
def openPlanned : Option DatabaseSource → Operation String
  | none => throw (.startup .noDatabase)
  | some (.current name) => return name
  | some (.file path stored) => do
    openDatabase path stored
    return path

/-- The engine of a plan. -/
def build (plan : EnginePlan) : Operation Engine := do
  let name ← openPlanned plan.database
  let registry ← ofExcept .ofRegistry (Registry.choose plan.registry plan.modulesFile)
  let catalog ← ofExcept .ofPrompts
    (Catalog.choose plan.functions plan.promptsText plan.promptsFile)
  ofExcept .ofPrompts (catalog.checkModules registry)
  unless plan.hasGenerator do
    throw (.startup .noGenerator)
  tell ⟨.info, .engine, "world engine ready", [("modules", .nat registry.size), ("db", .str name),
    ("timeout_secs", .nat plan.timeout.seconds)]⟩
  return {
    registry := registry
    catalog := catalog
    functions := plan.functions
    keyring := plan.keyring
    timeout := plan.timeout
    databaseName := name }

end Engine

end Lorebook
