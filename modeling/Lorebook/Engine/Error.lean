import Lorebook.Generation.Credentials
import Lorebook.Generation.Error
import Lorebook.Prompt.Catalog
import Lorebook.Store.Error

set_option autoImplicit false

/-! # Errors of the engine

What an operation of the engine fails with, told apart by who can do something about it: the caller,
the holder of the keys, the generator, the author of the templates, or the keeper of the store. -/

namespace Lorebook

/-- Why the input of a caller is not acceptable. -/
inductive InputFault where
  | blankWorldName
  | unknownField (module field : String)
  /-- Required fields stand in the way of publication. -/
  | violations (fields : List (String × String × FieldViolation))
  | blankText
  /-- The age of leases is more than a span of time can be. -/
  | leaseTimeoutOutOfRange
  | described (detail : String)
deriving DecidableEq, Repr

/-- The words for a violation of a field. -/
def violationText (v : String × String × FieldViolation) : String :=
  s!"{v.1}.{v.2.1} {v.2.2.message}"

/-- The text of a fault. -/
def InputFault.message : InputFault → String
  | .blankWorldName => "world name must not be blank"
  | .unknownField module field => s!"module {module} has no field {field}"
  | .violations fields => String.intercalate "; " (fields.map violationText)
  | .blankText => "text to refine must not be blank"
  | .leaseTimeoutOutOfRange =>
    "lease timeout out of range: Source duration value is out of range for the target type"
  | .described detail => detail

/-- What an owner may not do. -/
inductive Trespass where
  | notOwner (world : WorldId) (owner : OwnerId)
  | described (detail : String)
deriving DecidableEq, Repr

/-- The words for a trespass. -/
def Trespass.message : Trespass → String
  | .notOwner world owner => s!"world {world.text} is not owned by {owner.text}"
  | .described detail => detail

/-- Why there is no engine. -/
inductive StartupFault where
  | noDatabase
  | noGenerator
  | registry (cause : RegistryError)
  | prompts (cause : PromptError)
  | described (detail : String)
deriving DecidableEq, Repr

/-- The text of a fault. -/
def StartupFault.message : StartupFault → String
  | .noDatabase => "no database configured"
  | .noGenerator => "no generator configured"
  | .registry cause => cause.message
  | .prompts cause => cause.message
  | .described detail => detail

/-- What an operation of the engine fails with. -/
inductive EngineError where
  /-- The input is not acceptable; nothing was changed. -/
  | validation (fault : InputFault)
  | notFound (what : Absence)
  | forbidden (what : Trespass)
  /-- There is no key for a call; no call was made. -/
  | preconditionFailed (cause : CredentialsError)
  | conflict (what : Clash)
  | generation (cause : GenerationError)
  /-- A template is broken, which a caller cannot mend. -/
  | template (cause : TemplateError)
  | store (cause : StoreError)
  | startup (fault : StartupFault)
  /-- An instant that is asked for lies outside the calendar. The operation breaks off. -/
  | calendarExceeded
  /-- A pause that is asked for is more milliseconds than fit 64 bits. The operation breaks off. -/
  | delayExceeded
deriving DecidableEq, Repr

namespace EngineError

/-- The word for a kind of error. -/
def kind : EngineError → String
  | .validation _ => "validation"
  | .notFound _ => "not_found"
  | .forbidden _ => "forbidden"
  | .preconditionFailed _ => "precondition_failed"
  | .conflict _ => "conflict"
  | .generation _ => "generation"
  | .template _ => "template"
  | .store _ => "store"
  | .startup _ => "startup"
  | .calendarExceeded => "calendar"
  | .delayExceeded => "delay"

/-- The text of an error. -/
def message : EngineError → String
  | .validation fault => s!"validation failed: {fault.message}"
  | .notFound what => s!"not found: {what.text}"
  | .forbidden what => s!"forbidden: {what.message}"
  | .preconditionFailed cause => s!"precondition failed: {cause.message}"
  | .conflict what => s!"conflict: {what.text}"
  | .generation cause => s!"generation failed: {cause.message}"
  | .template cause => s!"template error: {cause.message}"
  | .store cause => s!"store error: {cause.message}"
  | .startup fault => s!"startup error: {fault.message}"
  | .calendarExceeded => "the calendar does not reach the instant asked for"
  | .delayExceeded => "the pause asked for does not fit 64 bits"

/-- What an error of the store is to a caller. -/
def ofStore : StoreError → EngineError
  | .notFound what => .notFound what
  | .conflict what => .conflict what
  | e => .store e

/-- What an error of the registry is to a caller. -/
def ofRegistry : RegistryError → EngineError
  | .unknownModule key => .notFound (.moduleKey key)
  | .unknownField module field => .notFound (.fieldKey module field)
  | e => .startup (.registry e)

/-- What an error of the catalog is to a caller. -/
def ofPrompts (e : PromptError) : EngineError :=
  .startup (.prompts e)

/-- Whether the error says that what a result was for is gone: the lease, the job, the module or
the world. -/
def isLoss : EngineError → Bool
  | .notFound _ => true
  | .conflict _ => true
  | _ => false

end EngineError

end Lorebook
