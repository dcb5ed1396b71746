import Lorebook.Engine.Basic
import Lorebook.Json.Reader
import Lorebook.Text.Affix

set_option autoImplicit false

/-! # Drafting and refining

Owners can have a generator propose the fields of a module, or refine the text of one field. Both
happen while the owner waits, outside the queue. A proposal is merged into the fields as they are
when it arrives; a refined text is only returned. -/

namespace Lorebook.Engine

open Studio Operation

/-! ## Replies with fields -/

/-- The fence of a block of code. -/
def fence : List Char := ['`', '`', '`']

/-- The text of a reply without the fences of a block of code around it. The rest of the line of
the opening fence goes with it; the closing fence may be missing. -/
def unfenced (reply : String) : List Char :=
  let text := Text.trimChars reply.toList
  match Text.afterStart? fence text with
  | none => text
  | some rest =>
    let body := (rest.dropWhile (· ≠ '\n')).drop 1
    Text.trimChars ((Text.beforeEnd? fence (Text.trimEndChars body)).getD body)

/-- Whether an item of a list counts as a line of its field. -/
def isLine : Json → Bool
  | .str _ => true
  | .num _ => true
  | _ => false

/-- The text that a value proposes for a field. -/
def proposedText? : Json → Option String
  | .null => none
  | .obj _ => none
  | .arr items =>
    let lines := (items.filter isLine).map fun v => displayText (some v)
    Text.trimmed? (String.intercalate "\n" lines)
  | v => Text.trimmed? (displayText (some v))

/-- The field values that an object proposes: those of fields that the module has, with text. -/
def proposedFields (definition : ModuleDefinition) (entries : List (String × Json)) :
    List (String × String) :=
  (entries.filter fun e => (definition.field? e.1).isSome).filterMap fun e =>
    (proposedText? e.2).map (e.1, ·)

/-- The field values that a reply proposes. -/
def parseProposal (definition : ModuleDefinition) (reply : String) :
    Except GenerationError (List (String × String)) :=
  match Json.parse? (String.ofList (unfenced reply)) with
  | none => .error (.malformedResponse "draft reply is not JSON: not a JSON text")
  | some (.obj entries) => .ok (proposedFields definition entries)
  | some _ => .error (.malformedResponse "draft reply is not a JSON object")

/-! ## Transactions -/

/-- Refuse while a module has a job that is waiting or running. -/
def ensureNotQueued (world : WorldId) (module : String) : Operation Unit := do
  match ← store (Jobs.find? world module) with
  | some job =>
    if job.status.isTerminal then return ()
    else throw (.conflict (.moduleQueued module job.status.text))
  | none => return ()

/-- What the generator is to be asked for the fields of a module, for what was loaded of its
world. -/
def draftRequestIn (e : Engine) (id : WorldId) (definition : ModuleDefinition)
    (scope : World × WorldModule × List WorldModule) : Operation GenerationRequest := do
  let (world, m, siblings) := scope
  atomically (ensureNotQueued id definition.key)
  let credentials ← e.credentialsFor world
  let input : ContextInput :=
    { world := world, definition := definition, module := m, others := siblings }
  let prompt ← e.renderPrompt .draft definition.key (Context.draft input e.registry)
  return { prompt := prompt, credentials := credentials, json := true }

/-- What the generator is to be asked for the fields of a module. -/
def draftRequest (e : Engine) (id : WorldId) (definition : ModuleDefinition) (owner : OwnerId) :
    Operation GenerationRequest := do
  e.draftRequestIn id definition (← loadScope id owner definition)

/-- A module with proposed field values, fingerprinted and ready. -/
def drafted (proposed : List (String × String)) (m : WorldModule) : WorldModule :=
  let fields := m.fields.insertAll proposed
  { m with fields := fields, status := .ready, hash := some (contentHash fields) }

/-- Merge proposed field values into a module. -/
def mergeDraft (id : WorldId) (definition : ModuleDefinition) (owner : OwnerId)
    (proposed : List (String × String)) : Operation WorldModule :=
  atomically do
    ensureNotQueued id definition.key
    let m ← moduleOrNew id definition
    let m := (drafted proposed m).touch (some owner) (← readClock)
    store (Modules.save m)
    tell ⟨.info, .drafting, "module drafted", []⟩
    return m

/-- What the generator is to be asked for the text of a field. -/
def refineRequest (e : Engine) (id : WorldId) (definition : ModuleDefinition)
    (field : FieldDefinition) (owner : OwnerId) (text : String) (instruction : Option String) :
    Operation GenerationRequest := do
  let (world, m, siblings) ← loadScope id owner definition
  let credentials ← e.credentialsFor world
  let input : ContextInput :=
    { world := world, definition := definition, module := m, others := siblings,
      focusNote := field.focus, priorText := some text, instruction := instruction }
  let prompt ← e.renderPrompt .refine definition.key (Context.refine input field e.registry)
  return { prompt := prompt, credentials := credentials }

/-! ## The two services -/

variable {m : Type → Type} [Monad m] [MonadStateOf Studio m]

/-- Accept the reply to a draft request. -/
def acceptDraft (id : WorldId) (definition : ModuleDefinition) (owner : OwnerId)
    (reply : GenerationReply) : Operation WorldModule := do
  let reply ← ofExcept .generation reply
  let proposed ← ofExcept .generation (parseProposal definition reply)
  tell ⟨.debug, .drafting, "draft reply parsed", [("fields", .nat proposed.length)]⟩
  mergeDraft id definition owner proposed

/-- Have a generator propose the fields of a module and merge them. -/
def generateModule (e : Engine) (generator : Generator m) (id : WorldId) (module : String)
    (owner : OwnerId) : m (Except EngineError WorldModule) := do
  match e.registry.require module with
  | .error err => return .error (.ofRegistry err)
  | .ok definition =>
    match ← perform (e.draftRequest id definition owner) with
    | .error err => return .error err
    | .ok request =>
      let reply ← generator.call e.timeout request
      perform (acceptDraft id definition owner reply)

/-- The refined text that a reply gives. -/
def refinedText (reply : GenerationReply) : Except EngineError String :=
  match reply with
  | .error err => .error (.generation err)
  | .ok text =>
    match Text.trimmed? text with
    | some refined => .ok refined
    | none => .error (.generation .emptyResponse)

/-- Have a generator refine a text for a field. The result is returned, not stored. -/
def refineField (e : Engine) (generator : Generator m) (id : WorldId) (module field : String)
    (owner : OwnerId) (text : String) (instruction : Option String) :
    m (Except EngineError String) := do
  if Text.isBlank text then return .error (.validation .blankText)
  else
    match e.registry.require module, e.registry.requireField module field with
    | .error err, _ => return .error (.ofRegistry err)
    | _, .error err => return .error (.ofRegistry err)
    | .ok definition, .ok field =>
      match ← perform (e.refineRequest id definition field owner text instruction) with
      | .error err => return .error err
      | .ok request => return refinedText (← generator.call e.timeout request)

end Lorebook.Engine
