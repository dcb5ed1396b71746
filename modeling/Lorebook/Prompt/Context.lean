import Lorebook.Json.Basic
import Lorebook.Module.Basic
import Lorebook.Prompt.Stage
import Lorebook.Registry
import Lorebook.World

set_option autoImplicit false

/-! # Contexts of prompts

The context of a prompt is a JSON object built from values already loaded: the world, the target
module with its fields, and the other modules of the world. The stages add what they need: the draft
stage the fields still missing, the refine stage the field to refine. Templates read it by paths
such as `module.fields[*].line` and `others[*].brief`. -/

namespace Lorebook

/-- What every context is built from. -/
structure ContextInput where
  world : World
  definition : ModuleDefinition
  module : WorldModule
  /-- The modules of the world; the target may be among them and is passed over. -/
  others : List WorldModule
  focusNote : Option String := none
  priorText : Option String := none
  instruction : Option String := none

namespace Context

/-! ## Fields -/

/-- How long a field should be, in words. -/
def lengthHint (f : FieldDefinition) : Option String :=
  match f.minLength, f.maxLength with
  | some min, some max => some s!"{min}-{max} characters"
  | some min, none => some s!"at least {min} characters"
  | none, some max => some s!"at most {max} characters"
  | none, none => none

/-- A line that tells what a field should hold. -/
def fieldSpec (f : FieldDefinition) : String :=
  s!"- {f.key} ({f.label}" ++ (if f.required then ", required" else "") ++
    (match lengthHint f with | some hint => ", " ++ hint | none => "") ++ ")" ++
    (match f.focus with | some focus => ": " ++ focus | none => "")

/-- The trimmed value of a field that is filled in. -/
def filledValue? (f : FieldDefinition) (m : WorldModule) : Option String :=
  (m.field? f.key).bind Text.trimmed?

/-- The line of a field that is filled in: its label and value. -/
def fieldLine? (f : FieldDefinition) (m : WorldModule) : Option String :=
  (filledValue? f m).map fun v => f.label ++ ": " ++ v

/-- A field of the target module. The line exists only for a field that is filled in, so that
projections of it pass over the others. -/
def fieldValue (m : WorldModule) (f : FieldDefinition) : Json :=
  Json.object <| [
    ("key", .str f.key),
    ("label", .str f.label),
    ("required", .bool f.required),
    ("minLength", .optionNat f.minLength),
    ("maxLength", .optionNat f.maxLength),
    ("value", .optionStr (filledValue? f m)),
    ("spec", .str (fieldSpec f))] ++
    match fieldLine? f m with
    | some line => [("line", .str line)]
    | none => []

/-! ## Worlds and modules -/

/-- The world of the target module. -/
def worldValue (w : World) : Json :=
  Json.object [
    ("id", .str w.id.text),
    ("name", .str w.name),
    ("tagline", .optionStr w.tagline),
    ("themes", .strings w.themes),
    ("status", .str w.status.text),
    ("version", .int w.version)]

/-- The target module. -/
def moduleValue (d : ModuleDefinition) (m : WorldModule) : Json :=
  Json.object [
    ("key", .str d.key),
    ("label", .str d.label),
    ("description", .optionStr d.description),
    ("status", .str m.status.text),
    ("fields", .arr (d.fields.map (fieldValue m))),
    ("values", .obj (m.fields.entries.map fun e => (e.1, .str e.2))),
    ("content", .optionStr m.content)]

/-- Another module of the world, unless it has neither content nor a field filled in. -/
def siblingValue? (d : ModuleDefinition) (m : WorldModule) : Option Json :=
  let lines := d.fields.filterMap fun f => fieldLine? f m
  let content := m.content.bind Text.trimmed?
  if lines.isEmpty && content.isNone then none
  else
    let body := content.getD (String.intercalate "\n" lines)
    some <| Json.object [
      ("key", .str d.key),
      ("label", .str d.label),
      ("status", .str m.status.text),
      ("lines", .strings lines),
      ("content", .optionStr content),
      ("brief", .str ("## " ++ d.label ++ "\n" ++ body))]

/-- The other modules of the world, in the order of the registry. -/
def othersValues (input : ContextInput) (registry : Registry) : List Json :=
  (registry.modules.filter fun d => d.key != input.module.key).filterMap fun d =>
    (input.others.find? fun m => m.key == d.key).bind (siblingValue? d)

/-! ## The three stages -/

/-- A text that is worth showing, trimmed, or null. -/
def optionalText (text : Option String) : Json :=
  .optionStr (text.bind Text.trimmed?)

/-- The members that the contexts of all stages have. -/
def commonEntries (input : ContextInput) (registry : Registry) : List (String × Json) := [
  ("world", worldValue input.world),
  ("module", moduleValue input.definition input.module),
  ("others", .arr (othersValues input registry)),
  ("focusNote", optionalText input.focusNote),
  ("priorText", optionalText input.priorText),
  ("instruction", optionalText input.instruction)]

/-- A field that a draft should fill in. -/
def missingValue (f : FieldDefinition) : Json :=
  Json.object [("key", .str f.key), ("label", .str f.label), ("spec", .str (fieldSpec f))]

/-- The fields of the target module that are not filled in. -/
def missingFields (input : ContextInput) : List FieldDefinition :=
  input.definition.fields.filter fun f => (filledValue? f input.module).isNone

/-- The context of the draft stage. -/
def draft (input : ContextInput) (registry : Registry) : Json :=
  Json.object <| commonEntries input registry ++ [
    ("missing", .arr ((missingFields input).map missingValue)),
    ("stage", .str PromptStage.draft.text)]

/-- The context of the final stage. -/
def final (input : ContextInput) (registry : Registry) : Json :=
  Json.object <| commonEntries input registry ++ [("stage", .str PromptStage.final.text)]

/-- The field to refine. -/
def refinedFieldValue (f : FieldDefinition) : Json :=
  Json.object [
    ("key", .str f.key),
    ("label", .str f.label),
    ("required", .bool f.required),
    ("minLength", .optionNat f.minLength),
    ("maxLength", .optionNat f.maxLength),
    ("focus", .optionStr f.focus),
    ("lengthHint", .optionStr (lengthHint f))]

/-- The context of the refine stage for a field. -/
def refine (input : ContextInput) (field : FieldDefinition) (registry : Registry) : Json :=
  Json.object <| commonEntries input registry ++ [
    ("field", refinedFieldValue field),
    ("stage", .str PromptStage.refine.text)]

end Context

end Lorebook
