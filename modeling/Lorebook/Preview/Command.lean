import Lorebook.Json.Printer
import Lorebook.Lint.Command
import Lorebook.Preview.Fixture

set_option autoImplicit false

/-! # The preview command

The command renders the prompt of a module of a fixture, without asking any generator. -/

namespace Lorebook

/-- What a preview is asked for. -/
structure PreviewRequest where
  module : String
  stage : PromptStage := .final
  /-- The field to refine. -/
  field : Option String := none
  /-- The text to refine, in place of the field's value. -/
  text : Option String := none
  instruction : Option String := none
  /-- Whether the context is printed before the prompt. -/
  showContext : Bool := false
deriving DecidableEq, Repr

/-- A call of the preview command: what it is asked for, and its files. -/
structure PreviewCall where
  request : PreviewRequest
  fixturePath : String
  modulesPath : Option String := none
  promptsPath : Option String := none
deriving DecidableEq, Repr

namespace Preview

open CommandStep

/-! ## Calls -/

/-- The options of the command. -/
def options : OptionTable where
  valued :=
    ["--module", "--field", "--text", "--instruction"].map (·, OptionTable.anyText) ++
    ["--prompts", "--modules"].map (·, OptionTable.isPath) ++
    [("--stage", fun word => (PromptStage.ofText? word).isSome)]
  flags := ["--context"]
  operands := [OptionTable.isPath]

/-- How the command is used. -/
def usage : List String := [
  "Renders draft, final and refine prompts from a world fixture",
  "",
  "Usage: prompt_preview [OPTIONS] --module <MODULE> <FIXTURE>",
  "",
  "Arguments:",
  "  <FIXTURE>  World fixture (JSON)",
  "",
  "Options:",
  "      --module <MODULE>            Module to render the prompt for",
  "      --stage <STAGE>              [default: final]",
  "      --field <FIELD>              Field to refine (refine stage only)",
  "      --text <TEXT>                Text to refine. Defaults to the field's value in the fixture",
  "      --instruction <INSTRUCTION>  ",
  "      --prompts <PROMPTS>          Prompt catalog (RON). Defaults to the packaged catalog",
  "      --modules <MODULES>          Module schema (RON). Defaults to the packaged schema",
  "      --context                    Print the template context as JSON before the prompt",
  "  -h, --help                       Print help"]

/-- The call that words stand for. -/
def parseCall (words : List String) : Except CallRefusal PreviewCall := do
  let w ← options.read words
  let [fixture] := w.operands | throw .misuse
  return {
    request := {
      module := ← CallRefusal.unless (w.value? "--module")
      stage := ((w.value? "--stage").bind PromptStage.ofText?).getD .final
      field := w.value? "--field"
      text := w.value? "--text"
      instruction := w.value? "--instruction"
      showContext := w.hasFlag "--context" }
    fixturePath := fixture
    modulesPath := w.value? "--modules"
    promptsPath := w.value? "--prompts" }

/-! ## Prompts -/

/-- The fixture of a file. -/
def loadFixture (file : NamedFile) : CommandStep Fixture := do
  let text ← ofExcept (fun detail => s!"Failed to read {file.path}: {detail}") file.text
  match (Json.parseRecord? text).bind Fixture.decode with
  | some fixture => return fixture
  | none => fail "Invalid fixture: not a fixture"

/-- The context of the refine stage, for the field and the text asked for. -/
def refineContext (registry : Registry) (request : PreviewRequest) (input : ContextInput) :
    CommandStep Json := do
  match request.field with
  | none => fail "--field is required for the refine stage"
  | some key =>
    let field ← ofExcept RegistryError.message (registry.requireField input.definition.key key)
    match request.text.or (input.module.field? key) with
    | none => fail "--text is required when the fixture has no value"
    | some text =>
      return Context.refine { input with
        focusNote := field.focus, priorText := some text, instruction := request.instruction }
        field registry

/-- The context of the stage asked for. -/
def contextFor (registry : Registry) (request : PreviewRequest) (input : ContextInput) :
    CommandStep Json :=
  match request.stage with
  | .draft => return Context.draft input registry
  | .final => return Context.final input registry
  | .refine => refineContext registry request input

/-- What the command prints for a request and its files; the fixture's world is made at a time,
which no context shows. -/
def command (now : Instant) (request : PreviewRequest) (fixture : NamedFile)
    (modules prompts : Option NamedFile) : Transcript :=
  transcript do
    let registry ← Lint.loadRegistry modules
    let catalog ← ofExcept (fun e => s!"Failed to load prompts: {e.message}")
      (Catalog.choose .builtin none (prompts.map (·.text)))
    let fixture ← loadFixture fixture
    (fixture.strayKeys registry).forM fun key =>
      warn s!"WARNING: fixture module '{key}' is not in the schema"
    let definition ← ofExcept RegistryError.message (registry.require request.module)
    let siblings := fixture.worldModules now registry
    let target := (siblings.find? (·.key == definition.key)).getD
      (fixture.moduleFor now 0 definition)
    let context ← contextFor registry request
      { world := fixture.world now, definition := definition, module := target, others := siblings }
    if request.showContext then print (context.pretty ++ "\n")
    let prompt ← ofExcept (fun e => s!"Render failed: {e.message}")
      ((catalog.template request.stage definition.key).render .builtin context)
    let origin :=
      if (catalog.override? request.stage definition.key).isSome then "module override"
      else "default"
    print s!"--- {definition.key} / {request.stage.text} ({origin}) ---"
    print prompt
    print s!"--- {prompt.length} characters ---"

end Preview

end Lorebook
