import Lorebook.Prompt.Stage
import Lorebook.Registry
import Lorebook.Template.Render

set_option autoImplicit false

/-! # The prompt catalog

Every stage of generation has a default template, and modules may override it. A catalog is compiled
as a whole: a template that does not parse or calls an unknown function rejects all of it. -/

namespace Lorebook

/-- The templates that a module has of its own, as text. -/
structure StageOverrides where
  draft : Option String := none
  final : Option String := none
  refine : Option String := none
deriving DecidableEq, Repr

/-- The template for a stage, if the module has its own. -/
def StageOverrides.get? (o : StageOverrides) : PromptStage → Option String
  | .draft => o.draft
  | .final => o.final
  | .refine => o.refine

/-- The text of a catalog: a template for each stage and the modules that override some. -/
structure PromptSource where
  draft : String
  final : String
  refine : String
  modules : Dictionary StageOverrides := Dictionary.empty

/-- The default template for a stage. -/
def PromptSource.default (s : PromptSource) : PromptStage → String
  | .draft => s.draft
  | .final => s.final
  | .refine => s.refine

/-- A template with its place in the catalog. -/
structure NamedTemplate where
  /-- The module whose override it is, if it is one. -/
  module : Option String
  stage : PromptStage
  source : String
deriving DecidableEq, Repr

/-- The name of a template in reports. -/
def NamedTemplate.name (t : NamedTemplate) : String :=
  match t.module with
  | none => t.stage.text
  | some m => m ++ "." ++ t.stage.text

/-- The overrides of one module, in the order of stages. -/
def StageOverrides.templates (module : String) (o : StageOverrides) : List NamedTemplate :=
  PromptStage.all.filterMap fun stage => (o.get? stage).map fun text => ⟨some module, stage, text⟩

/-- The overrides of a source, in the order of modules and then of stages. -/
def PromptSource.overrides (s : PromptSource) : List NamedTemplate :=
  s.modules.entries.flatMap fun e => e.2.templates e.1

/-- The templates of a source: the defaults, then the overrides. -/
def PromptSource.templates (s : PromptSource) : List NamedTemplate :=
  PromptStage.all.map (fun stage => ⟨none, stage, s.default stage⟩) ++ s.overrides

/-- Why there is no catalog. -/
inductive PromptError where
  /-- The file cannot be read. -/
  | io (detail : String)
  /-- The text is not the source of a catalog. -/
  | malformed (detail : String)
  | compile (name : String) (cause : TemplateError)
  | unknownModule (module : String)
deriving DecidableEq, Repr

/-- The word for a kind of error. -/
def PromptError.kind : PromptError → String
  | .io _ => "Io"
  | .malformed _ => "Ron"
  | .compile .. => "Compile"
  | .unknownModule _ => "UnknownModule"

/-- The text of a catalog error. -/
def PromptError.message : PromptError → String
  | .io detail => s!"IO error: {detail}"
  | .malformed detail => s!"RON deserialization error: {detail}"
  | .compile name cause => s!"template '{name}' failed to compile: {cause.message}"
  | .unknownModule module => s!"prompt override for unknown module '{module}'"

/-- The compiled templates: one for each stage, and the overrides of modules. -/
structure Catalog where
  draft : Template
  final : Template
  refine : Template
  overrides : List ((String × PromptStage) × Template)

namespace Catalog

/-- Compile one template of a source. -/
def compileNamed (functions : FunctionSet) (t : NamedTemplate) : Except PromptError Template :=
  (Template.compile functions t.source).mapError (.compile t.name)

/-- The catalog of a source; the first template that does not compile rejects it. -/
def compile (functions : FunctionSet) (s : PromptSource) : Except PromptError Catalog := do
  let draft ← compileNamed functions ⟨none, .draft, s.draft⟩
  let final ← compileNamed functions ⟨none, .final, s.final⟩
  let refine ← compileNamed functions ⟨none, .refine, s.refine⟩
  let overrides ← s.overrides.mapM fun t => do
    return ((t.module.getD "", t.stage), ← compileNamed functions t)
  return ⟨draft, final, refine, overrides⟩

/-- The template of a stage that modules share. -/
def default (c : Catalog) : PromptStage → Template
  | .draft => c.draft
  | .final => c.final
  | .refine => c.refine

/-- The override of a module for a stage. -/
def override? (c : Catalog) (stage : PromptStage) (module : String) : Option Template :=
  c.overrides.lookup (module, stage)

/-- The template for a stage of a module, its override before the default. -/
def template (c : Catalog) (stage : PromptStage) (module : String) : Template :=
  (c.override? stage module).getD (c.default stage)

/-- The names of the overrides for modules of a registry, in its order. -/
def overrideNames (c : Catalog) (registry : Registry) : List String :=
  registry.modules.flatMap fun d =>
    (PromptStage.all.filter fun stage => (c.override? stage d.key).isSome).map fun stage =>
      d.key ++ "." ++ stage.text

/-- Refuse a catalog that overrides templates of modules which the registry does not define. -/
def checkModules (c : Catalog) (registry : Registry) : Except PromptError Unit :=
  match c.overrides.find? fun o => (registry.find? o.1.1).isNone with
  | some o => .error (.unknownModule o.1.1)
  | none => .ok ()

end Catalog

end Lorebook
