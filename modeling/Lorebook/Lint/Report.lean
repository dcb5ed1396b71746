import Lorebook.Prompt.Catalog
import Lorebook.Prompt.Context

set_option autoImplicit false

/-! # Linting definitions and prompts

The lint looks at a registry and a prompt source together. Errors are what would keep a catalog from
working: an override for a module that is not defined, a template that does not compile, and an
expression whose first key the context of its stage does not have. Warnings are what authors may
want to know. -/

namespace Lorebook

/-- What is wrong with a prompt source. -/
inductive LintError where
  | unknownModule (module : String)
  | doesNotCompile (template : String) (cause : TemplateError)
  | unknownRoot (template path : String) (stage : PromptStage) (root : String)
deriving DecidableEq, Repr

/-- The text of an error. -/
def LintError.message : LintError → String
  | .unknownModule module => s!"Prompt override for unknown module '{module}'"
  | .doesNotCompile template cause => s!"Template '{template}' does not compile: {cause.message}"
  | .unknownRoot template path stage root =>
    s!"Template '{template}' reads '{path}', but the {stage.text} context has no '{root}'"

/-- What authors may want to know. -/
inductive LintWarning where
  | noRequiredField (module : String)
  | noFocus (module field : String)
  | noMaxLength (module field : String)
  | noExpressions (template : String)
deriving DecidableEq, Repr

/-- The text of a warning. -/
def LintWarning.message : LintWarning → String
  | .noRequiredField module =>
    s!"Module '{module}' has no required field; it can be published empty"
  | .noFocus module field => s!"Field '{module}.{field}' has no focus note for refinement"
  | .noMaxLength module field => s!"Field '{module}.{field}' has no max_length"
  | .noExpressions template => s!"Template '{template}' has no expressions"

/-- What a lint found. -/
structure LintReport where
  errors : List LintError
  warnings : List LintWarning
deriving DecidableEq, Repr

namespace LintReport

/-- Whether nothing was found. -/
def isClean (r : LintReport) : Bool :=
  r.errors.isEmpty && r.warnings.isEmpty

/-- The findings of two reports, one after the other. -/
def append (r s : LintReport) : LintReport :=
  ⟨r.errors ++ s.errors, r.warnings ++ s.warnings⟩

end LintReport

namespace Lint

/-! ## The keys of contexts -/

/-- The world of a sample context. -/
def sampleWorld : World :=
  World.new ⟨"sample"⟩ ⟨"linter"⟩ "Sample" default

/-- A module with every field of its definition filled in. -/
def sampleModule (d : ModuleDefinition) : WorldModule :=
  { WorldModule.new ⟨"sample"⟩ sampleWorld.id d.key default with
    fields := .ofList (d.fields.map fun f => (f.key, "sample")) }

/-- The context of a stage for a module with every field filled in. The refine stage needs a field
and falls back on the final one for a module without. -/
def sampleContext (registry : Registry) (stage : PromptStage) (d : ModuleDefinition) : Json :=
  let m := sampleModule d
  let input : ContextInput :=
    { world := sampleWorld, definition := d, module := m, others := [m] }
  match stage, d.fields.head? with
  | .draft, _ => Context.draft input registry
  | .final, _ => Context.final input registry
  | .refine, some field => Context.refine input field registry
  | .refine, none => Context.final input registry

/-- The first keys that expressions of a stage may read, taken from the context of the first module
of the registry. -/
def contextRoots (registry : Registry) (stage : PromptStage) : List String :=
  match registry.modules.head? with
  | none => []
  | some d => (((sampleContext registry stage d).entries?).getD []).map (·.1)

/-! ## Definitions -/

/-- What authors may want to know about a field. -/
def fieldWarnings (module : String) (f : FieldDefinition) : List LintWarning :=
  (if f.focus.isNone then [.noFocus module f.key] else []) ++
    if f.maxLength.isNone then [.noMaxLength module f.key] else []

/-- What authors may want to know about a module. -/
def moduleWarnings (d : ModuleDefinition) : List LintWarning :=
  (if d.requiredFields.isEmpty then [.noRequiredField d.key] else []) ++
    d.fields.flatMap (fieldWarnings d.key)

/-! ## Templates -/

/-- The error of an expression whose first key is not among those of its context. -/
def rootError? (template : String) (stage : PromptStage) (roots : List String)
    (e : Expression) : Option LintError :=
  match e.path.head? with
  | none => none
  | some step =>
    if step.name ∈ roots then none
    else some (.unknownRoot template e.dottedPath stage step.name)

/-- What is found in a template. -/
def lintTemplate (registry : Registry) (t : NamedTemplate) : LintReport :=
  match Template.compile .builtin t.source with
  | .error cause => ⟨[.doesNotCompile t.name cause], []⟩
  | .ok template =>
    let roots := contextRoots registry t.stage
    ⟨template.expressions.filterMap (rootError? t.name t.stage roots),
      if template.expressions.isEmpty then [.noExpressions t.name] else []⟩

/-- The modules with overrides that the registry does not define. -/
def moduleErrors (registry : Registry) (source : PromptSource) : List LintError :=
  (source.modules.keys.filter fun key => (registry.find? key).isNone).map .unknownModule

/-- What is found in a registry and a prompt source. -/
def report (registry : Registry) (source : PromptSource) : LintReport :=
  let found := source.templates.map (lintTemplate registry)
  ⟨moduleErrors registry source ++ found.flatMap (·.errors),
    registry.modules.flatMap moduleWarnings ++ found.flatMap (·.warnings)⟩

end Lint

end Lorebook
