import Lorebook.Lint.Report
import Lorebook.Proofs.ContextKeys
import Lorebook.Proofs.TemplateGrammar
import Lorebook.Proofs.TemplateSafety

set_option autoImplicit false

/-! # What a lint says of a catalog

The lint takes the first keys of the contexts of a stage from one sample, and it goes through the
templates of a source on its own. A source without errors makes a catalog that works for the
registry: it compiles, overrides modules of the registry alone, and its expressions read first keys
that their contexts have (`Lint.clean_works`).

The other way round the sample falls short. Without a field the first module shows no context of the
refine stage, and the lint takes the keys of another stage: it then holds the key of the field to
refine for missing, which every context of that stage has. This is the one way in which it errs
(`Lint.rootErrors`). -/

namespace Lorebook

/-! ## The sample -/

/-- A registry in order is the one of its own definitions. -/
theorem Registry.ofDefinitions_modules {r : Registry}
    (h : r.modules.Pairwise fun a b => a.order ≤ b.order) : ofDefinitions r.modules = .ok r := by
  have hsorted : sortByOrder r.modules = r.modules :=
    List.mergeSort_of_pairwise (h.imp fun hab => by simpa using hab)
  obtain ⟨modules, hne, hsound⟩ := r
  unfold ofDefinitions
  rw [dif_neg hne]
  split
  · rename_i e he
    rw [hsorted, hsound] at he
    cases he
  · congr

namespace Lint

/-- The first module shows the keys of a stage: for the refine stage it has to have a field. -/
def Sampled (registry : Registry) : PromptStage → Prop
  | .refine => ∀ d ∈ registry.modules.head?, d.fields ≠ []
  | _ => True

theorem contextRoots_eq {registry : Registry} {stage : PromptStage} (h : Sampled registry stage) :
    contextRoots registry stage = Context.stageKeys stage := by
  obtain ⟨d, rest, hmodules⟩ := List.exists_cons_of_ne_nil registry.ne_nil
  have hfirst : registry.modules.head? = some d := by rw [hmodules, List.head?_cons]
  unfold contextRoots
  rw [hfirst]
  change (sampleContext registry stage d).keys = _
  cases stage with
  | draft => exact Context.keys_draft _ registry
  | final => exact Context.keys_final _ registry
  | refine =>
    obtain ⟨f, fields, hfields⟩ := List.exists_cons_of_ne_nil (h d hfirst)
    have hfield : d.fields.head? = some f := by rw [hfields, List.head?_cons]
    simp only [sampleContext, hfield]
    exact Context.keys_refine _ f registry

/-- Where the first module shows no context of a stage, that of the final stage stands in. -/
theorem contextRoots_of_not_sampled {registry : Registry} {stage : PromptStage}
    (h : ¬ Sampled registry stage) :
    stage = .refine ∧ contextRoots registry stage = Context.stageKeys .final := by
  cases stage with
  | draft => exact absurd trivial h
  | final => exact absurd trivial h
  | refine =>
    simp only [Sampled, not_forall, not_not] at h
    obtain ⟨d, hfirst, hfields⟩ := h
    refine ⟨rfl, ?_⟩
    unfold contextRoots
    rw [hfirst]
    change (sampleContext registry .refine d).keys = _
    simp only [sampleContext, hfields, List.head?_nil]
    exact Context.keys_final _ registry

/-- Every root is a key of the contexts of its stage. -/
theorem contextRoots_subset (registry : Registry) (stage : PromptStage) :
    contextRoots registry stage ⊆ Context.stageKeys stage := by
  by_cases h : Sampled registry stage
  · rw [contextRoots_eq h]
    exact List.Subset.refl _
  · obtain ⟨rfl, hroots⟩ := contextRoots_of_not_sampled h
    rw [hroots]
    decide

/-! ## The errors of a report -/

/-- An expression of a template of a source, which compiles, reads a first key. -/
structure Reads (source : PromptSource) (t : NamedTemplate) (e : Expression) (root : String) :
    Prop where
  mem : t ∈ source.templates
  compiles : ∃ template, Template.compile .builtin t.source = .ok template ∧
    e ∈ template.expressions
  first : ∃ step, e.path.head? = some step ∧ step.name = root

theorem rootError?_eq_some {name : String} {stage : PromptStage} {roots : List String}
    {e : Expression} {error : LintError} : rootError? name stage roots e = some error ↔
      ∃ step, e.path.head? = some step ∧ step.name ∉ roots ∧
        error = .unknownRoot name e.dottedPath stage step.name := by
  unfold rootError?
  cases e.path.head? with
  | none => simp
  | some step => by_cases h : step.name ∈ roots <;> simp [h, eq_comm]

theorem mem_errors_lintTemplate {registry : Registry} {t : NamedTemplate} {error : LintError} :
    error ∈ (lintTemplate registry t).errors ↔
      (∃ cause, Template.compile .builtin t.source = .error cause ∧
        error = .doesNotCompile t.name cause) ∨
      ∃ template, Template.compile .builtin t.source = .ok template ∧ ∃ e ∈ template.expressions,
        rootError? t.name t.stage (contextRoots registry t.stage) e = some error := by
  unfold lintTemplate
  cases Template.compile .builtin t.source <;> simp

theorem mem_errors_report {registry : Registry} {source : PromptSource} {error : LintError} :
    error ∈ (report registry source).errors ↔
      (∃ module ∈ source.modules.keys, registry.find? module = none ∧
        error = .unknownModule module) ∨
      ∃ t ∈ source.templates, error ∈ (lintTemplate registry t).errors := by
  simp only [report, moduleErrors, List.mem_append, List.mem_map, List.mem_filter,
    List.mem_flatMap, exists_exists_and_eq_and, Option.isNone_iff_eq_none, and_assoc,
    eq_comm (b := error)]

/-- The errors about first keys are the expressions whose first key is not a root. -/
theorem unknownRoot_mem_report {registry : Registry} {source : PromptSource}
    {name path root : String} {stage : PromptStage} :
    .unknownRoot name path stage root ∈ (report registry source).errors ↔
      (∃ t e, Reads source t e root ∧ t.name = name ∧ t.stage = stage ∧ e.dottedPath = path) ∧
        root ∉ contextRoots registry stage := by
  simp only [mem_errors_report, mem_errors_lintTemplate, rootError?_eq_some]
  constructor
  · rintro (⟨_, _, _, h⟩ | ⟨t, ht, ⟨_, _, h⟩ | ⟨template, hcompile, e, he, step, hstep, hroot, h⟩⟩)
    · cases h
    · cases h
    · cases h
      exact ⟨⟨t, e, ⟨ht, ⟨template, hcompile, he⟩, step, hstep, rfl⟩, rfl, rfl, rfl⟩, hroot⟩
  · rintro ⟨⟨t, e, ⟨ht, ⟨template, hcompile, he⟩, step, hstep, rfl⟩, rfl, rfl, rfl⟩, hroot⟩
    exact .inr ⟨t, ht, .inr ⟨template, hcompile, e, he, step, hstep, hroot, rfl⟩⟩

/-! ## What the errors about first keys are worth -/

/-- For the contexts of a stage the lint is right: the roots are their first keys, and an expression
that reads a first key is reported exactly if they lack it. -/
def Exact (registry : Registry) (stage : PromptStage) : Prop :=
  ∀ input context, input.definition ∈ registry.modules →
    Context.OfStage registry input stage context →
      contextRoots registry stage = context.keys ∧
      ∀ source t e root, t.stage = stage → Reads source t e root →
        (.unknownRoot t.name e.dottedPath stage root ∈ (report registry source).errors ↔
          root ∉ context.keys)

theorem unknownRoot_mem_report_of_reads {registry : Registry} {source : PromptSource}
    {t : NamedTemplate} {e : Expression} {root : String} (h : Reads source t e root) :
    .unknownRoot t.name e.dottedPath t.stage root ∈ (report registry source).errors ↔
      root ∉ contextRoots registry t.stage :=
  unknownRoot_mem_report.trans (and_iff_right ⟨t, e, h, rfl, rfl, rfl⟩)

/-- Where the first module shows the keys of a stage, the lint is right for the stage. -/
theorem exact_of_sampled {registry : Registry} {stage : PromptStage} (h : Sampled registry stage) :
    Exact registry stage := by
  intro input context _ hcontext
  have hroots : contextRoots registry stage = context.keys :=
    (contextRoots_eq h).trans hcontext.keys_eq.symm
  refine ⟨hroots, fun source t e root hstage hreads => ?_⟩
  subst hstage
  rw [unknownRoot_mem_report_of_reads hreads, hroots]

/-- The key that the lint misses where the first module shows no context of the refine stage. -/
theorem mem_keys_of_not_sampled {registry : Registry} {input : ContextInput} {stage : PromptStage}
    {context : Json} (h : ¬ Sampled registry stage)
    (hcontext : Context.OfStage registry input stage context) (key : String) :
    key ∈ context.keys ↔ key = "field" ∨ key ∈ contextRoots registry stage := by
  obtain ⟨rfl, hroots⟩ := contextRoots_of_not_sampled h
  rw [hcontext.keys_eq, hroots]
  simp [Context.stageKeys]

theorem field_notMem_contextRoots {registry : Registry} {stage : PromptStage}
    (h : ¬ Sampled registry stage) : "field" ∉ contextRoots registry stage := by
  rw [(contextRoots_of_not_sampled h).2]
  decide

theorem not_exact_of_not_sampled {registry : Registry} {stage : PromptStage}
    (h : ¬ Sampled registry stage) {d : ModuleDefinition} (hd : d ∈ registry.modules)
    (hfields : d.fields ≠ []) : ¬ Exact registry stage := by
  intro hexact
  obtain ⟨rfl, -⟩ := contextRoots_of_not_sampled h
  obtain ⟨f, hf⟩ := List.exists_mem_of_ne_nil _ hfields
  have hcontext : Context.OfStage registry
      { world := sampleWorld, definition := d, module := sampleModule d, others := [] } .refine _ :=
    .refine hf
  apply field_notMem_contextRoots h
  rw [(hexact _ _ hd hcontext).1, mem_keys_of_not_sampled h hcontext]
  exact .inl rfl

/-- What the errors about first keys say, for every registry. -/
structure RootErrors (registry : Registry) : Prop where
  /-- They are the expressions whose first key is not a root of the stage. -/
  reported : ∀ source name path stage root,
    .unknownRoot name path stage root ∈ (report registry source).errors ↔
      (∃ t e, Reads source t e root ∧ t.name = name ∧ t.stage = stage ∧ e.dottedPath = path) ∧
        root ∉ contextRoots registry stage
  /-- The lint is right for a stage unless it is the refine stage, the first module has no fields
  and another one has some. -/
  exact_iff : ∀ stage, Exact registry stage ↔
    (Sampled registry stage ∨ ∀ d ∈ registry.modules, d.fields = [])
  /-- Where the first module has no fields, the contexts of the refine stage have the field to
  refine besides the roots, and it is reported beside the keys that they lack. -/
  missed : ¬ Sampled registry .refine → ∀ input context, input.definition ∈ registry.modules →
    Context.OfStage registry input .refine context →
      "field" ∉ contextRoots registry .refine ∧
      (∀ key, key ∈ context.keys ↔ key = "field" ∨ key ∈ contextRoots registry .refine) ∧
      ∀ source t e root, t.stage = .refine → Reads source t e root →
        (.unknownRoot t.name e.dottedPath .refine root ∈ (report registry source).errors ↔
          root = "field" ∨ root ∉ context.keys)

/-- The lint is right about the first keys of every stage, but for a registry whose first module has
no fields while another one has: there it misses the key of the field to refine. -/
theorem rootErrors (registry : Registry) : RootErrors registry where
  reported _ _ _ _ _ := unknownRoot_mem_report
  exact_iff stage := by
    constructor
    · intro hexact
      by_contra hnot
      obtain ⟨hsampled, hfields⟩ := not_or.1 hnot
      push Not at hfields
      obtain ⟨d, hd, hne⟩ := hfields
      exact not_exact_of_not_sampled hsampled hd hne hexact
    · rintro (hsampled | hnone)
      · exact exact_of_sampled hsampled
      · intro input context hd hcontext
        cases hcontext with
        | draft => exact exact_of_sampled (show Sampled registry .draft from trivial) _ _ hd .draft
        | final => exact exact_of_sampled (show Sampled registry .final from trivial) _ _ hd .final
        | refine hfield => rw [hnone _ hd] at hfield; cases hfield
  missed hsampled input context _ hcontext := by
    have hfield := field_notMem_contextRoots hsampled
    have hkeys := mem_keys_of_not_sampled hsampled hcontext
    refine ⟨hfield, hkeys, fun source t e root hstage hreads => ?_⟩
    rw [← hstage, unknownRoot_mem_report_of_reads hreads, hstage, hkeys]
    by_cases hroot : root = "field"
    · simp [hroot, hfield]
    · simp [hroot]

/-- A registry whose first module has no fields while its second has one. -/
def fieldlessFirst : Registry where
  modules := [
    { key := "a", label := "A", order := 1, fields := [] },
    { key := "b", label := "B", order := 2, fields := [{ key := "x", label := "X" }] }]
  ne_nil := by decide
  sound := by decide +kernel

/-- The key of the field to refine is reported as one that the contexts of its stage lack, although
they have it. -/
theorem not_exact_fieldlessFirst :
    Registry.ofDefinitions fieldlessFirst.modules = .ok fieldlessFirst ∧
      (report fieldlessFirst ⟨"d", "f", "$\x7bfield.label\x7d", .empty⟩).errors =
        [.unknownRoot "refine" "field.label" .refine "field"] ∧
      (∀ input context, Context.OfStage fieldlessFirst input .refine context →
        "field" ∈ context.keys) ∧
      ¬ Exact fieldlessFirst .refine := by
  have hsampled : ¬ Sampled fieldlessFirst .refine := by simp [Sampled, fieldlessFirst]
  refine ⟨Registry.ofDefinitions_modules (by decide), by decide +kernel, fun input context h => ?_,
    ?_⟩
  · rw [h.keys_eq]
    decide
  · exact not_exact_of_not_sampled hsampled (List.mem_cons_of_mem _ List.mem_cons_self) (by simp)

end Lint

/-! ## What a source without errors is good for -/

/-- Every expression of the template begins with one of the keys. -/
def Template.ReadsAmong (t : Template) (keys : List String) : Prop :=
  ∀ e ∈ t.expressions, ∃ step, e.path.head? = some step ∧ step.name ∈ keys

/-- A catalog works for a registry. -/
structure Catalog.Works (c : Catalog) (registry : Registry) (source : PromptSource) : Prop where
  /-- It overrides templates of modules of the registry alone. -/
  modules : c.checkModules registry = .ok ()
  /-- The template of a stage of a module is one of the source: its own, or the default where it has
  none. -/
  chosen : ∀ stage module, ∃ t ∈ source.templates, t.stage = stage ∧
    (t.module = some module ∨
      t.module = none ∧ ∀ o ∈ source.overrides, o.stage = stage → o.module ≠ some module) ∧
    Template.compile .builtin t.source = .ok (c.template stage module)
  /-- Every template of the source reads first keys of the contexts of its stage, whatever they are
  built from. -/
  reads : ∀ t ∈ source.templates, ∃ template, Template.compile .builtin t.source = .ok template ∧
    ∀ input context, input.definition ∈ registry.modules →
      Context.OfStage registry input t.stage context → template.ReadsAmong context.keys
  /-- So does every prompt of an engine with this registry and catalog. -/
  prompts : ∀ e : Engine, e.registry = registry → e.catalog = c → ∀ scope p rendered,
    e.prompt? scope p = some rendered → ∃ input context, input.definition ∈ registry.modules ∧
      Context.OfStage registry input p.stage context ∧
      rendered = (c.template p.stage input.definition.key).render e.functions context ∧
      (c.template p.stage input.definition.key).ReadsAmong context.keys

namespace Lint

section Clean

variable {registry : Registry} {source : PromptSource}

theorem compile_of_errors_eq_nil (h : (report registry source).errors = []) {t : NamedTemplate}
    (ht : t ∈ source.templates) :
    ∃ template, Template.compile .builtin t.source = .ok template := by
  cases hcompile : Template.compile .builtin t.source with
  | ok template => exact ⟨template, rfl⟩
  | error cause =>
    have hmem : .doesNotCompile t.name cause ∈ (report registry source).errors :=
      mem_errors_report.2 (.inr ⟨t, ht, mem_errors_lintTemplate.2 (.inl ⟨cause, hcompile, rfl⟩)⟩)
    rw [h] at hmem
    cases hmem

theorem readsAmong_of_errors_eq_nil (h : (report registry source).errors = []) {t : NamedTemplate}
    (ht : t ∈ source.templates) {template : Template}
    (hcompile : Template.compile .builtin t.source = .ok template) :
    template.ReadsAmong (Context.stageKeys t.stage) := by
  intro e he
  obtain ⟨parsed, hparse, hchecked⟩ := bind_eq_ok_iff.1 hcompile
  have hparsed : template = parsed := by
    split at hchecked
    · cases hchecked
    · exact (Except.ok.inj hchecked).symm
  obtain ⟨step, hstep⟩ := Template.head?_path_of_parse hparse e (hparsed ▸ he)
  refine ⟨step, hstep, contextRoots_subset registry t.stage ?_⟩
  by_contra hroot
  have hreads : Reads source t e step.name := ⟨ht, ⟨template, hcompile, he⟩, step, hstep, rfl⟩
  have hmem := (unknownRoot_mem_report_of_reads hreads).2 hroot
  rw [h] at hmem
  cases hmem

theorem checkModules_of_errors_eq_nil (h : (report registry source).errors = []) {c : Catalog}
    (hcompile : Catalog.compile .builtin source = .ok c) : c.checkModules registry = .ok () := by
  unfold Catalog.checkModules
  split
  · rename_i o hfind
    obtain ⟨t, ht, hkey, -⟩ :=
      exists_of_forall₂ (Catalog.forall₂_overrides hcompile) (List.mem_of_find?_eq_some hfind)
    obtain ⟨module, hmodule, hname⟩ := Catalog.exists_of_mem_overrides ht
    have hunknown : registry.find? module = none := by
      simpa [hkey, hname] using List.find?_some hfind
    have hmem : .unknownModule module ∈ (report registry source).errors :=
      mem_errors_report.2 (.inl ⟨module, hmodule, hunknown, rfl⟩)
    rw [h] at hmem
    cases hmem
  · rfl

end Clean

/-- A source without errors has a catalog, and the catalog works for the registry. -/
theorem clean_works (registry : Registry) (source : PromptSource)
    (h : (report registry source).errors = []) :
    ∃ c, Catalog.compile .builtin source = .ok c ∧ c.Works registry source := by
  obtain ⟨c, hcompile⟩ := Catalog.exists_of_compile_templates fun t ht =>
    compile_of_errors_eq_nil h ht
  refine ⟨c, hcompile, checkModules_of_errors_eq_nil h hcompile,
    Catalog.template_of_compile hcompile, fun t ht => ?_, ?_⟩
  · obtain ⟨template, htemplate⟩ := compile_of_errors_eq_nil h ht
    refine ⟨template, htemplate, fun input context _ hcontext => ?_⟩
    rw [hcontext.keys_eq]
    exact readsAmong_of_errors_eq_nil h ht htemplate
  · rintro e rfl rfl scope p rendered hrendered
    obtain ⟨input, context, hd, hcontext, rfl⟩ := Engine.rendered_of_prompt? hrendered
    obtain ⟨t, ht, hstage, -, htemplate⟩ :=
      Catalog.template_of_compile hcompile p.stage input.definition.key
    refine ⟨input, context, hd, hcontext, rfl, ?_⟩
    rw [hcontext.keys_eq, ← hstage]
    rw [← hstage] at htemplate
    exact readsAmong_of_errors_eq_nil h ht htemplate

/-- A registry of one module with a field. -/
def oneModule : Registry where
  modules := [
    { key := "m", label := "Module", order := 1, fields := [{ key := "f", label := "Field" }] }]
  ne_nil := by decide
  sound := by decide +kernel

/-- A template for each stage, and one that a module overrides. -/
def oneOverride : PromptSource where
  draft := "$\x7bmodule.fields[*].line | join(\"; \")\x7d"
  final := "$\x7bworld.name\x7d"
  refine := "$\x7bfield.label\x7d"
  modules := .ofList [("m", { draft := some "$\x7bmissing | count\x7d" })]

theorem clean_works_oneOverride : (report oneModule oneOverride).errors = [] ∧
    ∃ c, Catalog.compile .builtin oneOverride = .ok c ∧ c.Works oneModule oneOverride :=
  ⟨by decide +kernel, clean_works oneModule oneOverride (by decide +kernel)⟩

end Lint

end Lorebook
