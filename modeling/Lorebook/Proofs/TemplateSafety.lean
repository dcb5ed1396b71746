import Lorebook.Engine.Build
import Lorebook.Proofs.Results
import Lorebook.Proofs.Runs

set_option autoImplicit false

/-! # Templates that compile

A template that compiles calls no unknown function, so that rendering it fails only where a function
refuses its arguments. The built-in functions look at the number of their arguments alone: with them
a template renders in every context, or in none, and then it is its first pipe with a wrong number
of arguments that fails. The templates of an engine are compiled with the functions that it renders
them with (`Template.render_safety`). -/

namespace Lorebook

open Studio Operation

/-! ## What rendering calls -/

namespace Template

/-- The pipes in the order in which they are evaluated. -/
def pipes (t : Template) : List PipeCall :=
  t.expressions.flatMap (·.pipes)

theorem mem_distinct {names : List String} {name : String} :
    name ∈ distinct names ↔ name ∈ names := by
  have hfold : ∀ seen,
      name ∈ names.foldl (fun seen n => if n ∈ seen then seen else seen ++ [n]) seen ↔
        name ∈ seen ∨ name ∈ names := by
    induction names with
    | nil => simp
    | cons n names ih =>
      intro seen
      rw [List.foldl_cons, ih]
      split <;> grind
  exact (hfold []).trans (by simp)

/-- Compiling looks at the function of every pipe. -/
theorem contains_of_compile {functions : FunctionSet} {source : String} {t : Template}
    (h : compile functions source = .ok t) :
    ∀ pipe ∈ t.pipes, functions.contains pipe.name = true := by
  intro pipe hpipe
  obtain ⟨t', -, hcheck⟩ := bind_eq_ok_iff.1 h
  split at hcheck
  · cases hcheck
  · rename_i hnone
    cases hcheck
    have hmem : pipe.name ∈ t.functionNames := by
      obtain ⟨e, he, hpipe⟩ := List.mem_flatMap.1 hpipe
      exact mem_distinct.2 (List.mem_flatMap.2 ⟨e, he, List.mem_map_of_mem hpipe⟩)
    simpa using List.find?_eq_none.1 hnone _ hmem

end Template

/-! ## Errors come from calls -/

section Calls

variable {functions : FunctionSet} {context : Json} {error : TemplateError}

theorem exists_call_of_foldlM {pipes : List PipeCall} {value : Option Json}
    (h : pipes.foldlM (fun v pipe => functions.call pipe v) value = .error error) :
    ∃ pipe ∈ pipes, ∃ v, functions.call pipe v = .error error := by
  induction pipes generalizing value with
  | nil => cases h
  | cons pipe pipes ih =>
    rw [List.foldlM_cons, bind_eq_error_iff] at h
    rcases h with h | ⟨v, -, h⟩
    · exact ⟨pipe, by simp, value, h⟩
    · obtain ⟨pipe', hpipe', hv⟩ := ih h
      exact ⟨pipe', by simp [hpipe'], hv⟩

/-- Rendering fails with the error of a call. -/
theorem Template.exists_call_of_render {t : Template}
    (h : t.render functions context = .error error) :
    ∃ pipe ∈ t.pipes, ∃ v, functions.call pipe v = .error error := by
  obtain ⟨s, hs, hrender⟩ := exists_of_mapM_eq_error (map_eq_error_iff.1 h)
  cases s with
  | literal text => cases hrender
  | expr e =>
    obtain ⟨pipe, hpipe, hcall⟩ := exists_call_of_foldlM (map_eq_error_iff.1 hrender)
    have he : e ∈ t.expressions := List.mem_filterMap.2 ⟨.expr e, hs, rfl⟩
    exact ⟨pipe, List.mem_flatMap.2 ⟨e, he, hpipe⟩, hcall⟩

/-- A registered function fails with an error of its own. -/
theorem FunctionSet.function_of_call {pipe : PipeCall} {value : Option Json}
    (hcontains : functions.contains pipe.name = true)
    (h : functions.call pipe value = .error error) :
    ∃ message, error = .function pipe.name message := by
  obtain ⟨f, hf⟩ := Option.isSome_iff_exists.1 hcontains
  simp only [call, hf] at h
  cases hresult : f value pipe.args with
  | ok v =>
    rw [hresult] at h
    cases h
  | error message =>
    rw [hresult] at h
    cases h
    exact ⟨message, rfl⟩

/-- A template that compiles fails only where a function refuses its arguments. -/
theorem Template.function_of_render {source : String} {t : Template}
    (hcompile : compile functions source = .ok t) (h : t.render functions context = .error error) :
    ∃ name message, error = .function name message := by
  obtain ⟨pipe, hpipe, v, hcall⟩ := exists_call_of_render h
  exact ⟨pipe.name, FunctionSet.function_of_call (contains_of_compile hcompile pipe hpipe) hcall⟩

end Calls

/-! ## The built-in functions -/

namespace FunctionSet

/-- The number of arguments that a built-in function takes. -/
def arity (name : String) : Nat :=
  if name = "join" ∨ name = "default" then 1 else 0

/-- What a built-in function says to a wrong number of arguments. -/
def arityMessage (name : String) (count : Nat) : String :=
  if arity name = 1 then s!"{name} expects 1 argument, got {count}"
  else s!"{name} takes no arguments, got {count}"

end FunctionSet

namespace PipeCall

/-- The number of arguments is the one that the function takes. -/
def Fits (pipe : PipeCall) : Prop :=
  pipe.args.length = FunctionSet.arity pipe.name

instance : DecidablePred Fits := fun pipe =>
  inferInstanceAs (Decidable (pipe.args.length = FunctionSet.arity pipe.name))

/-- The error of a pipe with a wrong number of arguments. -/
def arityError (pipe : PipeCall) : TemplateError :=
  .function pipe.name (FunctionSet.arityMessage pipe.name pipe.args.length)

end PipeCall

/-- The first pipe with a wrong number of arguments. -/
def Template.misfit? (t : Template) : Option PipeCall :=
  t.pipes.find? fun pipe => ¬ pipe.Fits

namespace FunctionSet

/-- The function takes any value with the arguments that its name calls for, and refuses any value
with others. -/
def ChecksArity (name : String) (f : PipeFunction) : Prop :=
  ∀ value args, (args.length = arity name → ∃ v, f value args = .ok v) ∧
    (args.length ≠ arity name → f value args = .error (arityMessage name args.length))

theorem checksArity_unary {name : String} (h : arity name = 1)
    (f : String → Option Json → Option Json) : ChecksArity name (unary name f) := by
  intro value args
  match args with
  | [] => simp [unary, arityMessage, h]
  | [arg] => simp [unary, h]
  | _ :: _ :: _ => simp [unary, arityMessage, h]

theorem checksArity_nullary {name : String} (h : arity name = 0) (f : Option Json → Option Json) :
    ChecksArity name (nullary name f) := by
  intro value args
  match args with
  | [] => simp [nullary, h]
  | _ :: _ => simp [nullary, arityMessage, h]

theorem checksArity_builtin : ∀ e ∈ builtinEntries, ChecksArity e.1 e.2 := by
  simp only [builtinEntries, List.forall_mem_cons]
  exact ⟨checksArity_unary rfl _, checksArity_unary rfl _, checksArity_nullary rfl _,
    checksArity_nullary rfl _, checksArity_nullary rfl _, checksArity_nullary rfl _,
    checksArity_nullary rfl _, checksArity_nullary rfl _, by simp⟩

theorem mem_builtinEntries {name : String} {f : PipeFunction} (h : builtin.find? name = some f) :
    (name, f) ∈ builtinEntries := by
  rcases Dictionary.find?_insertAll_cases Dictionary.empty builtinEntries name with
    hnone | ⟨g, hg, hsome⟩
  · exact absurd (h.symm.trans hnone) (by simp)
  · obtain rfl := Option.some.inj (h.symm.trans hsome)
    exact hg

/-- A pipe of a built-in function succeeds with every value, or with none. -/
theorem call_builtin {pipe : PipeCall} (h : builtin.contains pipe.name = true)
    (value : Option Json) :
    (pipe.Fits → ∃ v, builtin.call pipe value = .ok v) ∧
      (¬ pipe.Fits → builtin.call pipe value = .error pipe.arityError) := by
  obtain ⟨f, hf⟩ := Option.isSome_iff_exists.1 h
  have hchecks : ChecksArity pipe.name f := checksArity_builtin _ (mem_builtinEntries hf)
  obtain ⟨hfits, hmisfits⟩ := hchecks value pipe.args
  simp only [call, hf]
  constructor
  · intro hpipe
    obtain ⟨v, hv⟩ := hfits hpipe
    exact ⟨v, by rw [hv]; rfl⟩
  · intro hpipe
    rw [hmisfits hpipe]
    rfl

end FunctionSet

/-! ## Rendering with the built-in functions -/

/-- The result is that of pipes of built-in functions: the error of the first one with a wrong
number of arguments, or a value if there is none. -/
def DecidedBy {α : Type} (pipes : List PipeCall) (r : Except TemplateError α) : Prop :=
  match pipes.find? fun pipe => ¬ pipe.Fits with
  | some pipe => r = .error pipe.arityError
  | none => ∃ a, r = .ok a

theorem DecidedBy.bind {α β : Type} {ps qs : List PipeCall} {r : Except TemplateError α}
    {f : α → Except TemplateError β} (hr : DecidedBy ps r) (hf : ∀ a, DecidedBy qs (f a)) :
    DecidedBy (ps ++ qs) (r >>= f) := by
  unfold DecidedBy at *
  rw [List.find?_append]
  cases hps : ps.find? fun pipe => ¬ pipe.Fits with
  | some pipe =>
    rw [hps] at hr
    rw [show r = .error pipe.arityError from hr]
    rfl
  | none =>
    rw [hps] at hr
    obtain ⟨a, rfl⟩ := hr
    exact hf a

theorem decidedBy_nil {α : Type} (a : α) : DecidedBy [] (.ok a : Except TemplateError α) :=
  ⟨a, rfl⟩

theorem DecidedBy.map {α β : Type} {ps : List PipeCall} {r : Except TemplateError α}
    (hr : DecidedBy ps r) (f : α → β) : DecidedBy ps (r.map f) := by
  have hbind := hr.bind fun a => decidedBy_nil (f a)
  rw [List.append_nil] at hbind
  cases r <;> exact hbind

theorem decidedBy_call {pipe : PipeCall} (h : FunctionSet.builtin.contains pipe.name = true)
    (value : Option Json) : DecidedBy [pipe] (FunctionSet.builtin.call pipe value) := by
  obtain ⟨hfits, hmisfits⟩ := FunctionSet.call_builtin h value
  by_cases hpipe : pipe.Fits
  · simpa [DecidedBy, hpipe] using hfits hpipe
  · simpa [DecidedBy, hpipe] using hmisfits hpipe

theorem decidedBy_foldlM {pipes : List PipeCall}
    (h : ∀ pipe ∈ pipes, FunctionSet.builtin.contains pipe.name = true) (value : Option Json) :
    DecidedBy pipes (pipes.foldlM (fun v pipe => FunctionSet.builtin.call pipe v) value) := by
  induction pipes generalizing value with
  | nil => exact decidedBy_nil value
  | cons pipe pipes ih =>
    rw [List.foldlM_cons]
    exact (decidedBy_call (h pipe (by simp)) value).bind
      (ih fun p hp => h p (by simp [hp]))

theorem Template.decidedBy_render {t : Template}
    (h : ∀ pipe ∈ t.pipes, FunctionSet.builtin.contains pipe.name = true) (context : Json) :
    DecidedBy t.pipes (t.render .builtin context) := by
  obtain ⟨segments⟩ := t
  refine DecidedBy.map ?_ String.join
  induction segments with
  | nil => exact decidedBy_nil []
  | cons s segments ih =>
    rw [List.mapM_cons]
    cases s with
    | literal text =>
      exact (decidedBy_nil text).bind fun a => (ih h).map (a :: ·)
    | expr e =>
      have hsplit : Template.pipes ⟨.expr e :: segments⟩ = e.pipes ++ Template.pipes ⟨segments⟩ :=
        rfl
      rw [hsplit] at h ⊢
      have hvalue : DecidedBy e.pipes (Segment.render .builtin context (.expr e)) :=
        (decidedBy_foldlM (fun p hp => h p (by simp [hp])) _).map displayText
      exact hvalue.bind fun a => (ih fun p hp => h p (by simp [hp])).map (a :: ·)

/-! ## Catalogs -/

namespace Catalog

theorem compileNamed_eq_ok_iff {functions : FunctionSet} {n : NamedTemplate} {t : Template} :
    compileNamed functions n = .ok t ↔ Template.compile functions n.source = .ok t := by
  unfold compileNamed
  cases Template.compile functions n.source <;> simp [Except.mapError]

/-- A source whose templates all compile has a catalog. -/
theorem exists_of_compile_templates {functions : FunctionSet} {source : PromptSource}
    (h : ∀ n ∈ source.templates, ∃ t, Template.compile functions n.source = .ok t) :
    ∃ c, compile functions source = .ok c := by
  have hdefault : ∀ stage, ∃ t, compileNamed functions ⟨none, stage, source.default stage⟩ =
      .ok t := fun stage => by
    obtain ⟨t, ht⟩ := h ⟨none, stage, source.default stage⟩
      (List.mem_append_left _ (List.mem_map_of_mem (by cases stage <;> decide)))
    exact ⟨t, compileNamed_eq_ok_iff.2 ht⟩
  obtain ⟨draft, hdraft⟩ := hdefault .draft
  obtain ⟨final, hfinal⟩ := hdefault .final
  obtain ⟨refine, hrefine⟩ := hdefault .refine
  have hoverride : ∀ n ∈ source.overrides, ∃ o, (do
      return ((n.module.getD "", n.stage), ← compileNamed functions n)) = Except.ok o := by
    intro n hn
    obtain ⟨t, ht⟩ := h n (List.mem_append_right _ hn)
    exact ⟨_, bind_eq_ok_iff.2 ⟨t, compileNamed_eq_ok_iff.2 ht, rfl⟩⟩
  obtain ⟨overrides, hoverrides⟩ := exists_mapM_eq_ok hoverride
  exact ⟨_, bind_eq_ok_iff.2 ⟨draft, hdraft, bind_eq_ok_iff.2 ⟨final, hfinal,
    bind_eq_ok_iff.2 ⟨refine, hrefine, bind_eq_ok_iff.2 ⟨overrides, hoverrides, rfl⟩⟩⟩⟩⟩

/-- The overrides of a catalog are those of its source, compiled. -/
theorem forall₂_overrides {functions : FunctionSet} {source : PromptSource} {c : Catalog}
    (h : compile functions source = .ok c) :
    List.Forall₂ (fun n o => o.1 = (n.module.getD "", n.stage) ∧
      Template.compile functions n.source = .ok o.2) source.overrides c.overrides := by
  obtain ⟨draft, -, h⟩ := bind_eq_ok_iff.1 h
  obtain ⟨final, -, h⟩ := bind_eq_ok_iff.1 h
  obtain ⟨refine, -, h⟩ := bind_eq_ok_iff.1 h
  obtain ⟨overrides, hoverrides, h⟩ := bind_eq_ok_iff.1 h
  cases h
  refine (mapM_eq_ok_iff.1 hoverrides).imp fun n o ho => ?_
  obtain ⟨t, ht, ho⟩ := bind_eq_ok_iff.1 ho
  cases ho
  exact ⟨rfl, compileNamed_eq_ok_iff.1 ht⟩

/-- The default templates of a catalog are those of its source, compiled. -/
theorem compile_default {functions : FunctionSet} {source : PromptSource} {c : Catalog}
    (h : compile functions source = .ok c) (stage : PromptStage) :
    Template.compile functions (source.default stage) = .ok (c.default stage) := by
  obtain ⟨draft, hdraft, h⟩ := bind_eq_ok_iff.1 h
  obtain ⟨final, hfinal, h⟩ := bind_eq_ok_iff.1 h
  obtain ⟨refine, hrefine, h⟩ := bind_eq_ok_iff.1 h
  obtain ⟨overrides, -, h⟩ := bind_eq_ok_iff.1 h
  cases h
  rw [compileNamed_eq_ok_iff] at hdraft hfinal hrefine
  cases stage with
  | draft => exact hdraft
  | final => exact hfinal
  | refine => exact hrefine

/-- Every override of a source names a module that the source has overrides for. -/
theorem exists_of_mem_overrides {source : PromptSource} {n : NamedTemplate}
    (h : n ∈ source.overrides) : ∃ module ∈ source.modules.keys, n.module = some module := by
  obtain ⟨entry, hentry, hn⟩ := List.mem_flatMap.1 h
  obtain ⟨stage, -, hn⟩ := List.mem_filterMap.1 hn
  obtain ⟨text, -, rfl⟩ := Option.map_eq_some_iff.1 hn
  exact ⟨entry.1, List.mem_map_of_mem hentry, rfl⟩

/-- The override of a module for a stage is one of the source, compiled. -/
theorem exists_of_override? {functions : FunctionSet} {source : PromptSource} {c : Catalog}
    (h : compile functions source = .ok c) {stage : PromptStage} {module : String} {t : Template}
    (hlookup : c.override? stage module = some t) :
    ∃ n ∈ source.overrides, n.stage = stage ∧ n.module = some module ∧
      Template.compile functions n.source = .ok t := by
  obtain ⟨front, back, hsplit, -⟩ := List.lookup_eq_some_iff.1 hlookup
  have hmem : ((module, stage), t) ∈ c.overrides := by
    rw [hsplit]
    simp
  obtain ⟨n, hn, hkey, hcompile⟩ := exists_of_forall₂ (forall₂_overrides h) hmem
  obtain ⟨module', -, hmodule⟩ := exists_of_mem_overrides hn
  rw [hmodule, Option.getD_some, Prod.mk.injEq] at hkey
  exact ⟨n, hn, hkey.2.symm, by rw [hmodule, hkey.1], hcompile⟩

/-- Where a catalog has no override, its source has none. -/
theorem module_ne_of_override? {functions : FunctionSet} {source : PromptSource} {c : Catalog}
    (h : compile functions source = .ok c) {stage : PromptStage} {module : String}
    (hlookup : c.override? stage module = none) {n : NamedTemplate} (hn : n ∈ source.overrides)
    (hstage : n.stage = stage) : n.module ≠ some module := by
  rintro hmodule
  obtain ⟨o, ho, hkey, -⟩ := exists_of_forall₂ (forall₂_overrides h).flip hn
  rw [hmodule, hstage, Option.getD_some] at hkey
  have hne := List.lookup_eq_none_iff.1 hlookup o ho
  simp [hkey] at hne

/-- The template of a stage of a module is a template of the source, compiled: the override of the
module, or the default where it has none. -/
theorem template_of_compile {functions : FunctionSet} {source : PromptSource} {c : Catalog}
    (h : compile functions source = .ok c) (stage : PromptStage) (module : String) :
    ∃ n ∈ source.templates, n.stage = stage ∧
      (n.module = some module ∨
        n.module = none ∧ ∀ o ∈ source.overrides, o.stage = stage → o.module ≠ some module) ∧
      Template.compile functions n.source = .ok (c.template stage module) := by
  rw [template]
  cases hlookup : c.override? stage module with
  | none =>
    refine ⟨⟨none, stage, source.default stage⟩, List.mem_append_left _ ?_, rfl,
      .inr ⟨rfl, fun o ho => module_ne_of_override? h hlookup ho⟩, compile_default h stage⟩
    exact List.mem_map_of_mem (by cases stage <;> decide)
  | some t =>
    obtain ⟨n, hn, hstage, hmodule, hcompile⟩ := exists_of_override? h hlookup
    exact ⟨n, List.mem_append_right _ hn, hstage, .inl hmodule, hcompile⟩

/-- Every template of a catalog is the compiled form of a text. -/
theorem compile_template {functions : FunctionSet} {source : PromptSource} {c : Catalog}
    (h : compile functions source = .ok c) (stage : PromptStage) (module : String) :
    ∃ text, Template.compile functions text = .ok (c.template stage module) :=
  let ⟨n, _, _, _, hcompile⟩ := template_of_compile h stage module
  ⟨n.source, hcompile⟩

/-- A catalog that is chosen is compiled. -/
theorem compile_of_choose {functions : FunctionSet} {text : Option String} {file : Option FileText}
    {c : Catalog} (h : choose functions text file = .ok c) :
    ∃ source, compile functions source = .ok c := by
  have hparse : ∀ text, parse functions text = .ok c →
      ∃ source, compile functions source = .ok c := by
    intro text h
    unfold parse at h
    split at h
    · exact ⟨_, h⟩
    · cases h
  match text, file, h with
  | some text, _, h => exact hparse text h
  | none, some (.ok text), h => exact hparse text h
  | none, some (.error _), h => cases h
  | none, none, h => exact ⟨_, h⟩

end Catalog

/-- The templates of an engine are compiled with its own functions. -/
theorem Engine.compile_template_of_build {plan : EnginePlan} {s s' : Studio} {e : Engine}
    (h : Yields (build plan) s e s') (stage : PromptStage) (module : String) :
    ∃ text, Template.compile e.functions text = .ok (e.catalog.template stage module) := by
  simp only [build, yields_bind, yields_ofExcept] at h
  obtain ⟨name, _, -, registry, _, -, catalog, _, ⟨hcatalog, -⟩, _, _, -, h⟩ := h
  simp only [yields_ite, yields_bind, yields_tell, yields_pure, yields_throw] at h
  obtain ⟨-, _, _, -, rfl, -⟩ | ⟨-, _, _, hfalse, -⟩ := h
  · obtain ⟨source, hsource⟩ := Catalog.compile_of_choose hcatalog
    exact Catalog.compile_template hsource stage module
  · exact hfalse.elim

theorem Operation.fails_ofExcept {ε α : Type} {convert : ε → EngineError} {x : Except ε α}
    {s s' : Studio} {error : EngineError} (h : Fails (ofExcept convert x) s error s') :
    ∃ e, x = .error e ∧ error = convert e := by
  cases x with
  | ok v => exact absurd h (by simp [ofExcept])
  | error e => exact ⟨e, rfl, ((fails_throw _ _ _ _).1 h).1⟩

/-- A template that compiles fails only where a function refuses its arguments. With the built-in
functions it fails if some pipe has a wrong number of arguments, with the error of the first such
pipe in every context, and otherwise renders in every context. No prompt of an engine calls an
unknown function. -/
theorem Template.render_safety :
    (∀ functions source t, compile functions source = .ok t → ∀ context error,
      t.render functions context = .error error → ∃ name message, error = .function name message) ∧
    (∀ source t, compile .builtin source = .ok t → ∀ context,
      ((∃ error, t.render .builtin context = .error error) ↔ ∃ pipe ∈ t.pipes, ¬ pipe.Fits) ∧
      (∀ pipe, t.misfit? = some pipe → t.render .builtin context = .error pipe.arityError) ∧
      (t.misfit? = none → ∃ text, t.render .builtin context = .ok text)) ∧
    ∀ plan s e s', Yields (Engine.build plan) s e s' → ∀ stage module context t error t',
      Fails (e.renderPrompt stage module context) t error t' →
        ∃ name message, error = .template (.function name message) := by
  refine ⟨fun functions source t hcompile context error h => function_of_render hcompile h,
    fun source t hcompile context => ?_,
    fun plan s e s' hbuild stage module context t error t' h => ?_⟩
  · have hrender := decidedBy_render (contains_of_compile hcompile) context
    unfold DecidedBy at hrender
    change match t.misfit? with | some pipe => _ | none => _ at hrender
    cases hmisfit : t.misfit? with
    | some pipe =>
      rw [hmisfit] at hrender
      have hmem := List.mem_of_find?_eq_some hmisfit
      have hpipe : ¬ pipe.Fits := by simpa using List.find?_some hmisfit
      refine ⟨⟨fun _ => ⟨pipe, hmem, hpipe⟩, fun _ => ⟨_, hrender⟩⟩, fun p hp => ?_, fun h => ?_⟩
      · cases hp
        exact hrender
      · cases h
    | none =>
      rw [hmisfit] at hrender
      obtain ⟨text, htext⟩ := hrender
      refine ⟨⟨fun ⟨error, h⟩ => ?_, fun ⟨pipe, hmem, hpipe⟩ => ?_⟩, fun p hp => ?_,
        fun _ => ⟨text, htext⟩⟩
      · rw [htext] at h
        cases h
      · exact absurd hpipe (by simpa using List.find?_eq_none.1 hmisfit pipe hmem)
      · cases hp
  · obtain ⟨text, hcompile⟩ := Engine.compile_template_of_build hbuild stage module
    obtain ⟨cause, hrender, rfl⟩ := Operation.fails_ofExcept h
    obtain ⟨name, message, rfl⟩ := function_of_render hcompile hrender
    exact ⟨name, message, rfl⟩

end Lorebook
