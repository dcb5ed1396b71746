import Lorebook.Proofs.Activation
import Lorebook.Proofs.Answers
import Lorebook.Proofs.Inquiry
import Lorebook.Proofs.Loading

set_option autoImplicit false

/-! # What reaches a generator

A job, a draft or a refinement is a `Purpose`. What a generator is asked for it is a function of the
purpose and of the world and its modules as they are loaded (`Engine.request?`). For an operation
that runs at once this is `Asks.request?`; for the calls in flight in a run, for which the world was
loaded earlier, it is `System.request?_of_asked`. So on databases that agree on the rows of a world
and of its modules the same is asked, with the key of the owner of the world; and without a key or a
prompt nothing is asked. `Engine.prompting` puts this together. -/

namespace Lorebook

open Studio Operation Statement

/-! ## Keys -/

/-- The key that is found for an owner is not blank. -/
theorem Keyring.apiKey_of_resolve {k : Keyring} {owner : OwnerId} {c : Credentials}
    (h : k.resolve owner = .ok c) : Text.isBlank c.apiKey = false := by
  unfold resolve at h
  split at h
  · rename_i own hlookup
    obtain rfl := Except.ok.inj h
    unfold lookup at hlookup
    split at hlookup
    · rename_i found hfound
      obtain rfl := Source.own.inj hlookup
      simpa using (Option.filter_eq_some_iff.1 hfound).2
    · split at hlookup <;> cases hlookup
  · rename_i key hlookup
    obtain rfl := Except.ok.inj h
    unfold lookup at hlookup
    split at hlookup
    · cases hlookup
    · split at hlookup
      · rename_i found hfound
        obtain rfl := Source.shared.inj hlookup
        simpa using (Option.filter_eq_some_iff.1 hfound).2
      · cases hlookup
  · cases h

namespace Engine

/-- The credentials of a world are those of its owner. -/
theorem yields_credentialsFor_iff {e : Engine} {w : World} {s : Studio} {c : Credentials} :
    (∃ t, Yields (e.credentialsFor w) s c t) ↔ e.keyring.resolve w.owner = .ok c := by
  constructor
  · rintro ⟨t, h⟩
    simp only [credentialsFor, yields_bind, yields_ofExcept] at h
    obtain ⟨_, _, _, hresolve, _⟩ := h
    exact hresolve
  · intro h
    obtain ⟨c', t, ht⟩ := succeeds_credentialsFor h s
    have h' : e.keyring.resolve w.owner = .ok c' := by
      simp only [credentialsFor, yields_bind, yields_ofExcept] at ht
      obtain ⟨_, _, _, hresolve, _⟩ := ht
      exact hresolve
    obtain rfl := Except.ok.inj (h.symm.trans h')
    exact ⟨t, ht⟩

end Engine

/-! ## What is asked for what was loaded -/

/-- What a generator is asked for. -/
inductive Purpose where
  /-- The content of the module of a job. -/
  | content (job : Job)
  /-- Field values of a module, for the owner of a world. -/
  | draft (world : WorldId) (module : String) (owner : OwnerId)
  /-- A better text of a field, for the owner of a world. -/
  | refinement (world : WorldId) (module field : String) (owner : OwnerId) (text : String)
      (instruction : Option String)

namespace Purpose

/-- The world that it is for. -/
def world : Purpose → WorldId
  | content job => job.world
  | draft world _ _ => world
  | refinement world _ _ _ _ _ => world

/-- Whether a JSON object is asked for. -/
def wantsJson : Purpose → Bool
  | draft _ _ _ => true
  | _ => false

/-- Two purposes that ask for the same: jobs of one module need not be the same job. -/
def Alike : Purpose → Purpose → Prop
  | content job, content job' => job'.world = job.world ∧ job'.moduleKey = job.moduleKey
  | p, p' => p' = p

theorem Alike.world_eq {p p' : Purpose} (h : p.Alike p') : p'.world = p.world := by
  cases p with
  | content job =>
    cases p' with
    | content job' => exact h.1
    | _ => cases h
  | _ => exact congrArg world h

theorem Alike.wantsJson_eq {p p' : Purpose} (h : p.Alike p') : p'.wantsJson = p.wantsJson := by
  cases p with
  | content job =>
    cases p' with
    | content job' => rfl
    | _ => cases h
  | _ => exact congrArg wantsJson h

end Purpose

/-- A module of a definition that is not stored yet, of a world. -/
def freshModule (world : WorldId) (d : ModuleDefinition) (id : ModuleId) (now : Instant) :
    WorldModule :=
  { WorldModule.new id world d.key now with status := .derive d .empty }

/-- The module of a definition among those of a world, or a new one. -/
def moduleAmong (d : ModuleDefinition) (scope : World × List WorldModule) (id : ModuleId)
    (now : Instant) : WorldModule :=
  (scope.2.find? (·.key == d.key)).getD (freshModule scope.1.id d id now)

namespace Engine

/-- The prompt of a stage for a module. -/
def promptOf (e : Engine) (stage : PromptStage) (module : String) (context : Json) :
    Except TemplateError String :=
  (e.catalog.template stage module).render e.functions context

/-- What is drafted from: the identifier and the times of a new module play no part in it. -/
def draftInput (d : ModuleDefinition) (scope : World × List WorldModule) : ContextInput where
  world := scope.1
  definition := d
  module := moduleAmong d scope (.mint 0) (.ofDay 0)
  others := scope.2

/-- The prompt for a purpose, where one is rendered. -/
def prompt? (e : Engine) (scope : World × List WorldModule) :
    Purpose → Option (Except TemplateError String)
  | .content job =>
    match e.registry.require job.moduleKey, scope.2.find? (·.key == job.moduleKey) with
    | .ok d, some m =>
      some (e.promptOf .final d.key (Context.final
        { world := scope.1, definition := d, module := m, others := scope.2 } e.registry))
    | _, _ => none
  | .draft _ module owner =>
    match e.registry.require module with
    | .ok d =>
      if scope.1.isOwnedBy owner then
        some (e.promptOf .draft d.key (Context.draft (draftInput d scope) e.registry))
      else none
    | .error _ => none
  | .refinement _ module field owner text instruction =>
    match e.registry.require module, e.registry.requireField module field with
    | .ok d, .ok f =>
      if Text.isBlank text = false ∧ scope.1.isOwnedBy owner then
        some (e.promptOf .refine d.key (Context.refine { draftInput d scope with
          focusNote := f.focus, priorText := some text, instruction := instruction } f e.registry))
      else none
    | _, _ => none

/-- What is asked for a purpose, for a world and its modules as they are loaded. Nothing is without
a prompt, and nothing without a key of the owner of the world. -/
def request? (e : Engine) (p : Purpose) (scope : World × List WorldModule) :
    Option GenerationRequest :=
  match e.prompt? scope p, e.keyring.resolve scope.1.owner with
  | some (.ok prompt), .ok credentials =>
    some { prompt := prompt, credentials := credentials, json := p.wantsJson }
  | _, _ => none

variable {e : Engine} {p : Purpose} {scope : World × List WorldModule} {r : GenerationRequest}

theorem request?_eq_some : e.request? p scope = some r ↔
    e.prompt? scope p = some (.ok r.prompt) ∧ e.keyring.resolve scope.1.owner = .ok r.credentials ∧
      r.json = p.wantsJson := by
  unfold request?
  constructor
  · intro h
    split at h
    · rename_i prompt credentials hprompt hresolve
      obtain rfl := Option.some.inj h
      exact ⟨hprompt, hresolve, rfl⟩
    · cases h
  · rintro ⟨hprompt, hresolve, hjson⟩
    rw [hprompt, hresolve, ← hjson]

/-- The key that is sent is that of the owner of the world, and not blank. -/
theorem key_of_request? (h : e.request? p scope = some r) :
    e.keyring.resolve scope.1.owner = .ok r.credentials ∧
      Text.isBlank r.credentials.apiKey = false := by
  obtain ⟨_, hresolve, _⟩ := request?_eq_some.1 h
  exact ⟨hresolve, Keyring.apiKey_of_resolve hresolve⟩

/-- The job itself plays no part in what is asked for its module. -/
theorem request?_of_alike {p' : Purpose} (h : p.Alike p') :
    e.request? p' scope = e.request? p scope := by
  cases p with
  | content job =>
    cases p' with
    | content job' =>
      have hprompt : e.prompt? scope (.content job') = e.prompt? scope (.content job) := by
        simp only [prompt?, show job'.moduleKey = job.moduleKey from h.2]
      unfold request?
      rw [hprompt]
      rfl
    | _ => cases h
  | _ => exact congrArg (e.request? · scope) h

/-! ## What is loaded for a module -/

variable {d : ModuleDefinition} {id : WorldId} {owner : OwnerId} {s t : Studio}

theorem yields_newModule (world : WorldId) (d : ModuleDefinition) (s : Studio) (m : WorldModule)
    (t : Studio) : Yields (newModule world d) s m t ↔
      m = freshModule world d (.mint s.minted) s.clock ∧ t = s.minting.ticked := by
  simp only [newModule, yields_bind, yields_mint, yields_readClock, yields_pure]
  constructor
  · rintro ⟨_, _, ⟨rfl, rfl⟩, _, _, ⟨rfl, rfl⟩, rfl, rfl⟩
    exact ⟨rfl, rfl⟩
  · rintro ⟨rfl, rfl⟩
    exact ⟨_, _, ⟨rfl, rfl⟩, _, _, ⟨rfl, rfl⟩, rfl, rfl⟩

/-- What is loaded for a module is the owner's world with its modules, and the one among them. -/
theorem loaded?_of_loadScope {found : World × WorldModule × List WorldModule}
    (h : Yields (loadScope id owner d) s found t) :
    s.db.loaded? id = some (found.1, found.2.2) ∧ found.1.isOwnedBy owner = true ∧
      ∃ mid now, found.2.1 = moduleAmong d (found.1, found.2.2) mid now := by
  rw [loadScope, yields_bind] at h
  obtain ⟨⟨w, ms⟩, u, hstore, h⟩ := h
  obtain ⟨db, hload, rfl⟩ := (yields_store ..).1 hstore
  have hloaded : s.db.loaded? id = some (w, ms) := (yields_load.1 hload).1
  have hw := (Database.liveWorld_of_loaded? hloaded).id_eq
  simp only [ensureOwner, yields_bind, yields_ite, yields_pure, yields_throw, and_false,
    or_false] at h
  obtain ⟨_, _, ⟨howned, _, rfl⟩, h⟩ := h
  unfold moduleAmong
  split at h
  · rename_i m hm
    obtain ⟨rfl, _⟩ := (yields_pure ..).1 h
    exact ⟨hloaded, howned, .mint 0, .ofDay 0, by simp only [hm, Option.getD_some]⟩
  · rename_i hm
    simp only [yields_bind, yields_newModule, yields_pure] at h
    obtain ⟨_, _, ⟨rfl, rfl⟩, rfl, rfl⟩ := h
    exact ⟨hloaded, howned, _, _, by simp only [hm, Option.getD_none, hw]; rfl⟩

/-- For the owner of a world that can be loaded, it is loaded. -/
theorem yields_loadScope (hload : s.db.loaded? id = some scope)
    (howned : scope.1.isOwnedBy owner = true) :
    ∃ mid now t, Yields (loadScope id owner d) s (scope.1, moduleAmong d scope mid now, scope.2)
      t := by
  have hw := (Database.liveWorld_of_loaded? hload).id_eq
  have hstored : Yields (store (load id)) s scope s := Yields.store s (yields_load.2 ⟨hload, rfl⟩)
  have howner : Yields (ensureOwner scope.1 owner) s () s := by
    rw [ensureOwner, if_pos howned]
    exact Yields.pure () s
  unfold moduleAmong
  cases hm : scope.2.find? (·.key == d.key) with
  | some m =>
    refine ⟨.mint 0, .ofDay 0, s, hstored.bind (howner.bind ?_)⟩
    simp only [hm, Option.getD_some]
    exact Yields.pure _ s
  | none =>
    refine ⟨.mint s.minted, s.clock, s.minting.ticked, hstored.bind (howner.bind ?_)⟩
    simp only [hm, Option.getD_none]
    exact ((yields_newModule ..).2 ⟨rfl, rfl⟩).bind (hw ▸ Yields.pure _ _)

/-! ## What the operations ask -/

/-- The identifier and the times of a new module do not show in the context of a draft. -/
theorem context_draft_moduleAmong (e : Engine) (d : ModuleDefinition)
    (scope : World × List WorldModule) (mid : ModuleId) (now : Instant) :
    Context.draft
        { world := scope.1, definition := d, module := moduleAmong d scope mid now,
          others := scope.2 } e.registry =
      Context.draft (draftInput d scope) e.registry := by
  unfold draftInput moduleAmong
  cases scope.2.find? (·.key == d.key) <;> rfl

/-- They do not show in the context of a refinement either. -/
theorem context_refine_moduleAmong (e : Engine) (d : ModuleDefinition) (f : FieldDefinition)
    (text : String) (instruction : Option String) (scope : World × List WorldModule)
    (mid : ModuleId) (now : Instant) :
    Context.refine
        { world := scope.1, definition := d, module := moduleAmong d scope mid now,
          others := scope.2, focusNote := f.focus, priorText := some text,
          instruction := instruction } f e.registry =
      Context.refine { draftInput d scope with
        focusNote := f.focus, priorText := some text, instruction := instruction }
        f e.registry := by
  unfold draftInput moduleAmong
  cases scope.2.find? (·.key == d.key) <;> rfl

/-- What is asked for a job is a function of what is loaded of its world. -/
theorem yields_requestFor_iff {job : Job} :
    (∃ t, Yields (e.requestFor job) s r t) ↔
      ∃ scope, s.db.loaded? job.world = some scope ∧ e.request? (.content job) scope = some r := by
  simp only [request?_eq_some]
  constructor
  · rintro ⟨t, h⟩
    rw [requestFor, yields_bind] at h
    obtain ⟨d, t, hd, h⟩ := h
    rw [yields_bind] at h
    obtain ⟨⟨w, ms⟩, u, hstore, h⟩ := h
    simp only [definition, yields_ofExcept] at hd
    obtain ⟨hd, rfl⟩ := hd
    obtain ⟨db, hload, rfl⟩ := (yields_store ..).1 hstore
    refine ⟨(w, ms), (yields_load.1 hload).1, ?_⟩
    simp only at h
    split at h
    · simp at h
    · rename_i m hm
      simp only [yields_bind, renderPrompt, yields_ofExcept, yields_pure] at h
      obtain ⟨prompt, _, ⟨hrender, rfl⟩, credentials, _, hcredentials, rfl, rfl⟩ := h
      refine ⟨?_, yields_credentialsFor_iff.1 ⟨_, hcredentials⟩, rfl⟩
      simp only [prompt?, hd, hm]
      exact congrArg some hrender
  · rintro ⟨scope, hload, hprompt, hresolve, hjson⟩
    simp only [prompt?] at hprompt
    split at hprompt
    · rename_i d m hd hm
      obtain ⟨t, hcredentials⟩ := (yields_credentialsFor_iff (s := s)).2 hresolve
      have hstored : Yields (store (load job.world)) s scope s :=
        Yields.store s (yields_load.2 ⟨hload, rfl⟩)
      refine ⟨t, Yields.bind ((yields_ofExcept ..).2 ⟨hd, rfl⟩) (hstored.bind ?_)⟩
      simp only [hm]
      refine Yields.bind ((yields_ofExcept ..).2 ⟨Option.some.inj hprompt, rfl⟩)
        (hcredentials.bind ?_)
      rw [yields_pure]
      exact ⟨by rw [show false = r.json from hjson.symm], rfl⟩
    · cases hprompt

/-- What is asked for a draft of what was loaded. -/
theorem prompt_of_draftRequestIn {found : World × WorldModule × List WorldModule}
    (h : Yields (e.draftRequestIn id d found) s r t) :
    e.promptOf .draft d.key (Context.draft
        { world := found.1, definition := d, module := found.2.1, others := found.2.2 }
        e.registry) = .ok r.prompt ∧
      e.keyring.resolve found.1.owner = .ok r.credentials ∧ r.json = true := by
  simp only [draftRequestIn, yields_bind, renderPrompt, yields_ofExcept, yields_pure] at h
  obtain ⟨_, _, _, credentials, _, hcredentials, prompt, _, ⟨hrender, rfl⟩, rfl, rfl⟩ := h
  exact ⟨hrender, yields_credentialsFor_iff.1 ⟨_, hcredentials⟩, rfl⟩

/-- What is asked for a draft is a function of what was loaded for it. -/
theorem request?_of_draftRequestIn {module : String} (hd : e.registry.require module = .ok d)
    {found : World × WorldModule × List WorldModule} {s' t' : Studio}
    (hfound : Yields (loadScope id owner d) s found s')
    (h : Yields (e.draftRequestIn id d found) t r t') :
    ∃ scope, s.db.loaded? id = some scope ∧ e.request? (.draft id module owner) scope = some r := by
  obtain ⟨hload, howned, mid, now, hm⟩ := loaded?_of_loadScope hfound
  obtain ⟨hprompt, hresolve, hjson⟩ := prompt_of_draftRequestIn h
  refine ⟨_, hload, request?_eq_some.2 ⟨?_, hresolve, hjson⟩⟩
  rw [hm, context_draft_moduleAmong e d (found.1, found.2.2)] at hprompt
  simp only [prompt?, hd, howned, if_true]
  exact congrArg some hprompt

/-- What is asked for a refinement is a function of what is loaded of its world. -/
theorem yields_refineRequest_iff {module field text : String} {instruction : Option String}
    {f : FieldDefinition} (hd : e.registry.require module = .ok d)
    (hf : e.registry.requireField module field = .ok f) (htext : Text.isBlank text = false) :
    (∃ t, Yields (e.refineRequest id d f owner text instruction) s r t) ↔
      ∃ scope, s.db.loaded? id = some scope ∧
        e.request? (.refinement id module field owner text instruction) scope = some r := by
  simp only [request?_eq_some, prompt?, hd, hf, htext, true_and]
  constructor
  · rintro ⟨t, h⟩
    rw [refineRequest, yields_bind] at h
    obtain ⟨⟨w, m, ms⟩, u, hfound, h⟩ := h
    obtain ⟨hload, howned, mid, now, hm⟩ := loaded?_of_loadScope hfound
    simp only [yields_bind, renderPrompt, yields_ofExcept, yields_pure] at h
    obtain ⟨credentials, _, hcredentials, prompt, _, ⟨hrender, rfl⟩, rfl, rfl⟩ := h
    refine ⟨(w, ms), hload, ?_, yields_credentialsFor_iff.1 ⟨_, hcredentials⟩, rfl⟩
    rw [show m = moduleAmong d (w, ms) mid now from hm,
      context_refine_moduleAmong e d f text instruction (w, ms)] at hrender
    rw [if_pos howned]
    exact congrArg some hrender
  · rintro ⟨scope, hload, hprompt, hresolve, hjson⟩
    by_cases howned : scope.1.isOwnedBy owner = true
    · rw [if_pos howned] at hprompt
      obtain ⟨mid, now, u, hfound⟩ := yields_loadScope (d := d) hload howned
      obtain ⟨t, hcredentials⟩ := (yields_credentialsFor_iff (s := u)).2 hresolve
      have hrender := Option.some.inj hprompt
      rw [← context_refine_moduleAmong e d f text instruction scope mid now] at hrender
      refine ⟨t, hfound.bind (hcredentials.bind
        (Yields.bind ((yields_ofExcept ..).2 ⟨hrender, rfl⟩) ?_))⟩
      rw [yields_pure]
      exact ⟨by rw [show false = r.json from hjson.symm], rfl⟩
    · rw [if_neg howned] at hprompt
      cases hprompt

end Engine

/-! ## Serving a purpose -/

/-- What serving a purpose comes to. -/
def Purpose.Result : Purpose → Type
  | content _ => QueueOutcome
  | draft _ _ _ => Except EngineError WorldModule
  | refinement _ _ _ _ _ _ => Except EngineError String

namespace Engine

/-- The operation of a purpose, with a generator. -/
def serve (e : Engine) (g : Generator (StateM Studio)) : (p : Purpose) → StateM Studio p.Result
  | .content job => e.runJob g job
  | .draft world module owner => e.generateModule g world module owner
  | .refinement world module field owner text instruction =>
    e.refineField g world module field owner text instruction

/-- The operation of a purpose, up to the request. -/
def inquiry (e : Engine) : (p : Purpose) → StateM Studio (Inquiry p.Result)
  | .content job => e.jobInquiry job
  | .draft world module owner => e.draftInquiry world module owner
  | .refinement world module field owner text instruction =>
    e.refineInquiry world module field owner text instruction

theorem serve_inquiry (e : Engine) (g : Generator (StateM Studio)) (p : Purpose) :
    e.serve g p = e.inquiry p >>= Inquiry.answered g e.timeout := by
  cases p with
  | content job => exact e.runJob_inquiry g job
  | draft world module owner => exact e.generateModule_inquiry g world module owner
  | refinement world module field owner text instruction =>
    exact e.refineField_inquiry g world module field owner text instruction

/-- A generator is asked for a purpose on a studio. -/
def Asks (e : Engine) (p : Purpose) (s : Studio) (r : GenerationRequest) : Prop :=
  (e.inquiry p s).1.request? = some r

variable {e : Engine} {p : Purpose} {s : Studio} {r : GenerationRequest}

theorem asks_content_iff {job : Job} : e.Asks (.content job) s r ↔
    ∃ scope, s.db.loaded? job.world = some scope ∧ e.request? (.content job) scope = some r :=
  request?_jobInquiry.trans yields_requestFor_iff

/-- A draft is asked for, if at all, for what is loaded. -/
theorem request?_of_asks_draft {world : WorldId} {module : String} {owner : OwnerId}
    (h : e.Asks (.draft world module owner) s r) :
    ∃ scope, s.db.loaded? world = some scope ∧
      e.request? (.draft world module owner) scope = some r := by
  rw [Asks, inquiry, draftInquiry] at h
  cases hd : e.registry.require module with
  | error err =>
    rw [hd] at h
    cases h
  | ok d =>
    rw [hd] at h
    obtain ⟨t, hrequest⟩ := Inquiry.request?_ofRequest.1 h
    rw [draftRequest, yields_bind] at hrequest
    obtain ⟨found, u, hfound, hrequest⟩ := hrequest
    exact request?_of_draftRequestIn hd hfound hrequest

theorem asks_refinement_iff {world : WorldId} {module field : String} {owner : OwnerId}
    {text : String} {instruction : Option String} :
    e.Asks (.refinement world module field owner text instruction) s r ↔
      ∃ scope, s.db.loaded? world = some scope ∧
        e.request? (.refinement world module field owner text instruction) scope = some r := by
  -- With a text, a module and a field, both sides are about the request of the operation.
  have hiff {d : ModuleDefinition} {f : FieldDefinition} (htext : Text.isBlank text = false)
      (hd : e.registry.require module = .ok d)
      (hf : e.registry.requireField module field = .ok f) :
      e.Asks (.refinement world module field owner text instruction) s r ↔
        ∃ scope, s.db.loaded? world = some scope ∧
          e.request? (.refinement world module field owner text instruction) scope = some r := by
    rw [Asks, inquiry, refineInquiry, if_neg (Bool.eq_false_iff.1 htext), hd, hf]
    exact Inquiry.request?_ofRequest.trans (yields_refineRequest_iff hd hf htext)
  constructor
  · intro h
    have hasks := h
    rw [Asks, inquiry, refineInquiry] at h
    by_cases htext : Text.isBlank text = true
    · rw [if_pos htext] at h
      cases h
    rw [if_neg htext] at h
    rcases hd : e.registry.require module with err | d
    · rw [hd] at h
      cases h
    rcases hf : e.registry.requireField module field with err | f
    · rw [hd, hf] at h
      cases h
    · exact (hiff (Bool.eq_false_iff.2 htext) hd hf).1 hasks
  · rintro ⟨scope, hload, hrequest⟩
    have hprompt := (request?_eq_some.1 hrequest).1
    simp only [prompt?] at hprompt
    split at hprompt
    · rename_i d f hd hf
      split at hprompt
      · rename_i howned
        exact (hiff howned.1 hd hf).2 ⟨scope, hload, hrequest⟩
      · cases hprompt
    · cases hprompt

/-- Anything but a draft is asked for exactly where what is loaded gives a request. -/
theorem asks_iff (hdraft : p.wantsJson = false) : e.Asks p s r ↔
    ∃ scope, s.db.loaded? p.world = some scope ∧ e.request? p scope = some r := by
  cases p with
  | content job => exact asks_content_iff
  | draft world module owner => cases hdraft
  | refinement world module field owner text instruction => exact asks_refinement_iff

/-- What is asked for a purpose is a function of what is loaded of its world. -/
theorem Asks.request? (h : e.Asks p s r) :
    ∃ scope, s.db.loaded? p.world = some scope ∧ e.request? p scope = some r := by
  cases p with
  | draft world module owner => exact request?_of_asks_draft h
  | content job => exact (asks_iff rfl).1 h
  | refinement world module field owner text instruction => exact (asks_iff rfl).1 h

/-- On databases that agree on the world of a purpose, the same is asked. -/
theorem Asks.agree {p' : Purpose} {s' : Studio} {r' : GenerationRequest} (halike : p.Alike p')
    (hagrees : Database.AgreesOn p.world s.db s'.db) (h : e.Asks p s r) (h' : e.Asks p' s' r') :
    r' = r := by
  obtain ⟨scope, hload, hrequest⟩ := h.request?
  obtain ⟨scope', hload', hrequest'⟩ := h'.request?
  rw [halike.world_eq, hagrees.loaded?_eq, hload] at hload'
  obtain rfl := Option.some.inj hload'
  rw [request?_of_alike halike, hrequest] at hrequest'
  exact (Option.some.inj hrequest').symm

/-- Where no queue can hold it back, it is asked on both. -/
theorem asks_iff_of_agree {p' : Purpose} {s' : Studio} (halike : p.Alike p')
    (hdraft : p.wantsJson = false) (hagrees : Database.AgreesOn p.world s.db s'.db) :
    e.Asks p s r ↔ e.Asks p' s' r := by
  rw [asks_iff hdraft, asks_iff (halike.wantsJson_eq.trans hdraft), halike.world_eq,
    hagrees.loaded?_eq]
  simp only [request?_of_alike halike]

end Engine

/-! ## Calls in flight -/

open Engine

/-- A call in flight has asked a generator. -/
inductive System.Asked (s : System) : Purpose → GenerationRequest → Prop where
  | queue {c : QueueCall} {r : GenerationRequest} (hc : c ∈ s.calls) (hstage : c.stage = .asked r) :
      Asked s (.content c.job) r
  | draft {c : DraftCall} {r : GenerationRequest} (hc : c ∈ s.drafts)
      (hstage : c.stage = .asked r) : Asked s (.draft c.world c.definition.key c.owner) r

/-- The studio that a call notes for its prompt is one of those seen. -/
def QueueCall.Traced (seen : Studio → Prop) (c : QueueCall) : Prop :=
  ∀ s, c.promptedOn = some s → seen s

/-- What a call for a draft has found and asked was loaded from one of the studios seen. -/
structure DraftCall.Traced (e : Engine) (seen : Studio → Prop) (c : DraftCall) : Prop where
  definition : e.registry.require c.definition.key = .ok c.definition
  loaded : ∀ found, c.stage = .loaded found →
    ∃ s t, seen s ∧ Yields (loadScope c.world c.owner c.definition) s found t
  asked : ∀ r, c.stage = .asked r → ∃ s scope, seen s ∧ s.db.loaded? c.world = some scope ∧
    e.request? (.draft c.world c.definition.key c.owner) scope = some r

namespace QueueCall.Traced

variable {seen : Studio → Prop} {c : QueueCall} {s : Studio}

theorem ask (h : c.Traced seen) (e : Engine) (hs : seen s) : (c.ask e s).1.Traced seen := by
  unfold QueueCall.ask
  split
  · split
    · intro t ht
      rwa [← Option.some.inj ht]
    · exact h
  · exact h

theorem record (h : c.Traced seen) (content : Except EngineError String) (s : Studio) :
    (c.record content s).1.Traced seen := by
  unfold QueueCall.record
  split <;> exact h

theorem settle (h : c.Traced seen) (reply : GenerationReply) (s : Studio) :
    (c.settle reply s).1.Traced seen := by
  unfold QueueCall.settle
  split
  · exact record (c := { c with answeredOn := some (s, reply) }) h _ s
  · exact h.record _ s
  · exact h

theorem release (h : c.Traced seen) (s : Studio) : (c.release s).1.Traced seen := by
  unfold QueueCall.release
  split <;> exact h

end QueueCall.Traced

namespace DraftCall.Traced

variable {e : Engine} {seen : Studio → Prop} {c : DraftCall}

theorem ended (h : c.Traced e seen) (result : Except EngineError WorldModule) :
    { c with stage := .ended result }.Traced e seen where
  definition := h.definition
  loaded _ hstage := by cases hstage
  asked _ hstage := by cases hstage

theorem ask (h : c.Traced e seen) (s : Studio) : (c.ask e s).1.Traced e seen := by
  unfold DraftCall.ask
  split
  · rename_i found hstage
    obtain ⟨s₀, t₀, hseen, hfound⟩ := h.loaded found hstage
    rcases hrun : e.draftRequestIn c.world c.definition found s with ⟨cause | request, t⟩
    · exact h.ended _
    · refine ⟨h.definition, fun found' hloaded => ?_, fun r hasked => ?_⟩
      · cases hloaded
      obtain rfl := DraftStage.asked.inj hasked
      obtain ⟨scope, hload, hrequest⟩ := request?_of_draftRequestIn h.definition hfound hrun
      exact ⟨s₀, scope, hseen, hload, hrequest⟩
  · exact h

theorem merge (h : c.Traced e seen) (reply : GenerationReply) (s : Studio) :
    (c.merge reply s).1.Traced e seen := by
  unfold DraftCall.merge
  split
  · exact h.ended _
  · exact h

end DraftCall.Traced

/-- What the calls of a system have asked was read from studios seen. -/
structure System.Traced (e : Engine) (seen : Studio → Prop) (s : System) : Prop where
  asked : ∀ c ∈ s.calls, c.Asked e
  calls : ∀ c ∈ s.calls, c.Traced seen
  drafts : ∀ c ∈ s.drafts, c.Traced e seen

namespace System

variable {e : Engine} {seen : Studio → Prop} {s : System}

theorem traced_initial : initial.Traced e seen where
  asked _ hc := by cases hc
  calls _ hc := by cases hc
  drafts _ hc := by cases hc

/-- After a step on one call for a draft, the calls are the one that it left and others. -/
theorem mem_onDraft {f : DraftCall → Studio → DraftCall × Studio} {i : Nat} {c : DraftCall}
    (h : c ∈ (s.onDraft f i).drafts) : c ∈ s.drafts ∨ ∃ c₀ ∈ s.drafts, c = (f c₀ s.studio).1 := by
  unfold onDraft at h
  split at h
  · rename_i c₀ hi
    rcases List.mem_or_eq_of_mem_set h with h | rfl
    · exact Or.inl h
    · exact Or.inr ⟨c₀, List.mem_of_getElem? hi, rfl⟩
  · exact Or.inl h

theorem calls_onDraft (f : DraftCall → Studio → DraftCall × Studio) (i : Nat) (s : System) :
    (s.onDraft f i).calls = s.calls := by
  unfold onDraft
  split <;> rfl

theorem drafts_onCall (f : QueueCall → Studio → QueueCall × Studio) (i : Nat) (s : System) :
    (s.onCall f i).drafts = s.drafts := by
  unfold onCall
  split <;> rfl

theorem drafts_lease (s : System) : s.lease.drafts = s.drafts := by
  unfold lease
  split <;> rfl

/-- A new call for a draft has found what was loaded from the studio. -/
theorem traced_openDraft {world : WorldId} {module : String} {owner : OwnerId}
    (h : ∀ c ∈ s.drafts, c.Traced e seen) (hs : seen s.studio) :
    ∀ c ∈ (s.openDraft e world module owner).drafts, c.Traced e seen := by
  unfold openDraft
  split
  · exact h
  · rename_i d hd
    split
    · rename_i found t hfound
      intro c hc
      rcases List.mem_append.1 hc with hc | hc
      · exact h c hc
      · obtain rfl := List.mem_singleton.1 hc
        refine ⟨by rw [Registry.key_of_require hd, hd], fun found' hstage => ?_, fun r hstage => ?_⟩
        · obtain rfl := DraftStage.loaded.inj hstage
          exact ⟨s.studio, t, hs, hfound⟩
        · cases hstage
    · exact h

/-- Every event keeps what calls have asked read from studios seen. -/
theorem Traced.step (h : s.Traced e seen) (hs : seen s.studio) (ev : Event) :
    (s.step e ev).Traced e seen := by
  have hcall {f : QueueCall → Studio → QueueCall × Studio} {i : Nat}
      (hf : ∀ c : QueueCall, c.Traced seen → (f c s.studio).1.Traced seen) :
      ∀ c ∈ (s.onCall f i).calls, c.Traced seen := by
    intro c hc
    rcases mem_onCall hc with hc | ⟨c₀, hc₀, rfl⟩
    · exact h.calls c hc
    · exact hf c₀ (h.calls c₀ hc₀)
  have hdraft {f : DraftCall → Studio → DraftCall × Studio} {i : Nat}
      (hf : ∀ c : DraftCall, c.Traced e seen → (f c s.studio).1.Traced e seen) :
      ∀ c ∈ (s.onDraft f i).drafts, c.Traced e seen := by
    intro c hc
    rcases mem_onDraft hc with hc | ⟨c₀, hc₀, rfl⟩
    · exact h.drafts c hc
    · exact hf c₀ (h.drafts c₀ hc₀)
  refine ⟨asked_step h.asked ev, ?_, ?_⟩
  · cases ev with
    | ask i => exact hcall fun c hc => hc.ask e hs
    | settle i reply => exact hcall fun c hc => hc.settle reply s.studio
    | release i => exact hcall fun c hc => hc.release s.studio
    | lease =>
      obtain ⟨opened, _, _, _, hcalls⟩ := lease_effect e s
      intro c hc
      rw [show (s.step e .lease).calls = _ from hcalls, List.mem_append, List.mem_map] at hc
      rcases hc with hc | ⟨job, _, rfl⟩
      · exact h.calls c hc
      · intro t ht
        cases ht
    | openDraft world module owner =>
      rw [show (s.step e (.openDraft world module owner)).calls = _ from
        (openDraft_effect e s world module owner).2]
      exact h.calls
    | askDraft i =>
      rw [show (s.step e (.askDraft i)).calls = _ from calls_onDraft ..]
      exact h.calls
    | mergeDraft i reply =>
      rw [show (s.step e (.mergeDraft i reply)).calls = _ from calls_onDraft ..]
      exact h.calls
    | setClock time => exact h.calls
    | command cmd => exact h.calls
  · cases ev with
    | askDraft i => exact hdraft fun c hc => hc.ask s.studio
    | mergeDraft i reply => exact hdraft fun c hc => hc.merge reply s.studio
    | openDraft world module owner => exact traced_openDraft h.drafts hs
    | ask i =>
      rw [show (s.step e (.ask i)).drafts = _ from drafts_onCall ..]
      exact h.drafts
    | settle i reply =>
      rw [show (s.step e (.settle i reply)).drafts = _ from drafts_onCall ..]
      exact h.drafts
    | release i =>
      rw [show (s.step e (.release i)).drafts = _ from drafts_onCall ..]
      exact h.drafts
    | lease =>
      rw [show (s.step e .lease).drafts = _ from drafts_lease s]
      exact h.drafts
    | setClock time => exact h.drafts
    | command cmd => exact h.drafts

/-- The studio is one that a run passes through. -/
def Passes (e : Engine) (events : List Event) (t : Studio) : Prop :=
  ∃ before, before <+: events ∧ t = (run e before).studio

/-- In every run, what calls have asked was read from studios that the run passes through. -/
theorem traced_run (e : Engine) (events : List Event) :
    (run e events).Traced e (Passes e events) := by
  -- The induction is over the events so far, for a fixed list of all of them.
  have hbefore (before : List Event) :
      before <+: events → (run e before).Traced e (Passes e events) := by
    induction before using List.reverseRecOn with
    | nil => exact fun _ => traced_initial
    | append_singleton before ev ih =>
      intro hprefix
      have hpass : before <+: events := (List.prefix_append before [ev]).trans hprefix
      rw [run_append]
      exact (ih hpass).step ⟨before, hpass, rfl⟩ ev
  exact hbefore events List.prefix_rfl

/-- In every run, what is asked is a function of what was loaded at some point of the run. -/
theorem request?_of_asked {e : Engine} {events : List Event} {p : Purpose} {r : GenerationRequest}
    (h : (run e events).Asked p r) : ∃ before, before <+: events ∧ ∃ scope,
      (run e before).studio.db.loaded? p.world = some scope ∧ e.request? p scope = some r := by
  have htraced := traced_run e events
  cases h with
  | queue hc hstage =>
    obtain ⟨t, u, hprompted, hrequest⟩ := htraced.asked _ hc r hstage
    obtain ⟨before, hpass, rfl⟩ := htraced.calls _ hc t hprompted
    exact ⟨before, hpass, yields_requestFor_iff.1 ⟨u, hrequest⟩⟩
  | draft hc hstage =>
    obtain ⟨t, scope, ⟨before, hpass, rfl⟩, hload, hrequest⟩ := (htraced.drafts _ hc).asked r hstage
    exact ⟨before, hpass, scope, hload, hrequest⟩

end System

/-! ## What reaches a generator -/

/-- What reaches a generator, and on whose behalf. -/
structure Engine.Prompting (e : Engine) : Prop where
  /-- A generator is called for a purpose with what is asked for it, or not at all. -/
  serve : ∀ (g : Generator (StateM Studio)) p,
    e.serve g p = e.inquiry p >>= Inquiry.answered g e.timeout
  /-- What processing the queue asks is asked for the job that it takes. -/
  processQueue : ∀ (g : Generator (StateM Studio)),
    e.processQueue g = e.queueInquiry >>= Inquiry.answered g e.timeout ∧
      ∀ s r, (e.queueInquiry s).1.request? = some r → ∃ job t,
        (takeJob : StateM Studio _) s = (.ok (some job), t) ∧ e.Asks (.content job) t r
  /-- What is asked is a function of the purpose and of the world and its modules as loaded. -/
  asks : ∀ p s r, e.Asks p s r → ∃ scope,
    s.db.loaded? p.world = some scope ∧ e.request? p scope = some r
  /-- So it is with the calls in flight of every run, which loaded the world earlier in the run. -/
  asked : ∀ events p r, (System.run e events).Asked p r → ∃ before, before <+: events ∧ ∃ scope,
    (System.run e before).studio.db.loaded? p.world = some scope ∧ e.request? p scope = some r
  /-- The key is that of the owner of the world, and not blank. -/
  key : ∀ p db scope r, Database.loaded? db p.world = some scope → e.request? p scope = some r →
    db.LiveWorld p.world scope.1 ∧ e.keyring.resolve scope.1.owner = .ok r.credentials ∧
      Text.isBlank r.credentials.apiKey = false
  /-- On databases that agree on the world of two purposes that are alike, the same is asked. -/
  agree : ∀ p p' s s', p.Alike p' → Database.AgreesOn p.world s.db s'.db →
    ∀ r r', e.Asks p s r → e.Asks p' s' r' → r' = r
  /-- Only the queue can keep a draft from being asked for on the one and not on the other. -/
  agree_iff : ∀ p p' s s', p.Alike p' → p.wantsJson = false →
    Database.AgreesOn p.world s.db s'.db → ∀ r, e.Asks p s r ↔ e.Asks p' s' r
  /-- Without a key nothing is asked. -/
  silent_of_key : ∀ p s scope cause, s.db.loaded? p.world = some scope →
    e.keyring.resolve scope.1.owner = .error cause → ∀ r, ¬ e.Asks p s r
  /-- Where the template fails nothing is asked. -/
  silent_of_template : ∀ p s scope cause, s.db.loaded? p.world = some scope →
    e.prompt? scope p = some (.error cause) → ∀ r, ¬ e.Asks p s r

namespace Engine

variable {e : Engine} {p : Purpose} {s : Studio}

/-- What processing the queue asks is asked for the job that it takes. -/
theorem asks_of_queueInquiry {r : GenerationRequest}
    (h : (e.queueInquiry s).1.request? = some r) : ∃ job t,
      (takeJob : StateM Studio _) s = (.ok (some job), t) ∧ e.Asks (.content job) t r := by
  unfold queueInquiry at h
  rw [StateM.bind_run] at h
  rcases htake : (takeJob : StateM Studio _) s with ⟨cause | _ | job, t⟩
  · rw [htake] at h
    cases h
  · rw [htake] at h
    cases h
  · rw [htake] at h
    exact ⟨job, t, rfl, h⟩

/-- What is asked has a prompt and a key, for what is loaded. -/
theorem Asks.prompt_and_key {r : GenerationRequest} (h : e.Asks p s r)
    {scope : World × List WorldModule} (hload : s.db.loaded? p.world = some scope) :
    e.prompt? scope p = some (.ok r.prompt) ∧
      e.keyring.resolve scope.1.owner = .ok r.credentials := by
  obtain ⟨found, hfound, hrequest⟩ := h.request?
  obtain rfl := Option.some.inj (hload.symm.trans hfound)
  obtain ⟨hprompt, hresolve, _⟩ := request?_eq_some.1 hrequest
  exact ⟨hprompt, hresolve⟩

/-- Whatever is asked of a generator for a world is asked with the key of the owner of the world,
which is not blank, and a prompt that is a function of the rows of the world and of its modules; and
without a key or a prompt nothing is asked. -/
theorem prompting (e : Engine) : e.Prompting where
  serve := e.serve_inquiry
  processQueue g := ⟨e.processQueue_inquiry g, fun _ _ h => asks_of_queueInquiry h⟩
  asks _ _ _ h := h.request?
  asked _ _ _ h := System.request?_of_asked h
  key _ _ _ _ hload hrequest :=
    ⟨Database.liveWorld_of_loaded? hload, key_of_request? hrequest⟩
  agree _ _ _ _ halike hagrees _ _ h h' := h.agree halike hagrees h'
  agree_iff _ _ _ _ halike hdraft hagrees _ := asks_iff_of_agree halike hdraft hagrees
  silent_of_key _ _ _ _ hload hresolve r h := by
    rw [(h.prompt_and_key hload).2] at hresolve
    cases hresolve
  silent_of_template _ _ _ _ hload hprompt r h := by
    rw [(h.prompt_and_key hload).1] at hprompt
    cases hprompt

/-- What the call for the one job of a published world asks, on behalf of an owner that the shared
key serves. -/
example : ((System.run .minimal [.createFirst, .publishFirst, .lease, .ask 0]).calls.map fun c =>
      match c.stage with
      | .asked request => some request
      | _ => none) =
    [some { prompt := "prompt", credentials := { apiKey := "key" } }] := by
  decide +kernel

end Engine

end Lorebook
