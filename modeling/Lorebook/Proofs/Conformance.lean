import Lorebook.Proofs.Prompting

set_option autoImplicit false

/-! # What is stored follows the registry

Keys enter the database by saving fields, merging drafts, publishing, rebuilding queues and creating
rows of modules on first use; each of these checks them in its own way. `Write.Follows` is what the
checks come to for a write: it stores no key that the registry lacks, no field that the definition
of the module lacks, and no editing status but the one that its field values imply. Every event of a
system with one registry writes in this way (`System.conforms_step`), so every state that is reached
conforms to the registry (`System.inSchema_run`). -/

namespace Lorebook

open Studio Operation Engine

/-! ## Keys of field maps -/

namespace Dictionary

variable {α : Type}

theorem mem_keys_insert {d : Dictionary α} {key k : String} {value : α}
    (h : k ∈ (d.insert key value).keys) : k = key ∨ k ∈ d.keys := by
  obtain ⟨entry, hentry, rfl⟩ := List.mem_map.1 h
  rcases mem_insertEntry hentry with rfl | hentry
  · exact .inl rfl
  · exact .inr (List.mem_map_of_mem hentry)

/-- The keys after entries are inserted are those that were there and those of the entries. -/
theorem mem_keys_insertAll {d : Dictionary α} {entries : List (String × α)} {k : String}
    (h : k ∈ (d.insertAll entries).keys) : k ∈ d.keys ∨ k ∈ entries.map (·.1) := by
  induction entries generalizing d with
  | nil => exact .inl h
  | cons entry rest ih =>
    rcases ih h with h | h
    · rcases mem_keys_insert h with rfl | h
      · exact .inr List.mem_cons_self
      · exact .inl h
    · exact .inr (List.mem_cons_of_mem _ h)

end Dictionary

/-! ## Modules that follow a definition -/

/-- The status is one of those of a module that is being edited and not ready. -/
def ModuleStatus.IsEditing (status : ModuleStatus) : Prop :=
  status = .empty ∨ status = .inProgress

instance : DecidablePred ModuleStatus.IsEditing := fun _ => inferInstanceAs (Decidable (_ ∨ _))

/-- A field map has fields of the definition alone. -/
def FieldMap.Follows (fields : FieldMap) (d : ModuleDefinition) : Prop :=
  ∀ key ∈ fields.keys, (d.field? key).isSome

/-- A module has the key and fields of its definition, and while it is edited the status that its
field values imply. -/
structure WorldModule.Follows (m : WorldModule) (d : ModuleDefinition) : Prop where
  key : m.key = d.key
  fields : FieldMap.Follows m.fields d
  status : m.status.IsEditing → m.status = .derive d m.fields

/-- A stored module has the key and fields of its definition, and while it is edited the status that
its field values imply. -/
structure ModuleRow.Follows (r : ModuleRow) (d : ModuleDefinition) : Prop where
  key : r.key = .text d.key
  fields : ∃ fields, r.fieldValues? = some fields ∧ FieldMap.Follows fields d ∧
    ∀ status : ModuleStatus, status.IsEditing → r.status = .text status.text →
      status = .derive d fields

theorem FieldMap.follows_empty (d : ModuleDefinition) : FieldMap.Follows .empty d :=
  fun _ hkey => by cases hkey

theorem FieldMap.Follows.insertAll {fields : FieldMap} {d : ModuleDefinition}
    (h : FieldMap.Follows fields d) {values : List (String × String)}
    (hvalues : ∀ v ∈ values, (d.field? v.1).isSome) :
    FieldMap.Follows (Dictionary.insertAll fields values) d := by
  intro key hkey
  rcases Dictionary.mem_keys_insertAll hkey with hkey | hkey
  · exact h key hkey
  · obtain ⟨v, hv, rfl⟩ := List.mem_map.1 hkey
    exact hvalues v hv

/-- What is written of a module that follows its definition follows it, in a row of the same key. -/
theorem WorldModule.Follows.row {m : WorldModule} {d : ModuleDefinition} (h : m.Follows d)
    {r : ModuleRow} (hkey : r.key = .text m.key)
    (hfields : r.fields = (ModuleRow.ofModule m).fields)
    (hstatus : r.status = (ModuleRow.ofModule m).status) : r.Follows d where
  key := by rw [hkey, h.key]
  fields := by
    refine ⟨m.fields, ModuleRow.fieldValues?_eq hfields, h.fields, fun status hediting heq => ?_⟩
    obtain rfl : m.status = status :=
      ModuleStatus.text_inj (Cell.text.inj (hstatus.symm.trans heq))
    exact h.status hediting

/-- A module that is read from a row follows the definition that the row follows. -/
theorem ModuleRow.Follows.module {r : ModuleRow} {d : ModuleDefinition} (h : r.Follows d)
    {m : WorldModule} (hdecode : r.decode = .ok m) : m.Follows d := by
  have hholds := holds_of_decode hdecode
  obtain ⟨fields, hread, hfields, hstatus⟩ := h.fields
  obtain rfl : m.fields = fields := Option.some.inj (hholds.fieldValues?_eq.symm.trans hread)
  exact ⟨Cell.text.inj (hholds.key.symm.trans h.key), hfields,
    fun hediting => hstatus m.status hediting hholds.status⟩

/-- A module that is not edited any more follows its definition as its fields do. -/
theorem WorldModule.Follows.of_fields {m m' : WorldModule} {d : ModuleDefinition} (h : m.Follows d)
    (hkey : m'.key = m.key) (hfields : m'.fields = m.fields) (hstatus : ¬ m'.status.IsEditing) :
    m'.Follows d where
  key := hkey.trans h.key
  fields := by rw [hfields]; exact h.fields
  status hediting := absurd hediting hstatus

namespace WorldModule.Follows

variable {m : WorldModule} {d : ModuleDefinition}

theorem withFields (h : m.Follows d) {values : List (String × String)}
    (hvalues : ∀ v ∈ values, (d.field? v.1).isSome) (owner : OwnerId) (now : Instant) :
    ((withFields d values m).touch (some owner) now).Follows d where
  key := h.key
  fields := h.fields.insertAll hvalues
  status _ := rfl

theorem drafted (h : m.Follows d) {values : List (String × String)}
    (hvalues : ∀ v ∈ values, (d.field? v.1).isSome) (owner : OwnerId) (now : Instant) :
    ((drafted values m).touch (some owner) now).Follows d where
  key := h.key
  fields := h.fields.insertAll hvalues
  status hediting := absurd hediting (show ¬ ModuleStatus.IsEditing .ready by decide)

theorem awaiting (h : m.Follows d) (owner : OwnerId) (now : Instant) :
    (awaiting owner now m).Follows d :=
  h.of_fields rfl rfl (show ¬ ModuleStatus.IsEditing .awaitingGeneration by decide)

theorem completed (h : m.Follows d) (content : String) (now : Instant) :
    (completed content now m).Follows d :=
  h.of_fields rfl rfl (show ¬ ModuleStatus.IsEditing .completed by decide)

end WorldModule.Follows

/-! ## Databases that conform -/

/-- Every module and every job has a key of the registry, and modules follow their definitions. -/
structure Database.Conforms (registry : Registry) (db : Database) : Prop where
  modules : ∀ r ∈ db.modules, ∃ d ∈ registry.modules, r.Follows d
  jobs : ∀ r ∈ db.jobs, ∃ d ∈ registry.modules, r.moduleKey = .text d.key

/-- What is stored of modules and jobs follows the registry. -/
def Write.Follows (registry : Registry) : Write → Prop
  | saveModule m => ∃ d ∈ registry.modules, m.Follows d
  | addJob j => j.moduleKey ∈ registry.keys
  | _ => True

namespace Database.Conforms

variable {registry : Registry} {db db' : Database}

theorem empty : Database.empty.Conforms registry where
  modules _ hr := by cases hr
  jobs _ hr := by cases hr

/-- A write that follows the registry keeps a database that conforms to it. -/
theorem apply (h : db.Conforms registry) (hids : (db.jobs.map (·.id)).Nodup) {w : Write}
    (hallowed : w.Allowed db) (hw : w.Follows registry) : (w.apply db).Conforms registry where
  modules r hr := by
    cases w with
    | saveModule m =>
      obtain ⟨d, hd, hm⟩ := hw
      simp only [Write.apply_modules, Write.onModules] at hr
      split at hr
      · obtain ⟨q, hq, rfl⟩ := List.mem_map.1 hr
        split
        · rename_i hof
          exact ⟨d, hd, hm.row (Modules.isOf_iff.1 hof).2 rfl rfl⟩
        · exact h.modules q hq
      · rcases List.mem_append.1 hr with hr | hr
        · exact h.modules r hr
        · rw [List.mem_singleton.1 hr]
          exact ⟨d, hd, hm.row rfl rfl rfl⟩
    | removeWorld id => exact h.modules r (List.mem_filter.1 hr).1
    | _ => exact h.modules r hr
  jobs r hr := by
    rcases Write.mem_onJobs hr with ⟨q, hq, rfl⟩ | ⟨j, rfl, rfl⟩
    · rw [(Write.jobChange hallowed hids hq).names_eq.2.2.1]
      exact h.jobs q hq
    · obtain ⟨d, hd, hkey⟩ := List.mem_map.1 (show j.moduleKey ∈ registry.keys from hw)
      exact ⟨d, hd, congrArg Cell.text hkey.symm⟩

theorem journal (h : db.Conforms registry) (hdb : db.Sound) {ws : List Write}
    (hjournal : Journal db ws db') (hws : ∀ w ∈ ws, w.Follows registry) :
    db'.Conforms registry :=
  (hjournal.invariant (I := fun d => d.Sound ∧ d.Conforms registry)
    (fun w hw _ hallowed hd => ⟨hd.1.apply hallowed, hd.2.apply hd.1.jobIds hallowed (hws w hw)⟩)
    ⟨hdb, h⟩).2

theorem stored (h : db.Conforms registry) {world : WorldId} {key : String} {m : WorldModule}
    (hm : db.StoredModule world key m) : ∃ d ∈ registry.modules, m.Follows d := by
  obtain ⟨row, hfind, hdecode⟩ := hm
  obtain ⟨d, hd, hrow⟩ := h.modules row (List.mem_of_find?_eq_some hfind)
  exact ⟨d, hd, hrow.module hdecode⟩

/-- The module that an operation finds for a definition follows it. -/
theorem current (h : db.Conforms registry) {world : WorldId} {d : ModuleDefinition}
    (hd : d ∈ registry.modules) {m : WorldModule} (hm : CurrentModule db world d m) :
    m.Follows d := by
  cases hm with
  | stored hstored =>
    obtain ⟨c, hc, hfollows⟩ := h.stored hstored
    obtain rfl := Registry.eq_of_key hc hd (hfollows.key.symm.trans hstored.key_eq)
    exact hfollows
  | fresh => exact ⟨rfl, FieldMap.follows_empty d, fun _ => rfl⟩

/-- Marking the module of a job follows the registry, unless it marks it as being edited. -/
theorem marks (h : db.Conforms registry) {job : Job} {status : ModuleStatus} {now : Instant}
    {ws : List Write} (hmarks : Marks db job status now ws) (hstatus : ¬ status.IsEditing) :
    ∀ w ∈ ws, w.Follows registry := by
  cases hmarks with
  | absent => simp
  | stored hstored =>
    obtain ⟨d, hd, hm⟩ := h.stored hstored
    exact List.forall_mem_singleton.2 ⟨d, hd, hm.of_fields rfl rfl hstatus⟩

end Database.Conforms

/-! ## The checks of the operations -/

namespace Engine

variable {e : Engine} {world : WorldId} {owner : OwnerId} {s s' : Studio}

/-- Saving fields succeeds for fields of the module alone. -/
theorem field_of_saveModuleFields {module : String} {fields : List (String × String)}
    {m : WorldModule} (h : Yields (e.saveModuleFields world module owner fields) s m s')
    {d : ModuleDefinition} (hd : e.registry.require module = .ok d) :
    ∀ f ∈ fields, (d.field? f.1).isSome := by
  simp only [saveModuleFields, definition, yields_bind, yields_ofExcept] at h
  obtain ⟨d', _, ⟨hd', rfl⟩, h⟩ := h
  obtain rfl := Except.ok.inj (hd.symm.trans hd')
  split at h
  · simp at h
  · rename_i hnone
    intro f hf
    simpa [Option.isNone_iff_eq_none, Option.isSome_iff_ne_none] using
      List.find?_eq_none.1 hnone f hf

end Engine

/-- A draft proposes fields of its module alone, whatever the reply. -/
theorem DraftCall.field_of_accepted (c : DraftCall) (reply : GenerationReply) :
    ∀ f ∈ c.accepted reply, (c.definition.field? f.1).isSome := by
  intro f hf
  unfold accepted at hf
  split at hf
  · split at hf
    · rename_i proposed hproposed
      unfold parseProposal at hproposed
      split at hproposed
      · cases hproposed
      · cases hproposed
        obtain ⟨entry, hentry, hf⟩ := List.mem_filterMap.1 hf
        obtain ⟨text, -, rfl⟩ := Option.map_eq_some_iff.1 hf
        exact (List.mem_filter.1 hentry).2
      · cases hproposed
    · cases hf
  · cases hf

/-! ## Events -/

/-- Whether an event checks the keys that it stores. -/
def Event.checksKeys : Event → Bool
  | .command (.saveModuleFields _ _ _ _) => true
  | .command (.initializeJobs _ _) => true
  | .mergeDraft _ _ => true
  | _ => false

/-- What an event writes that checks no keys follows the registry, as the keys are those of the
registry or of what is stored. -/
theorem Effect.follows {e : Engine} {s : System} {ev : Event} {opened : List Job} {ws : List Write}
    (h : Effect e s ev opened ws) (hs : s.studio.db.Conforms e.registry)
    (hev : ev.checksKeys = false)
    (hsweep : ∀ timeout, ev ≠ .command (.recoverStaleLeases timeout)) :
    ∀ w ∈ ws, w.Follows e.registry := by
  cases h with
  | nothing => simp
  | saveFields => cases hev
  | rebuild => cases hev
  | merge => cases hev
  | sweep => exact absurd rfl (hsweep _)
  | createWorld => simp [Write.Follows]
  | activate => simp [Write.Follows]
  | hide => simp [Write.Follows]
  | remove => simp [Write.Follows]
  | @enqueue id owner w ms now js hlive hms hstale hqueue hidle =>
    have hcurrent : ∀ m ∈ stale ms, ∃ d ∈ e.registry.modules, m.Follows d := fun m hm => by
      obtain ⟨d, hd, hcurrent⟩ := hms.exists_definition (List.mem_filter.1 hm).1
      exact ⟨d, hd, hs.current hd hcurrent⟩
    intro w hw
    simp only [List.mem_append, List.mem_map, List.mem_cons] at hw
    rcases hw with ⟨m, hm, rfl⟩ | rfl | rfl | ⟨j, hj, rfl⟩
    · obtain ⟨d, hd, hfollows⟩ := hcurrent m hm
      exact ⟨d, hd, hfollows.awaiting owner now⟩
    · trivial
    · trivial
    · obtain ⟨m, hm, hkey⟩ := List.mem_map.1 (hqueue.key_mem hj)
      obtain ⟨d, hd, hfollows⟩ := hcurrent m hm
      exact List.mem_map.2 ⟨d, hd, hfollows.key.symm.trans hkey⟩
  | @retry world module owner w job m now r hlive hr hworld hkey hdecode hm =>
    obtain ⟨d, hd, hfollows⟩ := hs.stored hm
    intro w hw
    simp only [List.cons_append, List.nil_append, List.mem_cons] at hw
    rcases hw with rfl | rfl | hw
    · trivial
    · exact ⟨d, hd, hfollows.awaiting owner now⟩
    · split at hw
      · cases hw
      · rw [List.mem_singleton.1 hw]
        trivial
  | lease hdecode hmarks =>
    exact List.forall_mem_cons.2 ⟨trivial, hs.marks hmarks (by decide)⟩
  | @complete i reply c request content w m now activated hc hstage hcontent hlive hm =>
    obtain ⟨d, hd, hfollows⟩ := hs.stored hm
    intro w hw
    simp only [List.cons_append, List.nil_append, List.mem_cons] at hw
    rcases hw with rfl | rfl | hw
    · trivial
    · exact ⟨d, hd, hfollows.completed content now⟩
    · split at hw
      · rw [List.mem_singleton.1 hw]
        trivial
      · cases hw
  | fail hc hmarks => exact List.forall_mem_cons.2 ⟨trivial, hs.marks hmarks (by decide)⟩
  | release hc hmarks => exact List.forall_mem_cons.2 ⟨trivial, hs.marks hmarks (by decide)⟩

namespace System

variable {e : Engine} {s : System}

theorem conforms_saveModuleFields (hs : s.Sound) (h : s.studio.db.Conforms e.registry)
    (world : WorldId) (module : String) (owner : OwnerId) (fields : List (String × String)) :
    (s.step e (.command (.saveModuleFields world module owner fields))).studio.db.Conforms
      e.registry := by
  rcases s.command_cases e (c := .saveModuleFields world module owner fields) rfl with
    ⟨m, hrun⟩ | hsame
  · obtain ⟨d, m₀, now, hrequire, hm₀, rfl, hcommit⟩ := commit_saveModuleFields hrun
    have hd := Registry.mem_of_require hrequire
    have hfields := field_of_saveModuleFields hrun hrequire
    exact h.journal hs.db hcommit.journal
      (List.forall_mem_singleton.2 ⟨d, hd, (h.current hd hm₀).withFields hfields owner now⟩)
  · rw [hsame.1]
    exact h

theorem conforms_initializeJobs (hs : s.Sound) (h : s.studio.db.Conforms e.registry)
    (world : WorldId) (keys : List String) :
    (s.step e (.command (.initializeJobs world keys))).studio.db.Conforms e.registry := by
  rcases s.command_cases e (c := .initializeJobs world keys) rfl with ⟨js, hrun⟩ | hsame
  · obtain ⟨-, hqueue, -, hcommit⟩ := commit_initializeJobs hrun
    have hkeys := mem_keys_of_initializeJobs hrun
    refine h.journal hs.db hcommit.journal (List.forall_mem_cons.2 ⟨trivial, fun w hw => ?_⟩)
    obtain ⟨j, hj, rfl⟩ := List.mem_map.1 hw
    exact hkeys _ (hqueue.key_mem hj)
  · rw [hsame.1]
    exact h

theorem conforms_recoverStaleLeases (hs : s.Sound) (h : s.studio.db.Conforms e.registry)
    (timeout : Span) :
    (s.step e (.command (.recoverStaleLeases timeout))).studio.db.Conforms e.registry := by
  rcases s.command_cases e (c := .recoverStaleLeases timeout) rfl with ⟨js, hrun⟩ | hsame
  · refine (recoverStaleLeases_invariant (I := fun d => d.Sound ∧ d.Conforms e.registry) hrun
      (fun d d' job now ws hmarks hjournal hd => ⟨hd.1.journal hjournal, ?_⟩) ⟨hs.db, h⟩).2
    exact hd.2.journal hd.1 hjournal
      (List.forall_mem_cons.2 ⟨trivial, hd.2.marks hmarks (by decide)⟩)
  · rw [hsame.1]
    exact h

theorem conforms_mergeDraft (hs : s.Sound) (h : s.studio.db.Conforms e.registry)
    (hdrafts : ∀ c ∈ s.drafts, c.definition ∈ e.registry.modules) (i : Nat)
    (reply : GenerationReply) :
    (s.step e (.mergeDraft i reply)).studio.db.Conforms e.registry := by
  rcases s.mergeDraft_cases e i reply with ⟨c, t, m, hc, ht, -, hrun⟩ | ⟨-, hsame⟩
  · have hd := hdrafts c (List.mem_of_getElem? hc)
    obtain ⟨m₀, now, hm₀, rfl, hcommit⟩ := commit_mergeDraft hrun
    have hjournal := hcommit.journal
    rw [ht] at hm₀ hjournal
    exact h.journal hs.db hjournal (List.forall_mem_singleton.2
      ⟨c.definition, hd, (h.current hd hm₀).drafted (c.field_of_accepted reply) c.owner now⟩)
  · rw [hsame.1]
    exact h

/-- Every event keeps a database that conforms to the registry. -/
theorem conforms_step (hs : s.Sound) (h : s.studio.db.Conforms e.registry)
    (hdrafts : ∀ c ∈ s.drafts, c.definition ∈ e.registry.modules) (ev : Event) :
    (s.step e ev).studio.db.Conforms e.registry := by
  have hothers (hev : ev.checksKeys = false)
      (hsweep : ∀ timeout, ev ≠ .command (.recoverStaleLeases timeout)) :
      (s.step e ev).studio.db.Conforms e.registry := by
    obtain ⟨opened, ws, heffect, hcommit, -⟩ := s.step_effect e ev
    exact h.journal hs.db hcommit.journal (heffect.follows h hev hsweep)
  cases ev with
  | command c =>
    cases c with
    | saveModuleFields world module owner fields =>
      exact conforms_saveModuleFields hs h world module owner fields
    | initializeJobs world keys => exact conforms_initializeJobs hs h world keys
    | recoverStaleLeases timeout => exact conforms_recoverStaleLeases hs h timeout
    | _ => exact hothers rfl fun _ heq => by cases heq
  | mergeDraft i reply => exact conforms_mergeDraft hs h hdrafts i reply
  | _ => exact hothers rfl fun _ heq => by cases heq

/-- In every run, the database conforms to the registry. -/
theorem conforms_run (e : Engine) (events : List Event) :
    (run e events).studio.db.Conforms e.registry := by
  -- The definitions of the calls for drafts are carried along with what those calls were told.
  have hrun : (run e events).studio.db.Conforms e.registry ∧
      (run e events).Traced e fun _ => True := by
    refine Sound.induction_of
      (P := fun s => s.studio.db.Conforms e.registry ∧ s.Traced e fun _ => True)
      ⟨.empty, traced_initial⟩ fun s ev _ hs h => ?_
    have hdrafts : ∀ c ∈ s.drafts, c.definition ∈ e.registry.modules := fun c hc =>
      Registry.mem_of_require (h.2.drafts c hc).definition
    exact ⟨conforms_step hs h.1 hdrafts ev, h.2.step trivial ev⟩
  exact hrun.1

end System

/-! ## What is stored -/

/-- The database stays inside the schema of a registry. -/
structure Database.InSchema (registry : Registry) (db : Database) : Prop where
  /-- The key of every module is one of the registry; its field values are of fields of that module,
  and while it is empty or in progress they imply that status. -/
  modules : ∀ r ∈ db.modules, ∃ d ∈ registry.modules, r.key = .text d.key ∧
    ∃ fields, r.fieldValues? = some fields ∧ (∀ key ∈ fields.keys, (d.field? key).isSome) ∧
      (r.status = .text ModuleStatus.empty.text ∨ r.status = .text ModuleStatus.inProgress.text →
        r.status = .text (ModuleStatus.derive d fields).text)
  /-- The key of every job is one of the registry. -/
  jobs : ∀ r ∈ db.jobs, ∃ d ∈ registry.modules, r.moduleKey = .text d.key
  /-- Definitions have distinct keys. -/
  definitions : (registry.modules.map (·.key)).Nodup
  /-- A world has at most one module of a key. -/
  moduleKeys : (db.modules.map fun r => (r.world, r.key)).Nodup
  /-- A world has at most one job of a key. -/
  jobKeys : (db.jobs.map fun r => (r.world, r.moduleKey)).Nodup

/-- Whatever happens in whatever order, with one registry the database stays inside its schema. -/
theorem System.inSchema_run (e : Engine) (events : List Event) :
    (run e events).studio.db.InSchema e.registry where
  modules r hr := by
    obtain ⟨d, hd, hfollows⟩ := (conforms_run e events).modules r hr
    obtain ⟨fields, hread, hfields, hstatus⟩ := hfollows.fields
    refine ⟨d, hd, hfollows.key, fields, hread, hfields, ?_⟩
    rintro (heq | heq)
    · rw [← hstatus .empty (by decide) heq, heq]
    · rw [← hstatus .inProgress (by decide) heq, heq]
  jobs := (conforms_run e events).jobs
  definitions := e.registry.nodup_keys
  moduleKeys := (Sound.run e events).db.moduleKeys
  jobKeys := (Sound.run e events).db.jobKeys

end Lorebook
