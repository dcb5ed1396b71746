import Lorebook.Proofs.Completion
import Lorebook.Proofs.FieldHistory
import Lorebook.Proofs.Provenance

set_option autoImplicit false

/-! # Completed modules are complete

In a run only a completion makes a module completed, and it stores the content with the fingerprint
of the fields that are there; every edit takes the module out of the status. So a completed module
is always one that can be taken over (`System.finished_of_completed`), and publishing never queues
it (`Engine.Published.passes_over`). `Engine.completeness` puts this together. -/

namespace Lorebook

open Studio Operation Engine

/-! ## Completed modules -/

/-- What trimming gives back is not blank, and has no white space around it. -/
theorem Text.trimmed?_eq_self_iff {text : String} :
    trimmed? text = some text ↔ isBlank text = false ∧ trim text = text := by
  unfold trimmed?
  split <;> simp_all

/-- Every call leaves content that is trimmed. -/
theorem MadeBy.trimmed {e : Engine} {c : QueueCall} {prompted answered m : WorldModule}
    (h : MadeBy e c prompted answered m) :
    ∃ content, m.content = some content ∧ Text.trimmed? content = some content := by
  obtain ⟨_, _, content, _, hanswer, hcontent, _⟩ := h.recorded
  exact ⟨content, hcontent, trimmed_of_contentOf hanswer⟩

/-- In every run a row of a completed module holds a finished one. -/
theorem System.finished_of_completed (e : Engine) (events : List Event) {r : ModuleRow}
    (hr : r ∈ (run e events).studio.db.modules)
    (hcompleted : r.status = .text ModuleStatus.completed.text) :
    ∃ m, r.Holds m ∧ m.Finished := by
  obtain ⟨_, _, _, _, _, m, hm, hreusable, hmade⟩ := made_run e events r hr hcompleted
  exact ⟨m, hm, status_of_isReusable hreusable, hreusable, hmade.trimmed⟩

/-- What one row holds of a finished module, it holds of any module that it holds. -/
theorem WorldModule.Finished.of_holds {r : ModuleRow} {m n : WorldModule} (h : m.Finished)
    (hm : r.Holds m) (hn : r.Holds n) : n.Finished where
  status := (hn.status_eq hm).trans h.status
  reusable := isReusable_of_holds hm hn h.reusable
  content := by
    rw [hn.content_eq hm]
    exact h.content

theorem WorldModule.Finished.hash_eq {m : WorldModule} (h : m.Finished) :
    m.hash = some (contentHash m.fields) := by
  have hmatches := (Bool.and_eq_true _ _ ▸ h.reusable : _ ∧ _).2
  exact beq_iff_eq.1 hmatches

/-! ## Edits -/

/-- Rows of a module that is saved have its status. -/
theorem Write.status_of_saveModule {m : WorldModule} {rows : List ModuleRow} {r : ModuleRow}
    (hr : r ∈ (saveModule m).onModules rows) (hof : Modules.isOf m.world m.key r = true) :
    r.status = .text m.status.text := by
  simp only [onModules] at hr
  split at hr
  · obtain ⟨r₀, _, rfl⟩ := List.mem_map.1 hr
    by_cases hof₀ : Modules.isOf m.world m.key r₀ = true
    · rw [if_pos hof₀]
      rfl
    · rw [if_neg hof₀] at hof
      exact absurd hof hof₀
  · rename_i hnone
    rcases List.mem_append.1 hr with hr | hr
    · exact absurd (List.any_eq_true.2 ⟨r, hr, hof⟩) hnone
    · rw [List.mem_singleton.1 hr]
      rfl

/-- The module of a world is stored, with a status that is not that of a completed module. -/
def Database.Uncompleted (db : Database) (world : WorldId) (key : String) : Prop :=
  (∃ r ∈ db.modules, Modules.isOf world key r = true) ∧
    ∀ r ∈ db.modules, Modules.isOf world key r = true →
      r.status ≠ .text ModuleStatus.completed.text

theorem Database.uncompleted_of_save {db db' : Database} {m : WorldModule}
    (h : Journal db [.saveModule m] db') (hm : m.status ≠ .completed) :
    db'.Uncompleted m.world m.key := by
  obtain rfl := Journal.nil_iff.1 (Journal.cons_iff.1 h).2
  refine ⟨?_, fun r hr hof hcompleted => hm ?_⟩
  · have hself := @Write.find?_saveModule_self m db.modules
    exact ⟨_, List.mem_of_find?_eq_some hself, List.find?_some hself⟩
  · have hstatus := Write.status_of_saveModule hr hof
    exact ModuleStatus.text_inj (Cell.text.inj (hstatus.symm.trans hcompleted))

namespace Engine

variable {e : Engine} {world : WorldId} {owner : OwnerId} {s t : Studio} {m : WorldModule}

/-- Saving fields takes the module out of the completed ones, whatever is saved. -/
theorem uncompleted_of_saveModuleFields {module : String} {fields : List (String × String)}
    (h : Yields (e.saveModuleFields world module owner fields) s m t) :
    t.db.Uncompleted world module := by
  obtain ⟨d, m₀, now, hd, hm₀, hm, hcommit⟩ := commit_saveModuleFields h
  have hstatus : m.status ≠ .completed := by
    rw [hm]
    exact derive_ne_completed _ _
  have huncompleted := Database.uncompleted_of_save hcommit.journal hstatus
  rwa [show m.world = world by rw [hm]; exact hm₀.world_eq,
    show m.key = module by rw [hm]; exact hm₀.key_eq.trans (Registry.key_of_require hd)]
    at huncompleted

/-- So does a draft that is accepted. -/
theorem uncompleted_of_acceptDraft {d : ModuleDefinition} {reply : GenerationReply}
    (h : Yields (acceptDraft world d owner reply) s m t) : t.db.Uncompleted world d.key := by
  obtain ⟨m₀, proposed, now, hm₀, hm, hcommit⟩ := commit_acceptDraft h
  have hstatus : m.status ≠ .completed := by
    rw [hm]
    exact (by decide : ModuleStatus.ready ≠ .completed)
  have huncompleted := Database.uncompleted_of_save hcommit.journal hstatus
  rwa [show m.world = world by rw [hm]; exact hm₀.world_eq,
    show m.key = d.key by rw [hm]; exact hm₀.key_eq] at huncompleted

/-- So does generating a module, with any generator. -/
theorem uncompleted_of_generateModule {g : Generator (StateM Studio)} {module : String}
    (h : e.generateModule g world module owner s = (.ok m, t)) : t.db.Uncompleted world module := by
  obtain ⟨d, reply, u, hd, haccept⟩ := accepted_of_generateModule h
  rw [← Registry.key_of_require hd]
  exact uncompleted_of_acceptDraft haccept

end Engine

/-! ## Publishing -/

namespace Engine

variable {e : Engine} {id : WorldId} {owner : OwnerId} {s s' : Studio} {p : Publication}
  {key : String}

/-- A module is stored, and can be taken over. -/
structure Reuses (db : Database) (id : WorldId) (key : String) : Prop where
  stored : ∃ r ∈ db.modules, Modules.isOf id key r = true
  reusable : ∀ m, db.StoredModule id key m → m.isReusable = true

/-- What publishing does to a module that it passes over: it is not queued but taken over, and its
row stays. -/
structure PassesOver (e : Engine) (id : WorldId) (db db' : Database) (p : Publication)
    (key : String) : Prop where
  generate : key ∉ p.generate
  jobs : ∀ j ∈ p.jobs, j.moduleKey ≠ key
  reuse : key ∈ e.registry.keys → key ∈ p.reuse
  rows : ∀ r ∈ db.modules, Modules.isOf id key r = true → r ∈ db'.modules
  queue : ∀ r ∈ db'.jobs, r.world = .text id.text → r.moduleKey = .text key → r ∈ db.jobs

/-- What is found for the key of a module that can be taken over is that module. -/
theorem Reuses.isReusable_of_current (h : Reuses s.db id key) {d : ModuleDefinition}
    {m : WorldModule} (hm : CurrentModule s.db id d m) (hkey : d.key = key) :
    m.isReusable = true := by
  subst hkey
  cases hm with
  | stored hm => exact h.reusable m hm
  | fresh habsent mid now =>
    obtain ⟨r, hr, hof⟩ := h.stored
    rw [habsent r hr] at hof
    cases hof

theorem Reuses.key_ne_of_stale (h : Reuses s.db id key) {ds : List ModuleDefinition}
    {ms : List WorldModule} (hms : CurrentModules s.db id ds ms) {m : WorldModule}
    (hm : m ∈ stale ms) : m.key ≠ key := by
  intro hkey
  obtain ⟨hm, hnot⟩ := List.mem_filter.1 hm
  obtain ⟨d, _, hcurrent⟩ := CurrentModules.exists_definition hms hm
  rw [h.isReusable_of_current hcurrent (hcurrent.key_eq.symm.trans hkey)] at hnot
  cases hnot

/-- What publishing writes: modules that it marks, its world, and the queue with its own jobs. -/
theorem Published.exists_writes (h : Published e id owner s p s') (hkey : Reuses s.db id key) :
    ∃ ws, Journal s.db ws s'.db ∧ ∀ v ∈ ws, (∃ m, m.key ≠ key ∧ v = .saveModule m) ∨
      (∃ w, v = .changeWorld w) ∨ v = .clearQueue id ∨ ∃ j ∈ p.jobs, v = .addJob j := by
  obtain ⟨w, ms, now, ws, _, _, hms, _, _, hcommit, hend⟩ := h.found
  refine ⟨_, hcommit.journal, fun v hv => ?_⟩
  rcases List.mem_append.1 hv with hv | hv
  · obtain ⟨m, hm, rfl⟩ := List.mem_map.1 hv
    have hne : m.key ≠ key := hkey.key_ne_of_stale hms hm
    exact Or.inl ⟨awaiting owner now m, hne, rfl⟩
  · refine Or.inr ?_
    rcases hend with ⟨_, _, rfl⟩ | ⟨_, _, _, rfl⟩
    · exact Or.inl ⟨_, List.mem_singleton.1 hv⟩
    · rcases List.mem_cons.1 hv with rfl | hv
      · exact Or.inl ⟨_, rfl⟩
      rcases List.mem_cons.1 hv with rfl | hv
      · exact Or.inr (Or.inl rfl)
      · obtain ⟨j, hj, rfl⟩ := List.mem_map.1 hv
        exact Or.inr (Or.inr ⟨j, hj, rfl⟩)

/-- A module that can be taken over is passed over. -/
theorem Published.passesOver (h : Published e id owner s p s') (hkey : Reuses s.db id key) :
    PassesOver e id s.db s'.db p key := by
  obtain ⟨w, ms, now, _, _, _, hms, hgenerate, hreuse, _, hend⟩ := h.found
  obtain ⟨ws, hjournal, hws⟩ := h.exists_writes hkey
  have hgenerated : key ∉ p.generate := by
    rw [hgenerate, List.mem_map]
    rintro ⟨m, hm, hm_key⟩
    exact hkey.key_ne_of_stale hms hm hm_key
  have hjobs : ∀ j ∈ p.jobs, j.moduleKey ≠ key := by
    rintro j hj rfl
    rcases hend with ⟨_, hnone, _⟩ | ⟨_, hqueue, _⟩
    · rw [hnone] at hj
      cases hj
    · exact hgenerated (hqueue.key_mem hj)
  refine ⟨hgenerated, hjobs, fun hregistered => ?_, fun r hr hof => ?_, ?_⟩
  · obtain ⟨d, hd, rfl⟩ := List.mem_map.1 hregistered
    obtain ⟨m, hm, hcurrent⟩ := CurrentModules.exists_module hms hd
    rw [hreuse, List.mem_map]
    exact ⟨m, List.mem_filter.2 ⟨hm, hkey.isReusable_of_current hcurrent rfl⟩, hcurrent.key_eq⟩
  · refine hjournal.invariant (I := fun d => r ∈ d.modules) (fun v hv d _ hd => ?_) hr
    rcases hws v hv with ⟨m, hm, rfl⟩ | ⟨u, rfl⟩ | rfl | ⟨j, _, rfl⟩
    · refine (Write.mem_saveModule_of_other (Bool.eq_false_iff.2 fun hof' => hm ?_)).2 hd
      exact Cell.text.inj ((Modules.isOf_iff.1 hof').2.symm.trans (Modules.isOf_iff.1 hof).2)
    all_goals exact hd
  · -- Rows of the module come from no job of the publication.
    refine hjournal.invariant (I := fun d => ∀ r ∈ d.jobs, r.world = .text id.text →
      r.moduleKey = .text key → r ∈ s.db.jobs) (fun v hv d _ hd r hr hworld hr_key => ?_)
      fun r hr _ _ => hr
    rcases hws v hv with ⟨m, _, rfl⟩ | ⟨u, rfl⟩ | rfl | ⟨j, hj, rfl⟩
    · exact hd r hr hworld hr_key
    · exact hd r hr hworld hr_key
    · exact hd r (List.mem_filter.1 hr).1 hworld hr_key
    · rcases List.mem_append.1 hr with hr | hr
      · exact hd r hr hworld hr_key
      · rw [List.mem_singleton.1 hr] at hr_key
        exact absurd (Cell.text.inj hr_key) (hjobs j hj)

end Engine

/-- In every run a completed module can be taken over. -/
theorem System.reuses_of_completed (e : Engine) (events : List Event) {r : ModuleRow}
    (hr : r ∈ (run e events).studio.db.modules)
    (hcompleted : r.status = .text ModuleStatus.completed.text) {id : WorldId} {key : String}
    (hof : Modules.isOf id key r = true) : Reuses (run e events).studio.db id key := by
  refine ⟨⟨r, hr, hof⟩, fun m hm => ?_⟩
  obtain ⟨row, hfind, hdecode⟩ := hm
  have hfound := Modules.find?_isOf (System.Sound.run e events).db.moduleKeys hr hof
  obtain rfl := Option.some.inj (hfind.symm.trans hfound)
  obtain ⟨n, hn, hfinished⟩ := finished_of_completed e events hr hcompleted
  exact (hfinished.of_holds hn (ModuleRow.holds_of_decode hdecode)).reusable

/-! ## Runs -/

/-- Completed modules are complete, are passed over by publishing, and are completed no more once
they are edited. -/
structure Engine.Completeness (e : Engine) : Prop where
  /-- A completed module has the fingerprint of its fields, and content that is trimmed and not
  blank. -/
  completed : ∀ events, ∀ r ∈ (System.run e events).studio.db.modules,
    r.status = .text ModuleStatus.completed.text → ∃ m, r.Holds m ∧
      m.hash = some (contentHash m.fields) ∧ ∃ content, m.content = some content ∧
        Text.isBlank content = false ∧ Text.trim content = content
  /-- As it is read, it can be taken over. -/
  reusable : ∀ events, ∀ r ∈ (System.run e events).studio.db.modules, ∀ m, r.decode = .ok m →
    m.status = .completed → m.isReusable = true
  publish : ∀ events id owner p t, Yields (e.publish id owner) (System.run e events).studio p t →
    ∀ r ∈ (System.run e events).studio.db.modules,
      r.status = .text ModuleStatus.completed.text → ∀ key, Modules.isOf id key r = true →
        PassesOver e id (System.run e events).studio.db t.db p key
  saveModuleFields : ∀ world module owner fields s m t,
    Yields (e.saveModuleFields world module owner fields) s m t → t.db.Uncompleted world module
  generateModule : ∀ (g : Generator (StateM Studio)) world module owner s m t,
    e.generateModule g world module owner s = (.ok m, t) → t.db.Uncompleted world module
  /-- This is the transaction of a draft call that merges the reply. -/
  acceptDraft : ∀ world d owner reply s m t,
    Yields (Engine.acceptDraft world d owner reply) s m t → t.db.Uncompleted world d.key

/-- In every run completed modules are complete, publishing never queues one, and every edit takes a
module out of the completed ones. -/
theorem Engine.completeness (e : Engine) : e.Completeness where
  completed events r hr hcompleted := by
    obtain ⟨m, hm, hfinished⟩ := System.finished_of_completed e events hr hcompleted
    obtain ⟨content, hcontent, htrimmed⟩ := hfinished.content
    exact ⟨m, hm, hfinished.hash_eq, content, hcontent, Text.trimmed?_eq_self_iff.1 htrimmed⟩
  reusable events r hr m hdecode hstatus := by
    have hholds := ModuleRow.holds_of_decode hdecode
    have hcompleted : r.status = .text ModuleStatus.completed.text := by
      rw [hholds.status, hstatus]
    obtain ⟨n, hn, hfinished⟩ := System.finished_of_completed e events hr hcompleted
    exact (hfinished.of_holds hn hholds).reusable
  publish events _ _ _ _ h r hr hcompleted _ hof :=
    (published_of_publish h).passesOver (System.reuses_of_completed e events hr hcompleted hof)
  saveModuleFields _ _ _ _ _ _ _ h := uncompleted_of_saveModuleFields h
  generateModule _ _ _ _ _ _ _ h := uncompleted_of_generateModule h
  acceptDraft _ _ _ _ _ _ _ h := uncompleted_of_acceptDraft h

end Lorebook
