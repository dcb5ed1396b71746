import Lorebook.Proofs.Transactions
import Mathlib.Data.List.Forall2

set_option autoImplicit false

/-! # What publishing commits

Publishing, rebuilding a queue by hand and retrying a job are the operations that put jobs in the
queue. The lemmas say which writes they commit and what stood in the database before: in particular
a queue is only ever replaced while no job of its world runs. -/

namespace Lorebook.Engine

open Studio Operation

/-! ## New queues -/

/-- The jobs of a new queue: one for each key in order, all new. -/
structure NewQueue (world : WorldId) (sequence : Nat) (keys : List String) (js : List Job) :
    Prop where
  keys_eq : js.map (·.moduleKey) = keys
  sequence_eq : js.map (·.sequence) = List.range' sequence keys.length
  world_eq : ∀ j ∈ js, j.world = world
  isNew : ∀ j ∈ js, j.IsNew

theorem NewQueue.key_mem {world : WorldId} {sequence : Nat} {keys : List String} {js : List Job}
    (h : NewQueue world sequence keys js) {j : Job} (hj : j ∈ js) : j.moduleKey ∈ keys := by
  rw [← h.keys_eq]
  exact List.mem_map_of_mem hj

theorem NewQueue.exists_job {world : WorldId} {sequence : Nat} {keys : List String}
    {js : List Job} (h : NewQueue world sequence keys js) (hkeys : keys ≠ []) : ∃ j, j ∈ js := by
  refine List.exists_mem_of_ne_nil js fun hnil => hkeys ?_
  rw [← h.keys_eq, hnil, List.map_nil]

theorem sameDb_newJobs (world : WorldId) (keys : List String) :
    ∀ sequence, Respects SameDb (newJobs world sequence keys) := by
  induction keys with
  | nil => intro sequence; exact respects_pure _
  | cons key rest ih =>
    intro sequence
    exact respects_bind respects_mint fun _ => respects_bind respects_readClock fun _ =>
      respects_bind (ih _) fun _ => respects_pure _

theorem newQueue_of_newJobs {world : WorldId} {keys : List String} {sequence : Nat} {s : Studio}
    {js : List Job} {s' : Studio} (h : Yields (newJobs world sequence keys) s js s') :
    NewQueue world sequence keys js ∧
      ∀ j ∈ js, ∃ n, s.minted ≤ n ∧ n < s'.minted ∧ j.id = JobId.mint n := by
  induction keys generalizing sequence s js with
  | nil =>
    simp only [newJobs, yields_pure] at h
    obtain ⟨rfl, rfl⟩ := h
    exact ⟨⟨rfl, rfl, by simp, by simp⟩, by simp⟩
  | cons key rest ih =>
    simp only [newJobs, yields_bind, yields_mint, yields_readClock, yields_pure] at h
    obtain ⟨_, _, ⟨rfl, rfl⟩, _, _, ⟨rfl, rfl⟩, js', t, hrest, rfl, rfl⟩ := h
    obtain ⟨hqueue, hnames⟩ := ih hrest
    have hgrow : s.minted + 1 ≤ s'.minted := ((sameDb_newJobs world rest _).of_yields hrest).2
    refine ⟨⟨?_, ?_, ?_, ?_⟩, ?_⟩
    · rw [List.map_cons, hqueue.keys_eq]
      rfl
    · rw [List.map_cons, hqueue.sequence_eq, List.length_cons, List.range'_succ]
      rfl
    · intro j hj
      rcases List.mem_cons.1 hj with rfl | hj
      · rfl
      · exact hqueue.world_eq j hj
    · intro j hj
      rcases List.mem_cons.1 hj with rfl | hj
      · rfl
      · exact hqueue.isNew j hj
    · intro j hj
      rcases List.mem_cons.1 hj with rfl | hj
      · exact ⟨s.minted, Nat.le_refl _, hgrow, rfl⟩
      · obtain ⟨n, hle, hlt, hid⟩ := hnames j hj
        exact ⟨n, Nat.le_of_succ_le hle, hlt, hid⟩

theorem namesGrow_rebuildJobs (world : WorldId) (keys : List String) :
    Respects NamesGrow (rebuildJobs world keys) := by
  refine respects_bind (namesGrow_store _) fun found => ?_
  cases found with
  | some j => exact respects_throw _
  | none =>
    exact respects_bind (namesGrow_of_sameDb (sameDb_newJobs world keys 1)) fun _ =>
      respects_bind (namesGrow_store _) fun _ => respects_pure _

/-- Rebuilding a queue drops the jobs of an idle world and adds new ones. -/
theorem commit_rebuildJobs {world : WorldId} {keys : List String} {s : Studio} {js : List Job}
    {s' : Studio} (h : Yields (rebuildJobs world keys) s js s') :
    NewQueue world 1 keys js ∧
      (∀ r ∈ s.db.jobs, r.world = .text world.text → r.hasStatus .running = false) ∧
      Commit s s' (.clearQueue world :: js.map .addJob) := by
  simp only [rebuildJobs, yields_bind, yields_store] at h
  obtain ⟨found, t, ⟨db, hrunning, rfl⟩, h⟩ := h
  have hdb := ((Jobs.reads_runningOf? world).of_yields hrunning).symm
  rcases Jobs.runningOf?_cases hrunning with ⟨j, rfl, _⟩ | ⟨rfl, hidle⟩
  · simp at h
  · simp only [yields_bind, yields_store, yields_pure] at h
    obtain ⟨js', t', hjobs, _, _, ⟨db', hreplace, rfl⟩, rfl, rfl⟩ := h
    obtain ⟨hqueue, hnames⟩ := newQueue_of_newJobs hjobs
    have hsame := (sameDb_newJobs world keys 1).of_yields hjobs
    have ht : t'.db = s.db := hsame.1.trans hdb
    have hjournal := Jobs.journal_replaceForWorld hqueue.isNew (by rwa [ht]) hreplace
    rw [ht] at hjournal
    refine ⟨hqueue, hidle, ⟨hjournal, hsame.2, ?_⟩⟩
    intro j hj
    simp only [List.mem_cons, reduceCtorEq, List.mem_map, Write.addJob.injEq, exists_eq_right,
      false_or] at hj
    exact hnames j hj

/-! ## Publishing -/

/-- The modules of definitions as an operation finds them, in the order of the definitions. -/
abbrev CurrentModules (db : Database) (world : WorldId) :
    List ModuleDefinition → List WorldModule → Prop :=
  List.Forall₂ (CurrentModule db world)

theorem CurrentModules.exists_module {db : Database} {world : WorldId}
    {ds : List ModuleDefinition} {ms : List WorldModule} (h : CurrentModules db world ds ms)
    {d : ModuleDefinition} (hd : d ∈ ds) : ∃ m ∈ ms, CurrentModule db world d m := by
  induction h with
  | nil => cases hd
  | cons hcurrent _ ih =>
    rcases List.mem_cons.1 hd with rfl | hd
    · exact ⟨_, List.mem_cons_self, hcurrent⟩
    · obtain ⟨m, hm, hcurrent⟩ := ih hd
      exact ⟨m, List.mem_cons_of_mem _ hm, hcurrent⟩

theorem CurrentModules.exists_definition {db : Database} {world : WorldId}
    {ds : List ModuleDefinition} {ms : List WorldModule} (h : CurrentModules db world ds ms)
    {m : WorldModule} (hm : m ∈ ms) : ∃ d ∈ ds, CurrentModule db world d m := by
  induction h with
  | nil => cases hm
  | cons hcurrent _ ih =>
    rcases List.mem_cons.1 hm with rfl | hm
    · exact ⟨_, List.mem_cons_self, hcurrent⟩
    · obtain ⟨d, hd, hcurrent⟩ := ih hm
      exact ⟨d, List.mem_cons_of_mem _ hd, hcurrent⟩

theorem sameDb_currentModules (world : WorldId) (ds : List ModuleDefinition) :
    Respects SameDb (currentModules world ds) := by
  induction ds with
  | nil => exact respects_pure _
  | cons d rest ih =>
    exact respects_bind (sameDb_moduleOrNew world d) fun _ => respects_bind ih fun _ =>
      respects_pure _

theorem current_of_currentModules {world : WorldId} {ds : List ModuleDefinition} {s : Studio}
    {found : List WorldModule × List (String × String × FieldViolation)} {s' : Studio}
    (h : Yields (currentModules world ds) s found s') :
    CurrentModules s.db world ds found.1 := by
  induction ds generalizing s found with
  | nil =>
    simp only [currentModules, yields_pure] at h
    rw [h.1]
    exact .nil
  | cons d rest ih =>
    simp only [currentModules, yields_bind, yields_pure] at h
    obtain ⟨m, t, hm, ⟨ms, vs⟩, _, hrest, rfl, rfl⟩ := h
    have ht := (sameDb_moduleOrNew world d).of_yields hm
    have htail := ih hrest
    rw [ht.1] at htail
    exact .cons (moduleOrNew_current hm) htail

theorem namesGrow_splitModules (owner : OwnerId) (now : Instant) (ms : List WorldModule) :
    Respects NamesGrow (splitModules owner now ms) := by
  induction ms with
  | nil => exact respects_pure _
  | cons m rest ih =>
    exact respects_ite (respects_bind ih fun _ => respects_pure _)
      (respects_bind (namesGrow_store _) fun _ => respects_bind ih fun _ => respects_pure _)

@[simp] theorem status_awaiting (owner : OwnerId) (now : Instant) (m : WorldModule) :
    (awaiting owner now m).status = .awaitingGeneration := rfl

/-- A status that the field values imply is not that of a completed module. -/
theorem derive_ne_completed (d : ModuleDefinition) (fields : FieldMap) :
    ModuleStatus.derive d fields ≠ .completed := by
  unfold ModuleStatus.derive
  split
  · decide
  · split <;> decide

theorem status_of_isReusable {m : WorldModule} (h : m.isReusable = true) :
    m.status = .completed := by
  rw [WorldModule.isReusable, Bool.and_eq_true, decide_eq_true_iff] at h
  exact h.1

/-- A module that is taken over is stored. -/
theorem CurrentModule.stored_of_isReusable {db : Database} {world : WorldId}
    {d : ModuleDefinition} {m : WorldModule} (h : CurrentModule db world d m)
    (hreuse : m.isReusable = true) : db.StoredModule world d.key m := by
  cases h with
  | stored h => exact h
  | fresh _ id now =>
    exact absurd (status_of_isReusable hreuse) (derive_ne_completed d .empty)

/-- The modules that cannot be taken over. -/
def stale (ms : List WorldModule) : List WorldModule :=
  ms.filter fun m => !m.isReusable

/-- Splitting writes back the modules that cannot be taken over, as awaiting generation. -/
theorem commit_splitModules {owner : OwnerId} {now : Instant} {ms : List WorldModule}
    {s : Studio} {split : List String × List String} {s' : Studio}
    (h : Yields (splitModules owner now ms) s split s') :
    split.1 = (stale ms).map (·.key) ∧
      split.2 = (ms.filter (·.isReusable)).map (·.key) ∧
      Commit s s' ((stale ms).map fun m => .saveModule (awaiting owner now m)) := by
  induction ms generalizing s split with
  | nil =>
    simp only [splitModules, yields_pure] at h
    obtain ⟨rfl, rfl⟩ := h
    exact ⟨rfl, rfl, Commit.of_sameDb (Chain.refl _)⟩
  | cons m rest ih =>
    simp only [splitModules, yields_ite, yields_bind, yields_store, yields_pure] at h
    rcases h with ⟨hreuse, ⟨gs, rs⟩, t, hrest, rfl, rfl⟩ |
      ⟨hreuse, _, _, ⟨db, hsave, rfl⟩, ⟨gs, rs⟩, t, hrest, rfl, rfl⟩
    · obtain ⟨hgs, hrs, hcommit⟩ := ih hrest
      have hstale : stale (m :: rest) = stale rest := by simp [stale, hreuse]
      rw [hstale]
      refine ⟨hgs, ?_, hcommit⟩
      rw [List.filter_cons_of_pos hreuse, List.map_cons, ← hrs]
    · obtain ⟨hgs, hrs, hcommit⟩ := ih hrest
      have hstale : stale (m :: rest) = m :: stale rest := by simp [stale, hreuse]
      rw [hstale, List.map_cons, List.map_cons, ← hgs]
      refine ⟨rfl, ?_, ?_⟩
      · rw [List.filter_cons_of_neg hreuse]
        exact hrs
      · exact (Commit.of_store (Modules.journal_save hsave) (by simp)).trans hcommit

/-- What publishing a world committed, and what it found before. -/
structure Published (e : Engine) (id : WorldId) (owner : OwnerId) (s : Studio) (p : Publication)
    (s' : Studio) : Prop where
  found : ∃ w ms now ws, s.db.LiveWorld id w ∧ w.owner = owner ∧
    CurrentModules s.db id e.registry.modules ms ∧
    p.generate = (stale ms).map (·.key) ∧
    p.reuse = (ms.filter (·.isReusable)).map (·.key) ∧
    Commit s s' ((stale ms).map (fun m => .saveModule (awaiting owner now m)) ++ ws) ∧
    -- The world is activated at once, or its queue is replaced.
    ((p.generate = [] ∧ p.jobs = [] ∧ ws = [.changeWorld (w.activate now)]) ∨
      (p.generate ≠ [] ∧ NewQueue id 1 p.generate p.jobs ∧
        (∀ r ∈ s.db.jobs, r.world = .text id.text → r.hasStatus .running = false) ∧
        ws = .changeWorld (w.beginGeneration now) :: .clearQueue id :: p.jobs.map .addJob))

theorem failsClean_publish (e : Engine) (id : WorldId) (owner : OwnerId) :
    FailsClean (e.publish id owner) := by
  refine failsClean_atomically
    (respects_bind (namesGrow_of_sameDb (sameDb_ownedWorld id owner)) fun w =>
      respects_bind (namesGrow_of_sameDb (sameDb_currentModules id _)) fun found => ?_)
  refine respects_bind (respects_ite (respects_pure _) (respects_throw _)) fun _ =>
    respects_bind respects_readClock fun now =>
      respects_bind (namesGrow_splitModules owner now _) fun split => ?_
  exact respects_ite
    (respects_bind (namesGrow_store _) fun _ => respects_bind (respects_tell _) fun _ =>
      respects_pure _)
    (respects_bind (namesGrow_store _) fun _ =>
      respects_bind (namesGrow_rebuildJobs _ _) fun _ => respects_bind (respects_tell _) fun _ =>
        respects_pure _)

theorem published_of_publish {e : Engine} {id : WorldId} {owner : OwnerId} {s : Studio}
    {p : Publication} {s' : Studio} (h : Yields (e.publish id owner) s p s') :
    Published e id owner s p s' := by
  simp only [publish, ensurePublishable, yields_atomically, yields_bind, yields_ite, yields_throw,
    yields_readClock, yields_store, yields_tell, yields_pure, and_false, or_false] at h
  obtain ⟨w, t, howned, ⟨ms, vs⟩, t', hms, _, _, ⟨_, _, rfl⟩, now, _, ⟨rfl, rfl⟩, ⟨gs, rs⟩, u,
    hsplit, hend⟩ := h
  have hw := (sameDb_ownedWorld id owner).of_yields howned
  have hm := (sameDb_currentModules id _).of_yields hms
  obtain ⟨hlive, howner⟩ := ownedWorld_found howned
  have hcurrent := current_of_currentModules hms
  rw [hw.1] at hcurrent
  obtain ⟨hgs, hrs, hcommit⟩ := commit_splitModules hsplit
  have hsaved := Commit.of_sameDb_trans (Chain.trans (Chain.trans hw hm) (StudioChain.ticked _))
    hcommit
  rcases hend with ⟨hnone, _, _, ⟨db, hupdate, rfl⟩, _, _, rfl, rfl, rfl⟩ |
    ⟨hsome, _, _, ⟨db, hupdate, rfl⟩, js, v, hrebuild, _, _, rfl, rfl, rfl⟩
  · refine ⟨w, ms, _, _, hlive, howner, hcurrent, hgs, hrs, hsaved.trans
      (Commit.trans_sameDb (Commit.of_store (Worlds.journal_update hupdate) (by simp))
        (StudioChain.told _ _)), Or.inl ⟨List.isEmpty_iff.1 hnone, rfl, rfl⟩⟩
  · have hwrite := Worlds.journal_update hupdate
    obtain ⟨hqueue, hidle, hqueued⟩ := commit_rebuildJobs hrebuild
    -- Writing back modules and the world left the jobs as they were.
    have hjobs : db.jobs = s.db.jobs := by
      refine (hsaved.journal.append hwrite).jobs_eq fun x hx rows => ?_
      rcases List.mem_append.1 hx with hx | hx
      · obtain ⟨m, _, rfl⟩ := List.mem_map.1 hx
        rfl
      · rw [List.mem_singleton.1 hx]
        rfl
    rw [withDb_db, hjobs] at hidle
    refine ⟨w, ms, _, _, hlive, howner, hcurrent, hgs, hrs, hsaved.trans
      ((Commit.of_store hwrite (by simp)).trans (hqueued.trans_sameDb (StudioChain.told _ _))),
      Or.inr ⟨fun h => hsome (List.isEmpty_iff.2 h), hqueue, hidle, rfl⟩⟩

/-! ## Rebuilding by hand and retrying -/

theorem failsClean_initializeJobs (e : Engine) (world : WorldId) (keys : List String) :
    FailsClean (e.initializeJobs world keys) := by
  refine failsClean_bind (respects_forM (fun key => respects_bind (respects_definition e key)
    fun _ => respects_pure _) keys) fun _ => ?_
  exact failsClean_atomically (respects_bind (namesGrow_store _) fun _ =>
    namesGrow_rebuildJobs world keys)

/-- Rebuilding by hand replaces the queue of a live world that is idle. -/
theorem commit_initializeJobs {e : Engine} {world : WorldId} {keys : List String} {s : Studio}
    {js : List Job} {s' : Studio} (h : Yields (e.initializeJobs world keys) s js s') :
    (∃ w, s.db.LiveWorld world w) ∧ NewQueue world 1 keys js ∧
      (∀ r ∈ s.db.jobs, r.world = .text world.text → r.hasStatus .running = false) ∧
      Commit s s' (.clearQueue world :: js.map .addJob) := by
  simp only [initializeJobs, yields_bind, yields_atomically, yields_store] at h
  obtain ⟨_, t, hknown, w, _, ⟨db, hrequire, rfl⟩, hrebuild⟩ := h
  have ht : SameDb s t := Respects.of_yields (respects_forM (fun key =>
    respects_bind (respects_definition e key) fun _ => respects_pure _) keys) hknown
  have hlive := Worlds.liveWorld_of_require hrequire
  have hdb := ((Worlds.reads_require world).of_yields hrequire).symm
  have hread : SameDb s (t.withDb db) := Chain.trans ht ⟨hdb, Nat.le_refl _⟩
  obtain ⟨hqueue, hidle, hcommit⟩ := commit_rebuildJobs hrebuild
  rw [ht.1] at hlive
  rw [hread.1] at hidle
  exact ⟨⟨w, hlive⟩, hqueue, hidle, Commit.of_sameDb_trans hread hcommit⟩

theorem failsClean_retryModule (e : Engine) (world : WorldId) (module : String)
    (owner : OwnerId) : FailsClean (e.retryModule world module owner) := by
  refine failsClean_bind (respects_definition e module) fun _ => failsClean_atomically ?_
  refine respects_bind (namesGrow_of_sameDb (sameDb_ownedWorld world owner)) fun w =>
    respects_bind (namesGrow_store _) fun found => ?_
  cases found with
  | none => exact respects_throw _
  | some job =>
    refine respects_bind respects_readClock fun now => respects_bind (namesGrow_store _) fun _ =>
      respects_bind (namesGrow_store _) fun m => respects_bind (namesGrow_store _) fun _ => ?_
    exact respects_ite (respects_bind (respects_tell _) fun _ => namesGrow_store _)
      (respects_bind (namesGrow_store _) fun _ => respects_bind (respects_tell _) fun _ =>
        namesGrow_store _)

/-- Retrying puts a job back in the queue, marks its module and, unless the world is generating
already, the world. -/
theorem commit_retryModule {e : Engine} {world : WorldId} {module : String} {owner : OwnerId}
    {s : Studio} {j : Job} {s' : Studio} (h : Yields (e.retryModule world module owner) s j s') :
    ∃ w job m now r, s.db.LiveWorld world w ∧ w.owner = owner ∧
      r ∈ s.db.jobs ∧ r.world = .text world.text ∧ r.moduleKey = .text module ∧
      r.decode = .ok job ∧ s.db.StoredModule world module m ∧
      Commit s s' ([.requeue job.id now, .saveModule (awaiting owner now m)] ++
        if w.status = .generating then [] else [.changeWorld (w.beginGeneration now)]) := by
  simp only [retryModule, yields_bind, yields_atomically, yields_store] at h
  obtain ⟨_, t, hknown, w, u, howned, found, _, ⟨db, hfind, rfl⟩, h⟩ := h
  have ht := (respects_definition (R := SameDb) e module).of_yields hknown
  have hu := Chain.trans ht ((sameDb_ownedWorld world owner).of_yields howned)
  obtain ⟨hlive, howner⟩ := ownedWorld_found howned
  rw [ht.1] at hlive
  have hdb := ((Jobs.reads_find? world module).of_yields hfind).symm
  have hread : SameDb s (u.withDb db) := Chain.trans hu ⟨hdb, Nat.le_refl _⟩
  rcases Jobs.find?_cases hfind with ⟨job, rfl, r, hr, hworld, hkey, hdecode⟩ | ⟨rfl, _⟩
  · rw [hu.1] at hr
    simp only [yields_bind, yields_readClock, yields_store, yields_tell, yields_ite] at h
    obtain ⟨now, _, ⟨rfl, rfl⟩, _, _, ⟨db₁, hreset, rfl⟩, m, _, ⟨db₂, hmodule, rfl⟩, _, _,
      ⟨db₃, hsave, rfl⟩, hend⟩ := h
    have hrequeued := Jobs.journal_resetForRetry hreset
    -- The module is read after the job was reset, which leaves the modules.
    have hdb₂ : db₂ = db₁ := ((Modules.reads_require _ _).of_yields hmodule).symm
    subst hdb₂
    have hstored : s.db.StoredModule world module m := by
      have hm := Modules.stored_of_require hmodule
      rw [withDb_db, Journal.nil_iff.1 (Journal.cons_iff.1 hrequeued).2] at hm
      rw [← hread.1]
      exact hm
    have hsaved : Commit s ((u.withDb db).ticked.withDb db₃)
        [.requeue job.id u.clock, .saveModule (awaiting owner u.clock m)] :=
      Commit.of_sameDb_trans (Chain.trans hread (StudioChain.ticked _))
        (Commit.of_store (hrequeued.append (Modules.journal_save hsave)) (by simp))
    refine ⟨w, job, m, u.clock, r, hlive, howner, hr, hworld, hkey, hdecode, hstored, ?_⟩
    rcases hend with ⟨hgenerating, _, _, rfl, db₄, hrequire, rfl⟩ |
      ⟨hgenerating, _, _, ⟨db₄, hupdate, rfl⟩, _, _, rfl, db₅, hrequire, rfl⟩
    · have hdb₄ := ((Jobs.reads_require _).of_yields hrequire).symm
      rw [if_pos hgenerating, List.append_nil]
      exact hsaved.trans_sameDb ⟨hdb₄, Nat.le_refl _⟩
    · have hdb₅ := ((Jobs.reads_require _).of_yields hrequire).symm
      rw [if_neg hgenerating]
      exact hsaved.trans (Commit.trans_sameDb
        (Commit.of_store (Worlds.journal_update hupdate) (by simp)) ⟨hdb₅, Nat.le_refl _⟩)
  · simp at h

end Lorebook.Engine
