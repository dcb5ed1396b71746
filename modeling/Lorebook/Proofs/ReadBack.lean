import Lorebook.Proofs.LegibleRuns
import Lorebook.Proofs.SavedModules

set_option autoImplicit false

/-! # What is returned is what is stored

Operations return the worlds, modules and jobs that they write, without looking at them again. A row
that was written for a value can be read as that value only (`WorldRow.eq_of_decode_ofWorld` and its
kin), and along a run every row can be read. So looking up the name of what was returned gives
the same, in every part and for every text (`System.returnsStored`). -/

namespace Lorebook

open Studio Operation Engine

/-! ## Rows -/

theorem Cell.inEra_of_holdsTime {t u : Instant} (h : (Cell.text (Rfc3339.stored t)).HoldsTime u) :
    t.InEra := by
  obtain ⟨raw, hraw, hparse⟩ := h
  rw [← Cell.text.inj hraw] at hparse
  exact Rfc3339.inEra_of_parse?_stored hparse

theorem Cell.inEra_of_holdsTime? {t u : Option Instant} (h : (Cell.ofTime t).HoldsTime? u) :
    ∀ x ∈ t, x.InEra := by
  rintro x rfl
  cases u with
  | none => cases h
  | some u => exact inEra_of_holdsTime h

/-- What can be read of a world's row is the world. -/
theorem WorldRow.eq_of_decode_ofWorld {w v : World} (h : (ofWorld w).decode = .ok v) : v = w := by
  have hv := decode_eq_ok.1 h
  have hw := reads_ofWorld (Cell.inEra_of_holdsTime hv.createdAt)
    (Cell.inEra_of_holdsTime hv.updatedAt) (Cell.inEra_of_holdsTime? hv.publishedAt)
    (Cell.inEra_of_holdsTime? hv.deletedAt)
  exact Except.ok.inj (h.symm.trans (decode_eq_ok.2 hw))

/-- What can be read of a row that a world was written over is the world, as far as it is written
back. -/
theorem WorldRow.eq_of_decode_overwritten {r : WorldRow} {w v u : World} (hr : r.decode = .ok w)
    (h : (Worlds.overwritten v r).decode = .ok u) :
    u = { v with
      id := w.id
      owner := w.owner
      createdAt := w.createdAt
      deletedAt := w.deletedAt } := by
  have hu := decode_eq_ok.1 h
  have hv := (decode_eq_ok.1 hr).overwritten (Cell.inEra_of_holdsTime hu.updatedAt)
    (Cell.inEra_of_holdsTime? hu.publishedAt)
  exact Except.ok.inj (h.symm.trans (decode_eq_ok.2 hv))

theorem ModuleRow.eq_of_decode_ofModule {m n : WorldModule} (h : (ofModule m).decode = .ok n) :
    n = m := by
  have hn := decode_eq_ok.1 h
  have hm := reads_ofModule (Cell.inEra_of_holdsTime hn.createdAt)
    (Cell.inEra_of_holdsTime hn.updatedAt)
  exact Except.ok.inj (h.symm.trans (decode_eq_ok.2 hm))

theorem ModuleRow.eq_of_decode_overwritten {r : ModuleRow} {m n k : WorldModule}
    (hr : r.decode = .ok m) (h : (Modules.overwritten (ofModule n) r).decode = .ok k) :
    k = { n with id := m.id, world := m.world, key := m.key, createdAt := m.createdAt } := by
  have hk := decode_eq_ok.1 h
  have hn := (decode_eq_ok.1 hr).overwritten
    (Rfc3339.parse?_stored (Cell.inEra_of_holdsTime hk.updatedAt))
  exact Except.ok.inj (h.symm.trans (decode_eq_ok.2 hn))

theorem JobRow.eq_of_decode_ofJob {j k : Job} (hnew : j.IsNew) (h : (ofJob j).decode = .ok k) :
    k = j := by
  have hk := decode_eq_ok.1 h
  have hsequence : j.sequence = k.sequence := Int.ofNat_inj.1 (Cell.int.inj hk.sequence)
  have hj := reads_ofJob hnew (hsequence ▸ hk.sequence_lt) (Cell.inEra_of_holdsTime hk.createdAt)
  exact Except.ok.inj (h.symm.trans (decode_eq_ok.2 hj))

/-! ## Worlds -/

namespace Engine

variable {e : Engine} {s t : Studio}

theorem deletedAt_of_createWorld {owner : OwnerId} {name : String} {tagline : Option String}
    {themes : List String} {w : World} (h : Yields (createWorld owner name tagline themes) s w t) :
    w.deletedAt = none := by
  unfold createWorld at h
  split at h
  · simp at h
  · simp only [yields_bind, yields_mint, yields_readClock, yields_store, yields_pure] at h
    obtain ⟨_, _, ⟨rfl, rfl⟩, _, _, ⟨rfl, rfl⟩, _, _, ⟨db, hinsert, rfl⟩, rfl, rfl⟩ := h
    rfl

theorem liveWorld_of_createWorld {owner : OwnerId} {name : String} {tagline : Option String}
    {themes : List String} {w : World} (h : Yields (createWorld owner name tagline themes) s w t)
    (hdb : t.db.Sound) (hrows : t.db.Readable) : t.db.LiveWorld w.id w := by
  have hjournal := (commit_createWorld h).2.journal
  have hrow : WorldRow.ofWorld w ∈ t.db.worlds := by
    rw [Journal.nil_iff.1 (Journal.cons_iff.1 hjournal).2]
    exact List.mem_append_right _ List.mem_cons_self
  obtain ⟨v, hv⟩ := hrows.worlds _ hrow
  obtain rfl := WorldRow.eq_of_decode_ofWorld hv
  refine ⟨WorldRow.ofWorld v, Worlds.find?_isLive hdb.worldIds hrow ?_, hv⟩
  refine Worlds.isLive_iff.2 ⟨rfl, ?_⟩
  show (Cell.ofTime v.deletedAt).isNull = true
  rw [deletedAt_of_createWorld h]
  rfl

/-- Publishing writes back the world that it returns, and no other one. -/
theorem world_of_publish {id : WorldId} {owner : OwnerId} {p : Publication}
    (h : Yields (e.publish id owner) s p t) : ∃ w, s.db.LiveWorld id w ∧
      (∃ now, p.world = w.activate now ∨ p.world = w.beginGeneration now) ∧
      t.db.worlds = (Write.changeWorld p.world).onWorlds s.db.worlds := by
  simp only [publish, ensurePublishable, yields_atomically, yields_bind, yields_ite, yields_throw,
    yields_readClock, yields_store, yields_tell, yields_pure, and_false, or_false] at h
  obtain ⟨w, _, howned, ⟨ms, vs⟩, t', hms, _, _, ⟨_, _, rfl⟩, now, _, ⟨rfl, rfl⟩, ⟨gs, rs⟩, u,
    hsplit, hend⟩ := h
  obtain ⟨rfl, hlive⟩ := ownedWorld_eq howned
  have hfound := (sameDb_currentModules id _).of_yields hms
  obtain ⟨_, _, hsaved⟩ := commit_splitModules hsplit
  have hworlds : u.db.worlds = s.db.worlds := by
    rw [hsaved.journal.worlds_eq (fun v hv rows => by
      obtain ⟨m, _, rfl⟩ := List.mem_map.1 hv
      rfl), ticked_db, hfound.1]
  have hupdated {v : World} {db : Database} (hupdate : Yields (Worlds.update v) u.db () db) :
      db.worlds = (Write.changeWorld v).onWorlds s.db.worlds := by
    rw [Journal.nil_iff.1 (Journal.cons_iff.1 (Worlds.journal_update hupdate)).2, ← hworlds]
    rfl
  rcases hend with ⟨_, _, _, ⟨db, hupdate, rfl⟩, _, _, rfl, rfl, rfl⟩ |
    ⟨_, _, _, ⟨db, hupdate, rfl⟩, js, v, hrebuild, _, _, rfl, rfl, rfl⟩
  · exact ⟨w, hlive, ⟨_, Or.inl rfl⟩, hupdated hupdate⟩
  · obtain ⟨_, _, hqueued⟩ := commit_rebuildJobs hrebuild
    refine ⟨w, hlive, ⟨_, Or.inr rfl⟩, ?_⟩
    rw [told_db, hqueued.journal.worlds_eq (fun v hv rows => by
      rcases List.mem_cons.1 hv with rfl | hv
      · rfl
      · obtain ⟨j, _, rfl⟩ := List.mem_map.1 hv
        rfl)]
    exact hupdated hupdate

theorem liveWorld_of_publish {id : WorldId} {owner : OwnerId} {p : Publication}
    (h : Yields (e.publish id owner) s p t) (hdb : t.db.Sound) (hrows : t.db.Readable) :
    t.db.LiveWorld id p.world := by
  obtain ⟨w, ⟨row, hfind, hdecode⟩, ⟨now, hwritten⟩, hworlds⟩ := world_of_publish h
  have hlive := List.find?_some hfind
  have hid : w.id = id := Database.LiveWorld.id_eq ⟨row, hfind, hdecode⟩
  have hwritten' : p.world.id = id := by
    rcases hwritten with hwritten | hwritten <;> rw [hwritten] <;> exact hid
  have hrow : Worlds.overwritten p.world row ∈ t.db.worlds := by
    rw [hworlds]
    exact List.mem_map.2 ⟨row, List.mem_of_find?_eq_some hfind, if_pos (hwritten'.symm ▸ hlive)⟩
  obtain ⟨v, hv⟩ := hrows.worlds _ hrow
  have heq : v = p.world := by
    rw [WorldRow.eq_of_decode_overwritten hdecode hv]
    rcases hwritten with hwritten | hwritten <;> rw [hwritten] <;> rfl
  exact ⟨_, Worlds.find?_isLive hdb.worldIds hrow hlive, heq ▸ hv⟩

/-! ## Modules -/

/-- The module can be read only of the row that is found for a current module once it is saved. -/
theorem CurrentModule.eq_of_save {db : Database} {world : WorldId} {d : ModuleDefinition}
    {m n k : WorldModule} (h : CurrentModule db world d m) (hid : n.id = m.id)
    (hworld : n.world = m.world) (hkey : n.key = m.key) (hcreated : n.createdAt = m.createdAt)
    (hk : (((db.modules.find? (Modules.isOf world d.key)).map
      (Modules.overwritten (ModuleRow.ofModule n))).getD (ModuleRow.ofModule n)).decode = .ok k) :
    k = n := by
  cases h with
  | stored h =>
    obtain ⟨row, hfind, hdecode⟩ := h
    rw [hfind] at hk
    rw [ModuleRow.eq_of_decode_overwritten hdecode hk, ← hid, ← hworld, ← hkey, ← hcreated]
  | fresh habsent mid now =>
    rw [Modules.find?_isOf_eq_none habsent] at hk
    exact ModuleRow.eq_of_decode_ofModule hk

/-- The module is stored once it is saved, if its row can be read or its times lie in years of four
digits. -/
theorem CurrentModule.stored_save {db db' : Database} {world : WorldId} {d : ModuleDefinition}
    {m n : WorldModule} (h : CurrentModule db world d m) (hjournal : Journal db [.saveModule n] db')
    (hid : n.id = m.id) (hworld : n.world = m.world) (hkey : n.key = m.key)
    (hcreated : n.createdAt = m.createdAt) (hrows : db'.Readable ∨ n.InEra) :
    db'.StoredModule world d.key n := by
  obtain rfl := Journal.nil_iff.1 (Journal.cons_iff.1 hjournal).2
  have hworld' : n.world = world := hworld.trans h.world_eq
  have hkey' : n.key = d.key := hkey.trans h.key_eq
  rcases hrows with hrows | hera
  · have hsaved := @Write.find?_saveModule_self n db.modules
    rw [hworld', hkey'] at hsaved
    obtain ⟨k, hk⟩ := hrows.modules _ (List.mem_of_find?_eq_some hsaved)
    exact ⟨_, hsaved, h.eq_of_save hid hworld hkey hcreated hk ▸ hk⟩
  · cases h with
    | stored h =>
      have hsaved := h.saved hworld' hkey' rfl (Rfc3339.parse?_stored hera.updatedAt)
      rwa [← hid, ← hworld, ← hkey, ← hcreated] at hsaved
    | fresh habsent mid now =>
      rw [← hworld', ← hkey'] at habsent ⊢
      exact Database.stored_of_fresh habsent hera

theorem stored_of_saveModuleFields {world : WorldId} {module : String} {owner : OwnerId}
    {fields : List (String × String)} {m : WorldModule}
    (h : Yields (e.saveModuleFields world module owner fields) s m t) (hrows : t.db.Readable) :
    t.db.StoredModule world module m := by
  obtain ⟨d, m₀, now, hd, hm₀, rfl, hcommit⟩ := commit_saveModuleFields h
  rw [← Registry.key_of_require hd]
  exact hm₀.stored_save hcommit.journal rfl rfl rfl rfl (Or.inl hrows)

theorem stored_of_acceptDraft {world : WorldId} {d : ModuleDefinition} {owner : OwnerId}
    {reply : GenerationReply} {m : WorldModule} (h : Yields (acceptDraft world d owner reply) s m t)
    (hrows : t.db.Readable ∨ m.InEra) : t.db.StoredModule world d.key m := by
  obtain ⟨m₀, proposed, now, hm₀, rfl, hcommit⟩ := commit_acceptDraft h
  exact hm₀.stored_save hcommit.journal rfl rfl rfl rfl hrows

/-- No module is merged into a table that is missing. -/
theorem present_of_acceptDraft {world : WorldId} {d : ModuleDefinition} {owner : OwnerId}
    {reply : GenerationReply} {m : WorldModule}
    (h : Yields (acceptDraft world d owner reply) s m t) : .modules ∉ t.db.dropped := by
  simp only [acceptDraft, mergeDraft, yields_atomically, yields_bind, yields_ofExcept, yields_tell,
    yields_readClock, yields_store, yields_pure] at h
  obtain ⟨_, _, _, _, _, _, _, _, rfl, _, _, _, n, u, _, _, _, ⟨rfl, rfl⟩, _, _, ⟨db, hsave, rfl⟩,
    _, _, rfl, rfl, rfl⟩ := h
  have hdb := Journal.nil_iff.1 (Journal.cons_iff.1 (Modules.journal_save hsave)).2
  simp only [Modules.save, yields_bind, Statement.yields_needs] at hsave
  obtain ⟨_, _, ⟨hpresent, _⟩, _⟩ := hsave
  rw [told_db, withDb_db, hdb, Write.apply_dropped]
  exact hpresent

/-! ## Jobs -/

/-- The queue that a publication returns is stored. -/
theorem jobs_of_publish {id : WorldId} {owner : OwnerId} {p : Publication}
    (h : Yields (e.publish id owner) s p t) {j : Job} (hj : j ∈ p.jobs) :
    j.IsNew ∧ JobRow.ofJob j ∈ t.db.jobs := by
  obtain ⟨w, ms, now, ws, _, _, _, _, _, hcommit, hend⟩ := (published_of_publish h).found
  rcases hend with ⟨_, hnone, _⟩ | ⟨_, hqueue, _, rfl⟩
  · rw [hnone] at hj
    cases hj
  · refine ⟨hqueue.isNew j hj, ?_⟩
    obtain ⟨_, _, hrest⟩ := Journal.append_iff.1 hcommit.journal
    rw [Database.Consistent.jobs_of_addJobs (Journal.cons_iff.1 (Journal.cons_iff.1 hrest).2).2]
    exact List.mem_append_right _ (List.mem_map_of_mem hj)

/-- The queue that rebuilding returns is stored. -/
theorem jobs_of_initializeJobs {world : WorldId} {keys : List String} {js : List Job}
    (h : Yields (e.initializeJobs world keys) s js t) {j : Job} (hj : j ∈ js) :
    j.IsNew ∧ JobRow.ofJob j ∈ t.db.jobs := by
  obtain ⟨_, hqueue, _, hcommit⟩ := commit_initializeJobs h
  refine ⟨hqueue.isNew j hj, ?_⟩
  rw [Database.Consistent.jobs_of_addJobs (Journal.cons_iff.1 hcommit.journal).2]
  exact List.mem_append_right _ (List.mem_map_of_mem hj)

end Engine

namespace Jobs

theorem yields_require_new {db : Database} (hdb : db.Sound) (hrows : db.Readable) {j : Job}
    (hj : j.IsNew ∧ JobRow.ofJob j ∈ db.jobs) : Yields (require j.id) db j db := by
  obtain ⟨k, hk⟩ := hrows.jobs _ hj.2
  obtain rfl := JobRow.eq_of_decode_ofJob hj.1 hk
  exact yields_require hdb hj.2 hk

theorem row_of_require {id : JobId} {db : Database} {j : Job} {db' : Database}
    (h : Yields (require id) db j db') :
    ∃ r ∈ db.jobs, r.id = .text id.text ∧ r.decode = .ok j := by
  simp only [require, yields_bind, Statement.yields_needs, yields_get] at h
  obtain ⟨_, _, ⟨_, rfl⟩, _, db, ⟨rfl, rfl⟩, js, u, hrows, h⟩ := h
  rcases head?_of_decodeAll hrows with ⟨_, hnone⟩ | ⟨r, hr, k, hhead, hdecode⟩
  · rw [hnone] at h
    exact absurd h (yields_throw _ _ _ _)
  · rw [hhead] at h
    obtain ⟨hr, hid⟩ := List.mem_filter.1 hr
    exact ⟨r, hr, Cell.isText_iff.1 hid, ((yields_pure _ _ _ _).1 h).1 ▸ hdecode⟩

end Jobs

namespace Engine

variable {e : Engine} {s t : Studio}

/-- Retrying ends with a look at the job. -/
theorem row_of_retryModule {world : WorldId} {module : String} {owner : OwnerId} {j : Job}
    (h : Yields (e.retryModule world module owner) s j t) : ∃ r ∈ t.db.jobs, r.decode = .ok j := by
  simp only [retryModule, yields_bind, yields_atomically, yields_store] at h
  obtain ⟨_, _, _, w, _, _, found, _, _, h⟩ := h
  cases found with
  | none => simp at h
  | some job =>
    simp only [yields_bind, yields_readClock, yields_store, yields_tell, yields_ite] at h
    obtain ⟨_, _, _, _, _, _, _, _, _, _, _, _, ⟨_, _, _, _, db, hrequire, rfl⟩ |
      ⟨_, _, _, _, _, _, _, db, hrequire, rfl⟩⟩ := h
    · obtain ⟨r, hr, _, hdecode⟩ := Jobs.row_of_require hrequire
      exact ⟨r, (Jobs.reads_require _).of_yields hrequire ▸ hr, hdecode⟩
    · obtain ⟨r, hr, _, hdecode⟩ := Jobs.row_of_require hrequire
      exact ⟨r, (Jobs.reads_require _).of_yields hrequire ▸ hr, hdecode⟩

/-- A job that was to fail runs no more. -/
theorem not_running_onJob_fail {id : JobId} {message : String} {now : Instant} {r : JobRow}
    (hid : r.id = .text id.text) :
    ((Write.fail id message now).onJob r).hasStatus .running = false := by
  simp only [Write.onJob, Cell.isText_iff.2 hid, Bool.true_and]
  cases hrunning : r.hasStatus .running with
  | true => exact Jobs.not_running_failed _ _ _
  | false => exact hrunning

/-- An expiry ends with a look at the job, which runs no more. -/
theorem row_of_expire {now : Instant} {job j : Job} (h : Yields (expire now job) s j t) :
    ∃ r ∈ t.db.jobs, r.hasStatus .running = false ∧ r.decode = .ok j := by
  simp only [expire, yields_bind, yields_store, yields_tell] at h
  obtain ⟨_, _, ⟨db, hmark, rfl⟩, _, u, hmodule, _, _, rfl, db', hrequire, rfl⟩ := h
  obtain ⟨ws, hmarks, hcommit⟩ := commit_markModule hmodule
  obtain ⟨r, hr, hid, hdecode⟩ := Jobs.row_of_require hrequire
  refine ⟨r, (Jobs.reads_require _).of_yields hrequire ▸ hr, ?_, hdecode⟩
  -- Once the job is failed, marking its module leaves the jobs.
  rw [told_db, hcommit.journal.jobs_eq hmarks.onJobs_eq, withDb_db,
    Journal.nil_iff.1 (Journal.cons_iff.1 (Jobs.journal_markFailed hmark)).2] at hr
  obtain ⟨q, _, rfl⟩ := List.mem_map.1 hr
  rw [Write.id_onJob] at hid
  exact not_running_onJob_fail hid

/-- Expiries leave the rows of jobs that do not run. -/
theorem mem_jobs_of_expireAll {now : Instant} {jobs js : List Job}
    (h : Yields (jobs.mapM (expire now)) s js t) {r : JobRow} (hr : r ∈ s.db.jobs)
    (hidle : r.hasStatus .running = false) : r ∈ t.db.jobs := by
  obtain ⟨ws, hws, hcommit⟩ := commit_expireAll h
  refine hcommit.journal.invariant (I := fun d => r ∈ d.jobs) (fun w hw d _ hd => ?_) hr
  cases hws w hw with
  | job id message now =>
    exact List.mem_map.2 ⟨r, hd, by simp [Write.onJob, hidle]⟩
  | module m _ => exact hd

theorem rows_of_expireAll {now : Instant} {jobs js : List Job}
    (h : Yields (jobs.mapM (expire now)) s js t) :
    ∀ j ∈ js, ∃ r ∈ t.db.jobs, r.decode = .ok j := by
  induction jobs generalizing s js with
  | nil =>
    simp only [List.mapM_nil, yields_pure] at h
    simp [h.1]
  | cons job jobs ih =>
    simp only [List.mapM_cons, yields_bind, yields_pure] at h
    obtain ⟨j, u, hfirst, js', _, hrest, rfl, rfl⟩ := h
    refine List.forall_mem_cons.2 ⟨?_, ih hrest⟩
    obtain ⟨r, hr, hidle, hdecode⟩ := row_of_expire hfirst
    exact ⟨r, mem_jobs_of_expireAll hrest hr hidle, hdecode⟩

/-- A look at stale leases ends with a look at each of their jobs. -/
theorem rows_of_recoverStaleLeases {timeout : Span} {js : List Job}
    (h : Yields (recoverStaleLeases timeout) s js t) :
    ∀ j ∈ js, ∃ r ∈ t.db.jobs, r.decode = .ok j := by
  simp only [recoverStaleLeases, yields_bind, yields_ite, yields_throw, yields_atomically,
    yields_readClock, yields_store, and_false, false_or, or_false] at h
  obtain ⟨_, _, _, _, _, stale, _, _, hexpire⟩ := h
  exact rows_of_expireAll hexpire

end Engine

/-! ## Runs -/

/-- What operations return after the events is what is stored when they have returned it, and a
module that is saved is found. -/
structure System.ReturnsStored (e : Engine) (events : List Event) : Prop where
  createWorld : ∀ owner name tagline themes w t,
    Yields (Engine.createWorld owner name tagline themes) (run e events).studio w t →
    t.clock.InEra → Yields (Worlds.require w.id) t.db w t.db
  saveModuleFields : ∀ world module owner fields m t,
    Yields (e.saveModuleFields world module owner fields) (run e events).studio m t →
    t.clock.InEra → Yields (Modules.require world module) t.db m t.db
  /-- This is the transaction of a call for a draft that merges the reply. -/
  acceptDraft : ∀ world d owner reply m t,
    Yields (Engine.acceptDraft world d owner reply) (run e events).studio m t →
    t.clock.InEra → Yields (Modules.require world d.key) t.db m t.db
  /-- This is the whole call, whatever the generator does to the studio before it replies. -/
  generateModule : ∀ (g : Generator (StateM Studio)) world module owner m t,
    e.generateModule g world module owner (run e events).studio = (.ok m, t) →
    m.InEra → Yields (Modules.require world module) t.db m t.db
  publish : ∀ id owner p t, Yields (e.publish id owner) (run e events).studio p t →
    t.clock.InEra → Yields (Worlds.require id) t.db p.world t.db ∧
      ∀ j ∈ p.jobs, Yields (Jobs.require j.id) t.db j t.db
  initializeJobs : ∀ world keys js t,
    Yields (e.initializeJobs world keys) (run e events).studio js t →
    t.clock.InEra → ∀ j ∈ js, Yields (Jobs.require j.id) t.db j t.db
  retryModule : ∀ world module owner j t,
    Yields (e.retryModule world module owner) (run e events).studio j t →
    Yields (Jobs.require j.id) t.db j t.db
  recoverStaleLeases : ∀ timeout js t,
    Yields (Engine.recoverStaleLeases timeout) (run e events).studio js t →
    ∀ j ∈ js, Yields (Jobs.require j.id) t.db j t.db
  /-- A module can be saved where its key is stored, and else under a new name in a world that is
  there. -/
  saves : ∀ m : WorldModule, Succeeds (Modules.save m) (run e events).studio.db ↔
    (∃ r ∈ (run e events).studio.db.modules, Modules.isOf m.world m.key r = true) ∨
      ((∀ r ∈ (run e events).studio.db.modules, r.id ≠ .text m.id.text) ∧
        ∃ w ∈ (run e events).studio.db.worlds, w.id = .text m.world.text)
  /-- After any saves, a module is found as it was saved last, under the name and with the time of
  creation of the one that was first stored under its key. -/
  saved : ∀ (ms : List WorldModule) (m : WorldModule) (db : Database), (∀ n ∈ ms ++ [m], n.InEra) →
    Yields ((ms ++ [m]).forM Modules.save) (run e events).studio.db ⟨⟩ db →
    Yields (Modules.find? m.world m.key) db
      (some (m.keeping (((run e events).studio.db.module? m.world m.key).or
        (ms.find? fun n => n.world = m.world ∧ n.key = m.key)))) db
  /-- Saves leave every other row. -/
  others : ∀ (ms : List WorldModule) (db : Database),
    Yields (ms.forM Modules.save) (run e events).studio.db ⟨⟩ db →
    db.worlds = (run e events).studio.db.worlds ∧ db.jobs = (run e events).studio.db.jobs ∧
      ∀ r, (∀ n ∈ ms, Modules.isOf n.world n.key r = false) →
        (r ∈ db.modules ↔ r ∈ (run e events).studio.db.modules)
  /-- Nor does the name or the time of creation under a key change by what happens later. -/
  first : ∀ later, ∀ r ∈ (run e events).studio.db.modules,
    ∀ r' ∈ (run e (events ++ later)).studio.db.modules,
      r'.world = r.world → r'.key = r.key → r'.id = r.id ∧ r'.createdAt = r.createdAt

/-- Along a run in years of four digits, what operations return is what is stored. The numbers of
the jobs in a queue are read back as numbers of 32 bits, which are to be enough for the modules. -/
theorem System.returnsStored {e : Engine} (hmodules : e.registry.modules.length < twoPow 32)
    {events : List Event} (hera : InEra e events) : ReturnsStored e events := by
  have hs := legible_studio hmodules hera
  have hsound := (Sound.run e events).db
  have hclock := hera _ (Nat.le_refl _)
  rw [List.take_length] at hclock
  have hrows := (hs.rows hclock.2).readable
  have hreadable {t : Studio} (ht : t.Legible) (hclock : t.clock.InEra) : t.db.Readable :=
    (ht.rows hclock.2).readable
  exact {
    createWorld := fun _ _ _ _ _ t h ht => by
      have hdb := hsound.journal (commit_createWorld h).2.journal
      exact Worlds.yields_require hdb.complete
        (liveWorld_of_createWorld h hdb (hreadable (legible_createWorld h hs) ht))
    saveModuleFields := fun _ _ _ _ _ t h ht => by
      obtain ⟨_, _, _, _, _, _, hcommit⟩ := commit_saveModuleFields h
      exact Modules.yields_require (hsound.journal hcommit.journal).complete
        (stored_of_saveModuleFields h (hreadable (legible_saveModuleFields h hs) ht))
    acceptDraft := fun _ _ _ _ _ t h ht =>
      Yields.bind (Modules.yields_find?_of_present (present_of_acceptDraft h)
        (stored_of_acceptDraft h (Or.inl (hreadable (legible_acceptDraft h hs) ht))))
        (Yields.pure _ _)
    generateModule := fun g world module owner m t h hm => by
      obtain ⟨d, reply, u, hd, haccept⟩ := accepted_of_generateModule h
      rw [← Registry.key_of_require hd]
      exact Yields.bind (Modules.yields_find?_of_present (present_of_acceptDraft haccept)
        (stored_of_acceptDraft haccept (Or.inr hm))) (Yields.pure _ _)
    publish := fun _ _ p t h ht => by
      obtain ⟨_, _, _, _, _, _, _, _, _, hcommit, _⟩ := (published_of_publish h).found
      have hdb := hsound.journal hcommit.journal
      have hrows' := hreadable (legible_publish hmodules h hs) ht
      exact ⟨Worlds.yields_require hdb.complete (liveWorld_of_publish h hdb hrows'),
        fun j hj => Jobs.yields_require_new hdb hrows' (jobs_of_publish h hj)⟩
    initializeJobs := fun _ _ js t h ht j hj => by
      obtain ⟨_, _, _, hcommit⟩ := commit_initializeJobs h
      exact Jobs.yields_require_new (hsound.journal hcommit.journal)
        (hreadable (legible_initializeJobs hmodules h hs) ht) (jobs_of_initializeJobs h hj)
    retryModule := fun _ _ _ j t h => by
      obtain ⟨_, _, _, _, _, _, _, _, _, _, _, _, hcommit⟩ := commit_retryModule h
      obtain ⟨r, hr, hdecode⟩ := row_of_retryModule h
      exact Jobs.yields_require (hsound.journal hcommit.journal) hr hdecode
    recoverStaleLeases := fun _ js t h j hj => by
      obtain ⟨_, _, hcommit⟩ := commit_recoverStaleLeases h
      obtain ⟨r, hr, hdecode⟩ := rows_of_recoverStaleLeases h j hj
      exact Jobs.yields_require (hsound.journal hcommit.journal) hr hdecode
    saves := fun m => Modules.succeeds_save_iff hsound.complete
    saved := fun ms m db hms h => by
      have hjournal := Modules.journal_saveAll h
      exact Modules.yields_find?_some (hsound.journal hjournal).complete
        (hjournal.stored_of_saves hrows hms)
    others := fun ms db h => by
      have hjournal := Modules.journal_saveAll h
      have hsave : ∀ w ∈ ms.map Write.saveModule, ∃ m, w = .saveModule m := fun w hw => by
        obtain ⟨m, _, rfl⟩ := List.mem_map.1 hw
        exact ⟨m, rfl⟩
      refine ⟨hjournal.worlds_eq fun w hw rows => ?_, hjournal.jobs_eq fun w hw rows => ?_,
        fun r hr => hjournal.mem_of_saves hr⟩
      · obtain ⟨m, rfl⟩ := hsave w hw
        rfl
      · obtain ⟨m, rfl⟩ := hsave w hw
        rfl
    first := fun later r hr r' hr' hworld hkey => by
      obtain ⟨m, hm⟩ := hrows.modules r hr
      have horigin := sameOrigin_run e events later hr (ModuleRow.holds_of_decode hm).world hr'
        hworld hkey
      exact ⟨horigin.id, horigin.createdAt⟩ }

/-- Publishing a world that was just created queues a job, and the world and the job are found. -/
theorem System.returnsStored_published : ∃ p t,
    Yields (Engine.minimal.publish (.mint 0) ⟨"owner"⟩) (run .minimal [.createFirst]).studio p t ∧
      p.jobs ≠ [] ∧ Yields (Worlds.require (.mint 0)) t.db p.world t.db ∧
        ∀ j ∈ p.jobs, Yields (Jobs.require j.id) t.db j t.db := by
  have hreturns : ReturnsStored .minimal [.createFirst] :=
    returnsStored (by decide) (by unfold InEra; decide +kernel)
  have hqueues : (match Engine.minimal.publish (.mint 0) ⟨"owner"⟩
      (run .minimal [.createFirst]).studio with
    | (.ok p, t) => decide (p.jobs ≠ [] ∧ t.clock.InEra)
    | (.error _, _) => false) = true := by
    decide +kernel
  rcases hrun : Engine.minimal.publish (.mint 0) ⟨"owner"⟩ (run .minimal [.createFirst]).studio with
    ⟨cause | p, t⟩
  · rw [hrun] at hqueues
    cases hqueues
  · rw [hrun, decide_eq_true_iff] at hqueues
    exact ⟨p, t, hrun, hqueues.1, hreturns.publish _ _ p t hrun hqueues.2⟩

end Lorebook
