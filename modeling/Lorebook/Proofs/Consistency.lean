import Lorebook.Proofs.Integrity

set_option autoImplicit false

/-! # Worlds, jobs and modules agree

While jobs are only queued by publishing, a world with a job to do is generating, a generating
world has a job that did not succeed, and the module of a job to do is not completed. The
transactions that write more than one table keep this as a whole only (`Effect.consistent`); all
other writes keep it one by one (`Database.Consistent.apply`). -/

namespace Lorebook

open Engine

/-! ## Jobs to do -/

/-- Whether the job is waiting or running. -/
def JobRow.isOutstanding (r : JobRow) : Bool :=
  r.hasStatus .waiting || r.hasStatus .running

/-- Whether the job is waiting, running or failed, so that it can still succeed. -/
def JobRow.isUnfinished (r : JobRow) : Bool :=
  r.isOutstanding || r.hasStatus .failed

theorem JobRow.isOutstanding_iff {r : JobRow} :
    r.isOutstanding = true ↔ r.hasStatus .waiting = true ∨ r.hasStatus .running = true := by
  simp [isOutstanding]

theorem JobRow.isUnfinished_of_isOutstanding {r : JobRow} (h : r.isOutstanding = true) :
    r.isUnfinished = true := by
  simp [isUnfinished, h]

theorem JobRow.isOutstanding_of_running {r : JobRow} (h : r.hasStatus .running = true) :
    r.isOutstanding = true := by
  simp [isOutstanding, h]

theorem JobRow.isOutstanding_ofJob {j : Job} (h : j.IsNew) :
    (JobRow.ofJob j).isOutstanding = true := by
  rw [isOutstanding_iff, (holds_ofJob j).hasStatus_iff, h]
  exact Or.inl rfl

@[simp] theorem Jobs.isOutstanding_succeeded (time : Cell) (r : JobRow) :
    (succeeded time r).isOutstanding = false := by
  simp [JobRow.isOutstanding, JobRow.hasStatus, Cell.isText, succeeded]
  decide

@[simp] theorem Jobs.isOutstanding_failed (message : String) (time : Cell) (r : JobRow) :
    (failed message time r).isOutstanding = false := by
  simp [JobRow.isOutstanding, JobRow.hasStatus, Cell.isText, failed]
  decide

@[simp] theorem Jobs.isUnfinished_failed (message : String) (time : Cell) (r : JobRow) :
    (failed message time r).isUnfinished = true := by
  simp [JobRow.isUnfinished, JobRow.hasStatus, Cell.isText, failed]

@[simp] theorem Jobs.isOutstanding_leased (time : Cell) (r : JobRow) :
    (leased time r).isOutstanding = true := by
  simp [JobRow.isOutstanding, JobRow.hasStatus, Cell.isText, leased]

@[simp] theorem Jobs.isOutstanding_requeued (time : Cell) (r : JobRow) :
    (requeued time r).isOutstanding = true := by
  simp [JobRow.isOutstanding, JobRow.hasStatus, Cell.isText, requeued]

/-- Only putting a job back in the queue makes it one to do. -/
theorem JobChange.isOutstanding {w : Write} {r r' : JobRow} (h : JobChange w r r')
    (hw : ∀ id now, w ≠ .requeue id now) (hr' : r'.isOutstanding = true) :
    r.isOutstanding = true := by
  cases h with
  | kept => exact hr'
  | leased now hwaiting _ => exact JobRow.isOutstanding_iff.2 (Or.inl hwaiting)
  | succeeded id now _ hrunning _ => exact JobRow.isOutstanding_of_running hrunning
  | failed id message now _ hrunning _ => exact JobRow.isOutstanding_of_running hrunning
  | requeued id now _ _ heq => exact absurd heq (hw id now)

/-- Only a success finishes a job. -/
theorem JobChange.isUnfinished {w : Write} {r r' : JobRow} (h : JobChange w r r')
    (hw : ∀ id now, w ≠ .succeed id now) (hr : r.isUnfinished = true) :
    r'.isUnfinished = true := by
  cases h with
  | kept => exact hr
  | leased now _ _ => exact JobRow.isUnfinished_of_isOutstanding (Jobs.isOutstanding_leased _ r)
  | succeeded id now _ _ heq => exact absurd heq (hw id now)
  | failed id message now _ _ _ => exact Jobs.isUnfinished_failed _ _ r
  | requeued id now _ _ _ =>
    exact JobRow.isUnfinished_of_isOutstanding (Jobs.isOutstanding_requeued _ r)

/-! ## The invariant -/

/-- A module is stored under the names, and it is not completed. -/
def Database.HasOpenModule (db : Database) (world key : Cell) : Prop :=
  ∃ m ∈ db.modules, m.world = world ∧ m.key = key ∧ m.status ≠ .text ModuleStatus.completed.text

/-- Worlds, jobs and modules agree. The first three are about deleted worlds as well. -/
structure Database.Consistent (registry : Registry) (db : Database) : Prop where
  /-- A world with a job that waits or runs is generating. -/
  generating : ∀ w ∈ db.worlds, ∀ r ∈ db.jobs, r.world = w.id → r.isOutstanding = true →
    w.status = .text WorldStatus.generating.text
  /-- A generating world has a job that waits, runs or failed. -/
  unfinished : ∀ w ∈ db.worlds, w.status = .text WorldStatus.generating.text →
    ∃ r ∈ db.jobs, r.world = w.id ∧ r.isUnfinished = true
  /-- A job that waits or runs has a stored module that is not completed. -/
  uncompleted : ∀ r ∈ db.jobs, r.isOutstanding = true → db.HasOpenModule r.world r.moduleKey
  known : ∀ r ∈ db.jobs, ∃ d ∈ registry.modules, r.moduleKey = .text d.key
  owned : ∀ r ∈ db.jobs, ∃ w ∈ db.worlds, w.id = r.world

theorem Database.consistent_empty (registry : Registry) : Database.empty.Consistent registry where
  generating w hw := by cases hw
  unfinished w hw := by cases hw
  uncompleted r hr := by cases hr
  known r hr := by cases hr
  owned r hr := by cases hr

/-! ## Tables after a write -/

theorem Modules.status_overwritten (m : WorldModule) (r : ModuleRow) :
    (overwritten (ModuleRow.ofModule m) r).status = .text m.status.text := rfl

theorem ModuleStatus.text_ne_completed {s : ModuleStatus} (h : s ≠ .completed) :
    Cell.text s.text ≠ .text ModuleStatus.completed.text := by
  intro heq
  exact h (text_inj (Cell.text.inj heq))

namespace Write

/-- A module that is stored as not completed is an open module. -/
theorem hasOpenModule_saveModule {db : Database} {m : WorldModule} (hm : m.status ≠ .completed) :
    ((saveModule m).apply db).HasOpenModule (.text m.world.text) (.text m.key) := by
  have hstatus := ModuleStatus.text_ne_completed hm
  simp only [Database.HasOpenModule, apply_modules, onModules]
  split
  · rename_i hstored
    obtain ⟨r, hr, hof⟩ := List.any_eq_true.1 hstored
    obtain ⟨hworld, hkey⟩ := Modules.isOf_iff.1 hof
    refine ⟨_, List.mem_map.2 ⟨r, hr, if_pos hof⟩, hworld, hkey, ?_⟩
    rw [Modules.status_overwritten]
    exact hstatus
  · exact ⟨_, List.mem_append_right _ (List.mem_singleton.2 rfl), rfl, rfl, hstatus⟩

/-- An open module stays open when another module is stored, or the module itself as not
completed. -/
theorem hasOpenModule_of_saveModule {db : Database} {world key : Cell}
    (h : db.HasOpenModule world key) {m : WorldModule}
    (hm : m.status ≠ .completed ∨ ¬ (world = .text m.world.text ∧ key = .text m.key)) :
    ((saveModule m).apply db).HasOpenModule world key := by
  obtain ⟨r, hr, rfl, rfl, hopen⟩ := h
  simp only [Database.HasOpenModule, apply_modules, onModules]
  split
  · refine ⟨_, List.mem_map.2 ⟨r, hr, rfl⟩, ?_⟩
    by_cases hof : Modules.isOf m.world m.key r = true
    · rw [if_pos hof]
      refine ⟨rfl, rfl, ?_⟩
      rw [Modules.status_overwritten]
      rcases hm with hm | hm
      · exact ModuleStatus.text_ne_completed hm
      · exact absurd (Modules.isOf_iff.1 hof) hm
    · rw [if_neg hof]
      exact ⟨rfl, rfl, hopen⟩
  · exact ⟨r, List.mem_append_left _ hr, rfl, rfl, hopen⟩

/-- Writing back a world takes away no name. -/
theorem exists_changeWorld {w : World} {db : Database} {r : WorldRow} (hr : r ∈ db.worlds)
    {id : Cell} (hid : r.id = id) : ∃ q ∈ ((changeWorld w).apply db).worlds, q.id = id := by
  refine ⟨_, List.mem_map_of_mem hr, ?_⟩
  split <;> exact hid

end Write

/-- The row of a live world is the only one of its name. -/
theorem Database.LiveWorld.row_eq {db : Database} {id : WorldId} {w : World}
    (h : db.LiveWorld id w) (hdb : db.Sound) {r : WorldRow} (hr : r ∈ db.worlds)
    (hid : r.id = .text id.text) : Worlds.isLive id r = true ∧ r.Holds w := by
  obtain ⟨row, hfind, hdecode⟩ := h
  have hlive := List.find?_some hfind
  have heq : r = row := List.inj_on_of_nodup_map hdb.worldIds hr (List.mem_of_find?_eq_some hfind)
    (hid.trans (Worlds.isLive_iff.1 hlive).1.symm)
  rw [heq]
  exact ⟨hlive, WorldRow.holds_of_decode hdecode⟩

/-- Writing back a live world sets the status of its row and leaves the others. -/
theorem Write.mem_changeWorld {db : Database} {id : WorldId} {w : World}
    (hlive : db.LiveWorld id w) (hdb : db.Sound) {v : World} (hv : v.id = id) {r : WorldRow}
    (hr : r ∈ (changeWorld v).onWorlds db.worlds) :
    (r.id = .text id.text ∧ r.status = .text v.status.text) ∨
      (r.id ≠ .text id.text ∧ r ∈ db.worlds) := by
  obtain ⟨r₀, hr₀, rfl⟩ := List.mem_map.1 hr
  rw [hv]
  by_cases hid : r₀.id = .text id.text
  · rw [if_pos (hlive.row_eq hdb hr₀ hid).1]
    exact Or.inl ⟨hid, rfl⟩
  · rw [if_neg fun h => hid (Worlds.isLive_iff.1 h).1]
    exact Or.inr ⟨hid, hr₀⟩

/-- A live world that is written back has the new status. -/
theorem Write.status_changeWorld {db : Database} {id : WorldId} {w : World}
    (hlive : db.LiveWorld id w) (hdb : db.Sound) {v : World} (hv : v.id = id) {r : WorldRow}
    (hr : r ∈ (changeWorld v).onWorlds db.worlds) (hid : r.id = .text id.text) :
    r.status = .text v.status.text := by
  rcases mem_changeWorld hlive hdb hv hr with ⟨_, hstatus⟩ | ⟨hother, _⟩
  · exact hstatus
  · exact absurd hid hother

theorem WorldStatus.text_ne_generating {s : WorldStatus} (h : s ≠ .generating) :
    Cell.text s.text ≠ .text WorldStatus.generating.text := by
  intro heq
  exact h (text_inj (Cell.text.inj heq))

/-! ## Writes that keep the tables in agreement one by one -/

/-- The writes that keep worlds, jobs and modules in agreement by themselves. -/
inductive Write.Harmless : Write → Prop where
  | addWorld {w : World} (h : w.status ≠ .generating) : Harmless (.addWorld w)
  | hideWorld (id : WorldId) (now : Instant) : Harmless (.hideWorld id now)
  | removeWorld (id : WorldId) : Harmless (.removeWorld id)
  | saveModule {m : WorldModule} (h : m.status ≠ .completed) : Harmless (.saveModule m)
  | lease (row : JobRow) (now : Instant) : Harmless (.lease row now)
  | fail (id : JobId) (message : String) (now : Instant) : Harmless (.fail id message now)

namespace Database.Consistent

variable {registry : Registry} {db : Database}

/-- Changed rows of jobs are of modules that the registry knows. -/
theorem known_onJob (h : db.Consistent registry) (hdb : db.Sound) {w : Write} (hw : w.Allowed db)
    {r : JobRow} (hr : r ∈ db.jobs.map w.onJob) :
    ∃ d ∈ registry.modules, r.moduleKey = .text d.key := by
  obtain ⟨r₀, hr₀, rfl⟩ := List.mem_map.1 hr
  obtain ⟨_, _, hkey, _⟩ := (Write.jobChange hw hdb.jobIds hr₀).names_eq
  rw [hkey]
  exact h.known r₀ hr₀

/-- A write that changes rows of jobs, but neither succeeds nor requeues one, keeps the
agreement. -/
theorem onJob (h : db.Consistent registry) (hdb : db.Sound) {w : Write} (hw : w.Allowed db)
    (happly : w.apply db = { db with jobs := db.jobs.map w.onJob })
    (hsucceed : ∀ id now, w ≠ .succeed id now) (hrequeue : ∀ id now, w ≠ .requeue id now) :
    (w.apply db).Consistent registry := by
  rw [happly]
  have hchange : ∀ r ∈ db.jobs, JobChange w r (w.onJob r) := fun r hr =>
    Write.jobChange hw hdb.jobIds hr
  -- Every row stays under its names: what is outstanding was so before, and what was unfinished
  -- still is.
  refine ⟨?_, ?_, ?_, ?_, ?_⟩
  · intro q hq r hr hworld hout
    obtain ⟨r₀, hr₀, rfl⟩ := List.mem_map.1 hr
    obtain ⟨_, hworld₀, _, _⟩ := (hchange r₀ hr₀).names_eq
    exact h.generating q hq r₀ hr₀ (hworld₀ ▸ hworld) ((hchange r₀ hr₀).isOutstanding hrequeue hout)
  · intro q hq hgenerating
    obtain ⟨r, hr, hworld, hopen⟩ := h.unfinished q hq hgenerating
    obtain ⟨_, hworld₀, _, _⟩ := (hchange r hr).names_eq
    exact ⟨w.onJob r, List.mem_map_of_mem hr, hworld₀.trans hworld,
      (hchange r hr).isUnfinished hsucceed hopen⟩
  · intro r hr hout
    obtain ⟨r₀, hr₀, rfl⟩ := List.mem_map.1 hr
    obtain ⟨_, hworld₀, hkey₀, _⟩ := (hchange r₀ hr₀).names_eq
    rw [hworld₀, hkey₀]
    exact h.uncompleted r₀ hr₀ ((hchange r₀ hr₀).isOutstanding hrequeue hout)
  · exact fun r hr => h.known_onJob hdb hw hr
  · intro r hr
    obtain ⟨r₀, hr₀, rfl⟩ := List.mem_map.1 hr
    obtain ⟨_, hworld₀, _, _⟩ := (hchange r₀ hr₀).names_eq
    rw [hworld₀]
    exact h.owned r₀ hr₀

theorem addWorld (h : db.Consistent registry) {w : World} (hw : w.status ≠ .generating)
    (hnew : ∀ r ∈ db.worlds, r.id ≠ .text w.id.text) :
    ((Write.addWorld w).apply db).Consistent registry where
  generating q hq r hr hworld hout := by
    rcases List.mem_append.1 hq with hq | hq
    · exact h.generating q hq r hr hworld hout
    · -- No job is of a world that is not there yet.
      rw [List.mem_singleton.1 hq] at hworld
      obtain ⟨p, hp, hid⟩ := h.owned r hr
      exact absurd (hid.trans hworld) (hnew p hp)
  unfinished q hq hgenerating := by
    rcases List.mem_append.1 hq with hq | hq
    · exact h.unfinished q hq hgenerating
    · rw [List.mem_singleton.1 hq] at hgenerating
      exact absurd hgenerating (WorldStatus.text_ne_generating hw)
  uncompleted := h.uncompleted
  known := h.known
  owned r hr := by
    obtain ⟨q, hq, hid⟩ := h.owned r hr
    exact ⟨q, List.mem_append_left _ hq, hid⟩

theorem hideWorld (h : db.Consistent registry) (id : WorldId) (now : Instant) :
    ((Write.hideWorld id now).apply db).Consistent registry where
  generating q hq r hr hworld hout := by
    obtain ⟨q₀, hq₀, rfl⟩ := List.mem_map.1 hq
    by_cases hlive : Worlds.isLive id q₀ = true
    · rw [if_pos hlive] at hworld ⊢
      exact h.generating q₀ hq₀ r hr hworld hout
    · rw [if_neg hlive] at hworld ⊢
      exact h.generating q₀ hq₀ r hr hworld hout
  unfinished q hq hgenerating := by
    obtain ⟨q₀, hq₀, rfl⟩ := List.mem_map.1 hq
    by_cases hlive : Worlds.isLive id q₀ = true
    · rw [if_pos hlive] at hgenerating ⊢
      exact h.unfinished q₀ hq₀ hgenerating
    · rw [if_neg hlive] at hgenerating ⊢
      exact h.unfinished q₀ hq₀ hgenerating
  uncompleted := h.uncompleted
  known := h.known
  owned r hr := by
    obtain ⟨q, hq, hid⟩ := h.owned r hr
    refine ⟨_, List.mem_map_of_mem hq, ?_⟩
    split <;> exact hid

theorem removeWorld (h : db.Consistent registry) (id : WorldId) :
    ((Write.removeWorld id).apply db).Consistent registry where
  generating q hq r hr :=
    h.generating q (List.mem_filter.1 hq).1 r (List.mem_filter.1 hr).1
  unfinished q hq hgenerating := by
    obtain ⟨hq, hother⟩ := List.mem_filter.1 hq
    obtain ⟨r, hr, hworld, hopen⟩ := h.unfinished q hq hgenerating
    exact ⟨r, List.mem_filter.2 ⟨hr, by rw [hworld]; exact hother⟩, hworld, hopen⟩
  uncompleted r hr hout := by
    obtain ⟨hr, hother⟩ := List.mem_filter.1 hr
    obtain ⟨m, hm, hworld, hkey, hopen⟩ := h.uncompleted r hr hout
    exact ⟨m, List.mem_filter.2 ⟨hm, by rw [hworld]; exact hother⟩, hworld, hkey, hopen⟩
  known r hr := h.known r (List.mem_filter.1 hr).1
  owned r hr := by
    obtain ⟨hr, hother⟩ := List.mem_filter.1 hr
    obtain ⟨q, hq, hid⟩ := h.owned r hr
    exact ⟨q, List.mem_filter.2 ⟨hq, by rw [hid]; exact hother⟩, hid⟩

theorem saveModule (h : db.Consistent registry) {m : WorldModule} (hm : m.status ≠ .completed) :
    ((Write.saveModule m).apply db).Consistent registry where
  generating := h.generating
  unfinished := h.unfinished
  uncompleted r hr hout :=
    Write.hasOpenModule_of_saveModule (h.uncompleted r hr hout) (Or.inl hm)
  known := h.known
  owned := h.owned

/-- Harmless writes keep worlds, jobs and modules in agreement. -/
theorem apply (h : db.Consistent registry) (hdb : db.Sound) {w : Write} (hw : w.Allowed db)
    (hharmless : w.Harmless) : (w.apply db).Consistent registry := by
  cases hharmless with
  | addWorld hstatus => exact h.addWorld hstatus hw
  | hideWorld id now => exact h.hideWorld id now
  | removeWorld id => exact h.removeWorld id
  | saveModule hstatus => exact h.saveModule hstatus
  | lease row now => exact h.onJob hdb hw rfl (by simp) (by simp)
  | fail id message now => exact h.onJob hdb hw rfl (by simp) (by simp)

end Database.Consistent

/-! ## Writes about one world -/

/-- The second database differs from the first by what is of one world only. -/
structure Database.Frame (id : WorldId) (db db' : Database) : Prop where
  worlds : ∀ q ∈ db'.worlds, q.id ≠ .text id.text → q ∈ db.worlds
  names : ∀ q ∈ db.worlds, ∃ q' ∈ db'.worlds, q'.id = q.id
  jobs : ∀ r : JobRow, r.world ≠ .text id.text → (r ∈ db'.jobs ↔ r ∈ db.jobs)
  modules : ∀ world key, world ≠ .text id.text → db.HasOpenModule world key →
    db'.HasOpenModule world key

namespace Database.Frame

variable {id : WorldId} {db db' db'' : Database}

theorem refl (id : WorldId) (db : Database) : Frame id db db :=
  ⟨fun _ hq _ => hq, fun q hq => ⟨q, hq, rfl⟩, fun _ _ => Iff.rfl, fun _ _ _ h => h⟩

theorem trans (h : Frame id db db') (h' : Frame id db' db'') : Frame id db db'' where
  worlds q hq hid := h.worlds q (h'.worlds q hq hid) hid
  names q hq := by
    obtain ⟨q', hq', hid⟩ := h.names q hq
    obtain ⟨q'', hq'', hid'⟩ := h'.names q' hq'
    exact ⟨q'', hq'', hid'.trans hid⟩
  jobs r hr := (h'.jobs r hr).trans (h.jobs r hr)
  modules world key hworld hopen := h'.modules world key hworld (h.modules world key hworld hopen)

end Database.Frame

/-- The writes that are about one world, jobs that are already there apart. -/
inductive Write.About (id : WorldId) : Write → Prop where
  | changeWorld {w : World} (h : w.id = id) : About id (.changeWorld w)
  | saveModule {m : WorldModule} (h : m.world = id) : About id (.saveModule m)
  | clearQueue : About id (.clearQueue id)
  | addJob {j : Job} (h : j.world = id) : About id (.addJob j)

theorem Write.About.frame {id : WorldId} {w : Write} (h : w.About id) (db : Database) :
    db.Frame id (w.apply db) := by
  have hrefl := Database.Frame.refl id db
  cases h with
  | @changeWorld w h =>
    refine ⟨fun q hq hid => ?_, fun q hq => Write.exists_changeWorld hq rfl, hrefl.jobs,
      hrefl.modules⟩
    obtain ⟨q₀, hq₀, rfl⟩ := List.mem_map.1 hq
    by_cases hlive : Worlds.isLive w.id q₀ = true
    · rw [if_pos hlive] at hid
      exact absurd (h ▸ (Worlds.isLive_iff.1 hlive).1) hid
    · rw [if_neg hlive]
      exact hq₀
  | saveModule h =>
    refine ⟨hrefl.worlds, hrefl.names, hrefl.jobs, fun world key hworld hopen => ?_⟩
    exact hasOpenModule_of_saveModule hopen (Or.inr fun hof => hworld (h ▸ hof.1))
  | clearQueue =>
    refine ⟨hrefl.worlds, hrefl.names, fun r hr => ?_, hrefl.modules⟩
    rw [apply_jobs, onJobs, List.mem_filter, Bool.not_eq_true', Cell.isText_eq_false_iff]
    exact ⟨fun h => h.1, fun h => ⟨h, hr⟩⟩
  | @addJob j h =>
    refine ⟨hrefl.worlds, hrefl.names, fun r hr => ?_, hrefl.modules⟩
    rw [apply_jobs, onJobs, List.mem_append, List.mem_singleton]
    refine ⟨fun hmem => hmem.resolve_right fun heq => hr ?_, Or.inl⟩
    rw [heq, ← h]
    rfl

theorem Journal.frame {id : WorldId} {db db' : Database} {ws : List Write}
    (h : Journal db ws db') (hws : ∀ w ∈ ws, w.About id) : db.Frame id db' :=
  h.invariant (I := db.Frame id) (fun w hw d _ hd => hd.trans ((hws w hw).frame d)) (.refl id db)

/-- The write changes one row of the jobs, and not what names it. -/
structure Write.ChangesRow (w : Write) (db : Database) (r : JobRow) : Prop where
  apply_eq : w.apply db = { db with jobs := db.jobs.map w.onJob }
  world_eq : ∀ q ∈ db.jobs, (w.onJob q).world = q.world
  key_eq : ∀ q ∈ db.jobs, (w.onJob q).moduleKey = q.moduleKey
  kept : ∀ q ∈ db.jobs, q ≠ r → w.onJob q = q

theorem Write.changesRow_of_job {w : Write} {id : JobId} (hjob : w.job? = some id) {db : Database}
    (hdb : db.Sound) (hw : w.Allowed db) {r : JobRow} (hr : r ∈ db.jobs)
    (hid : r.id = .text id.text) : w.ChangesRow db r where
  apply_eq := apply_of_job hjob db
  world_eq _ hq := (jobChange hw hdb.jobIds hq).names_eq.2.1
  key_eq _ hq := (jobChange hw hdb.jobIds hq).names_eq.2.2.1
  kept _ hq hne := onJob_of_ne hjob fun heq =>
    hne (eq_of_jobId hdb.jobIds hq hr (heq.trans hid.symm))

/-- A write that changes one row of the jobs is about the world of that row. -/
theorem Write.ChangesRow.frame {id : WorldId} {w : Write} {db : Database} {r : JobRow}
    (h : w.ChangesRow db r) (hr : r.world = .text id.text) : db.Frame id (w.apply db) := by
  have hrefl := Database.Frame.refl id db
  have hkept : ∀ q ∈ db.jobs, q.world ≠ .text id.text → w.onJob q = q := fun q hq hother =>
    h.kept q hq fun heq => hother (heq ▸ hr)
  rw [h.apply_eq]
  refine ⟨hrefl.worlds, hrefl.names, fun q hq => ⟨fun hmem => ?_, fun hmem => ?_⟩, hrefl.modules⟩
  · obtain ⟨q₀, hq₀, rfl⟩ := List.mem_map.1 hmem
    rw [h.world_eq q₀ hq₀] at hq
    rw [hkept q₀ hq₀ hq]
    exact hq₀
  · exact List.mem_map.2 ⟨q, hmem, hkept q hmem hq⟩

/-- The agreement as far as it is about one world. -/
structure Database.ConsistentAt (registry : Registry) (db : Database) (id : WorldId) : Prop where
  owned : ∃ q ∈ db.worlds, q.id = .text id.text
  world : ∀ q ∈ db.worlds, q.id = .text id.text →
    (q.status = .text WorldStatus.generating.text ∧
      ∃ r ∈ db.jobs, r.world = .text id.text ∧ r.isUnfinished = true) ∨
    (q.status ≠ .text WorldStatus.generating.text ∧
      ∀ r ∈ db.jobs, r.world = .text id.text → r.isOutstanding = false)
  uncompleted : ∀ r ∈ db.jobs, r.world = .text id.text → r.isOutstanding = true →
    db.HasOpenModule r.world r.moduleKey
  known : ∀ r ∈ db.jobs, r.world = .text id.text → ∃ d ∈ registry.modules, r.moduleKey = .text d.key

/-- After writes about one world, the agreement has to be checked for that world. -/
theorem Database.Consistent.of_frame {registry : Registry} {db db' : Database} {id : WorldId}
    (h : db.Consistent registry) (hframe : db.Frame id db') (hid : db'.ConsistentAt registry id) :
    db'.Consistent registry where
  generating q hq r hr hworld hout := by
    by_cases hq₀ : q.id = .text id.text
    · rcases hid.world q hq hq₀ with ⟨hgenerating, _⟩ | ⟨_, hidle⟩
      · exact hgenerating
      · have hfalse := hidle r hr (hworld.trans hq₀)
        rw [hout] at hfalse
        cases hfalse
    · exact h.generating q (hframe.worlds q hq hq₀) r
        ((hframe.jobs r (by rwa [hworld])).1 hr) hworld hout
  unfinished q hq hgenerating := by
    by_cases hq₀ : q.id = .text id.text
    · rcases hid.world q hq hq₀ with ⟨_, r, hr, hworld, hopen⟩ | ⟨hother, _⟩
      · exact ⟨r, hr, hworld.trans hq₀.symm, hopen⟩
      · exact absurd hgenerating hother
    · obtain ⟨r, hr, hworld, hopen⟩ := h.unfinished q (hframe.worlds q hq hq₀) hgenerating
      exact ⟨r, (hframe.jobs r (by rwa [hworld])).2 hr, hworld, hopen⟩
  uncompleted r hr hout := by
    by_cases hworld : r.world = .text id.text
    · exact hid.uncompleted r hr hworld hout
    · exact hframe.modules _ _ hworld
        (h.uncompleted r ((hframe.jobs r hworld).1 hr) hout)
  known r hr := by
    by_cases hworld : r.world = .text id.text
    · exact hid.known r hr hworld
    · exact h.known r ((hframe.jobs r hworld).1 hr)
  owned r hr := by
    by_cases hworld : r.world = .text id.text
    · rw [hworld]
      exact hid.owned
    · obtain ⟨q, hq, heq⟩ := h.owned r ((hframe.jobs r hworld).1 hr)
      obtain ⟨q', hq', heq'⟩ := hframe.names q hq
      exact ⟨q', hq', heq'.trans heq⟩

/-! ## Publishing -/

/-- A module that is taken over is stored as completed, in the only row of its names. -/
theorem Engine.CurrentModule.not_hasOpenModule {db : Database} (hdb : db.Sound) {world : WorldId}
    {d : ModuleDefinition} {m : WorldModule} (hm : CurrentModule db world d m)
    (hreuse : m.isReusable = true) : ¬ db.HasOpenModule (.text world.text) (.text d.key) := by
  rintro ⟨r, hr, hworld, hkey, hopen⟩
  obtain ⟨row, hfind, hdecode⟩ := hm.stored_of_isReusable hreuse
  have hfound := Modules.find?_isOf hdb.moduleKeys hr (Modules.isOf_iff.2 ⟨hworld, hkey⟩)
  obtain rfl := Option.some.inj (hfind.symm.trans hfound)
  rw [(ModuleRow.holds_of_decode hdecode).status, status_of_isReusable hreuse] at hopen
  exact hopen rfl

namespace Database.Consistent

variable {registry : Registry} {db : Database}

/-- When every module of a world is taken over, no job of it waits or runs. -/
theorem idle_of_current (h : db.Consistent registry) (hdb : db.Sound) {id : WorldId}
    {ms : List WorldModule} (hms : CurrentModules db id registry.modules ms)
    (hstale : stale ms = []) {r : JobRow} (hr : r ∈ db.jobs) (hworld : r.world = .text id.text) :
    r.isOutstanding = false := by
  cases hout : r.isOutstanding with
  | false => rfl
  | true =>
    obtain ⟨d, hd, hkey⟩ := h.known r hr
    obtain ⟨m, hm, hcurrent⟩ := CurrentModules.exists_module hms hd
    have hreuse : m.isReusable = true := by
      have hmem := List.filter_eq_nil_iff.1 hstale m hm
      simpa using hmem
    -- The module of an outstanding job is not completed, but what is taken over is.
    have hopen := h.uncompleted r hr hout
    rw [hworld, hkey] at hopen
    exact absurd hopen (hcurrent.not_hasOpenModule hdb hreuse)

/-- The name of a live world is still there after writes about the world. -/
theorem owned_of_frame {db' : Database} {id : WorldId} {w : World} (hlive : db.LiveWorld id w)
    (hframe : db.Frame id db') : ∃ q ∈ db'.worlds, q.id = .text id.text := by
  obtain ⟨row, hfind, _⟩ := hlive
  obtain ⟨q, hq, heq⟩ := hframe.names row (List.mem_of_find?_eq_some hfind)
  exact ⟨q, hq, heq.trans (Worlds.isLive_iff.1 (List.find?_some hfind)).1⟩

/-- A publication that takes over every module keeps the agreement. -/
theorem activate (h : db.Consistent registry) (hdb : db.Sound) {id : WorldId} {w : World}
    (hlive : db.LiveWorld id w) {ms : List WorldModule}
    (hms : CurrentModules db id registry.modules ms) (hstale : stale ms = []) (now : Instant) :
    ((Write.changeWorld (w.activate now)).apply db).Consistent registry := by
  have hframe := Write.About.frame (Write.About.changeWorld (w := w.activate now) hlive.id_eq) db
  refine h.of_frame hframe ⟨owned_of_frame hlive hframe, fun q hq hid => Or.inr ⟨?_, ?_⟩, ?_, ?_⟩
  · rw [Write.status_changeWorld hlive hdb (v := w.activate now) hlive.id_eq hq hid]
    exact WorldStatus.text_ne_generating (by simp [World.activate])
  · exact fun r hr hworld => h.idle_of_current hdb hms hstale hr hworld
  · exact fun r hr _ hout => h.uncompleted r hr hout
  · exact fun r hr _ => h.known r hr

/-- Modules that are stored as not completed, one after the other, are open then. -/
theorem hasOpenModule_of_journal {ms : List WorldModule} {db' : Database}
    (hjournal : Journal db (ms.map .saveModule) db') (hopen : ∀ m ∈ ms, m.status ≠ .completed) :
    ∀ m ∈ ms, db'.HasOpenModule (.text m.world.text) (.text m.key) := by
  induction ms generalizing db with
  | nil => simp
  | cons m ms ih =>
    obtain ⟨_, hrest⟩ := Journal.cons_iff.1 hjournal
    have hms : ∀ n ∈ ms, n.status ≠ .completed := fun n hn => hopen n (List.mem_cons_of_mem m hn)
    intro n hn
    rcases List.mem_cons.1 hn with rfl | hn
    · refine hrest.invariant (I := fun d => d.HasOpenModule (.text n.world.text) (.text n.key))
        (fun w hw d _ hd => ?_) (Write.hasOpenModule_saveModule (hopen n List.mem_cons_self))
      obtain ⟨k, hk, rfl⟩ := List.mem_map.1 hw
      exact Write.hasOpenModule_of_saveModule hd (Or.inl (hms k hk))
    · exact ih hrest hms n hn

/-- Jobs that are added one after the other come after those that were there. -/
theorem jobs_of_addJobs {js : List Job} {db' : Database}
    (hjournal : Journal db (js.map .addJob) db') : db'.jobs = db.jobs ++ js.map JobRow.ofJob := by
  induction js generalizing db with
  | nil =>
    rw [Journal.nil_iff.1 hjournal, List.map_nil, List.append_nil]
  | cons j js ih =>
    rw [ih (Journal.cons_iff.1 hjournal).2, List.map_cons, Write.apply_jobs, Write.onJobs,
      List.append_assoc, List.singleton_append]

/-- A new queue is about its world only. -/
theorem frame_of_enqueue {id : WorldId} {owner : OwnerId} {now : Instant} {ms : List WorldModule}
    {v : World} {js : List Job} {db' : Database} (hv : v.id = id) (hms : ∀ m ∈ ms, m.world = id)
    (hjs : ∀ j ∈ js, j.world = id)
    (hjournal : Journal db (ms.map (fun m => .saveModule (awaiting owner now m)) ++
      .changeWorld v :: .clearQueue id :: js.map .addJob) db') : db.Frame id db' := by
  refine hjournal.frame fun x hx => ?_
  simp only [List.mem_append, List.mem_map, List.mem_cons] at hx
  rcases hx with ⟨m, hm, rfl⟩ | rfl | rfl | ⟨j, hj, rfl⟩
  · exact .saveModule (hms m hm)
  · exact .changeWorld hv
  · exact .clearQueue
  · exact .addJob (hjs j hj)

/-- What a new queue leaves: the modules that it is for are open, the world is written back, and its
jobs are the new ones. -/
theorem tables_of_enqueue {id : WorldId} {ms : List WorldModule} {v : World} {js : List Job}
    {db' : Database} (hjournal : Journal db (ms.map .saveModule ++
      .changeWorld v :: .clearQueue id :: js.map .addJob) db')
    (hopen : ∀ m ∈ ms, m.status ≠ .completed) :
    (∀ m ∈ ms, db'.HasOpenModule (.text m.world.text) (.text m.key)) ∧
      db'.worlds = (Write.changeWorld v).onWorlds db.worlds ∧
      db'.jobs = (Write.clearQueue id).onJobs db.jobs ++ js.map JobRow.ofJob := by
  obtain ⟨db₁, hsaves, hrest⟩ := Journal.append_iff.1 hjournal
  have hadds := (Journal.cons_iff.1 (Journal.cons_iff.1 hrest).2).2
  have hadd : ∀ w ∈ js.map Write.addJob, ∃ j, w = .addJob j := fun w hw => by
    obtain ⟨j, _, rfl⟩ := List.mem_map.1 hw
    exact ⟨j, rfl⟩
  have hsave : ∀ w ∈ ms.map Write.saveModule, ∃ m, w = .saveModule m := fun w hw => by
    obtain ⟨m, _, rfl⟩ := List.mem_map.1 hw
    exact ⟨m, rfl⟩
  have hmodules : db'.modules = db₁.modules := hadds.modules_eq fun w hw rows => by
    obtain ⟨j, rfl⟩ := hadd w hw
    rfl
  have hworlds := hadds.worlds_eq fun w hw rows => by
    obtain ⟨j, rfl⟩ := hadd w hw
    rfl
  have hworlds₁ : db₁.worlds = db.worlds := hsaves.worlds_eq fun w hw rows => by
    obtain ⟨m, rfl⟩ := hsave w hw
    rfl
  have hjobs₁ : db₁.jobs = db.jobs := hsaves.jobs_eq fun w hw rows => by
    obtain ⟨m, rfl⟩ := hsave w hw
    rfl
  refine ⟨fun m hm => ?_, ?_, ?_⟩
  · rw [Database.HasOpenModule, hmodules]
    exact hasOpenModule_of_journal hsaves hopen m hm
  · rw [hworlds, ← hworlds₁]
    rfl
  · rw [jobs_of_addJobs hadds, ← hjobs₁]
    rfl

/-- The jobs of a world after its queue was replaced are the new ones. -/
theorem exists_newJob {id : WorldId} {rows : List JobRow} {js : List Job} {r : JobRow}
    (hr : r ∈ (Write.clearQueue id).onJobs rows ++ js.map JobRow.ofJob)
    (hworld : r.world = .text id.text) : ∃ j ∈ js, r = JobRow.ofJob j := by
  rcases List.mem_append.1 hr with hr | hr
  · have hother := (List.mem_filter.1 hr).2
    rw [Bool.not_eq_true', Cell.isText_eq_false_iff] at hother
    exact absurd hworld hother
  · obtain ⟨j, hj, heq⟩ := List.mem_map.1 hr
    exact ⟨j, hj, heq.symm⟩

/-- A publication that queues modules keeps the agreement: it marks the modules that it queues,
and it queues at least one. -/
theorem enqueue (h : db.Consistent registry) (hdb : db.Sound) {id : WorldId} {owner : OwnerId}
    {w : World} (hlive : db.LiveWorld id w) {ms : List WorldModule}
    (hms : CurrentModules db id registry.modules ms) (hstale : stale ms ≠ []) {js : List Job}
    (hqueue : NewQueue id 1 ((stale ms).map (·.key)) js) {now : Instant} {db' : Database}
    (hjournal : Journal db ((stale ms).map (fun m => .saveModule (awaiting owner now m)) ++
      .changeWorld (w.beginGeneration now) :: .clearQueue id :: js.map .addJob) db') :
    db'.Consistent registry := by
  -- What is queued are modules of the registry, so the jobs know their definitions.
  have hmodule : ∀ m ∈ stale ms, m.world = id ∧ ∃ d ∈ registry.modules, m.key = d.key := by
    intro m hm
    obtain ⟨d, hd, hcurrent⟩ := CurrentModules.exists_definition hms (List.mem_filter.1 hm).1
    exact ⟨hcurrent.world_eq, d, hd, hcurrent.key_eq⟩
  have hframe : db.Frame id db' := frame_of_enqueue (v := w.beginGeneration now) hlive.id_eq
    (fun m hm => (hmodule m hm).1) hqueue.world_eq hjournal
  have hsaves : (stale ms).map (fun m => Write.saveModule (awaiting owner now m)) =
      ((stale ms).map (awaiting owner now)).map .saveModule := by
    rw [List.map_map]
    rfl
  rw [hsaves] at hjournal
  obtain ⟨hopened, hworlds, hjobs⟩ := tables_of_enqueue hjournal fun n hn => by
    obtain ⟨m, _, rfl⟩ := List.mem_map.1 hn
    simp
  -- No job of the world is left over, and each new one is for a module that was marked.
  have hnew : ∀ r ∈ db'.jobs, r.world = .text id.text →
      ∃ j ∈ js, r = JobRow.ofJob j ∧ ∃ m ∈ stale ms, j.moduleKey = m.key := by
    intro r hr hworld
    rw [hjobs] at hr
    obtain ⟨j, hj, rfl⟩ := exists_newJob hr hworld
    obtain ⟨m, hm, heq⟩ := List.mem_map.1 (hqueue.key_mem hj)
    exact ⟨j, hj, rfl, m, hm, heq.symm⟩
  refine h.of_frame hframe ⟨owned_of_frame hlive hframe, fun q hq hid => Or.inl ⟨?_, ?_⟩, ?_, ?_⟩
  · rw [hworlds] at hq
    exact Write.status_changeWorld hlive hdb (v := w.beginGeneration now) hlive.id_eq hq hid
  · obtain ⟨j, hj⟩ := hqueue.exists_job (by simpa using hstale)
    refine ⟨JobRow.ofJob j, ?_, ?_, ?_⟩
    · rw [hjobs]
      exact List.mem_append_right _ (List.mem_map_of_mem hj)
    · rw [← hqueue.world_eq j hj]
      rfl
    · exact JobRow.isUnfinished_of_isOutstanding
        (JobRow.isOutstanding_ofJob (hqueue.isNew j hj))
  · intro r hr hworld _
    obtain ⟨j, hj, rfl, m, hm, hkey⟩ := hnew r hr hworld
    have hopen := hopened _ (List.mem_map_of_mem hm)
    rw [← hqueue.world_eq j hj] at hworld
    show db'.HasOpenModule (.text j.world.text) (.text j.moduleKey)
    rw [hqueue.world_eq j hj, hkey, ← (hmodule m hm).1]
    exact hopen
  · intro r hr hworld
    obtain ⟨j, hj, rfl, m, hm, hkey⟩ := hnew r hr hworld
    obtain ⟨_, d, hd, heq⟩ := hmodule m hm
    exact ⟨d, hd, congrArg Cell.text (hkey.trans heq)⟩

end Database.Consistent

/-! ## Retrying and completing -/

/-- What a change of one job leaves when its module and its world are written back after it. -/
structure JobWritten (id : WorldId) (w : Write) (m : WorldModule) (vs : List Write)
    (db db' : Database) : Prop where
  frame : db.Frame id db'
  jobs_eq : db'.jobs = db.jobs.map w.onJob
  modules_eq : db'.modules = ((Write.saveModule m).apply db).modules
  worlds : ∃ d : Database, d.worlds = db.worlds ∧ Journal d vs db'

theorem Write.ChangesRow.jobWritten {id : WorldId} {w : Write} {db : Database} {r : JobRow}
    (h : w.ChangesRow db r) (hr : r.world = .text id.text) {m : WorldModule} (hm : m.world = id)
    {vs : List Write} {db' : Database} (hjournal : Journal db ([w, .saveModule m] ++ vs) db')
    (hvs : ∀ v ∈ vs, ∃ q : World, v = .changeWorld q ∧ q.id = id) :
    JobWritten id w m vs db db' := by
  obtain ⟨_, hsave⟩ := Journal.cons_iff.1 hjournal
  obtain ⟨_, hrest⟩ := Journal.cons_iff.1 hsave
  have hjobs := hrest.jobs_eq fun v hv rows => by
    obtain ⟨q, rfl, _⟩ := hvs v hv
    rfl
  have hmodules := hrest.modules_eq fun v hv rows => by
    obtain ⟨q, rfl, _⟩ := hvs v hv
    rfl
  rw [h.apply_eq] at hjobs hmodules hrest
  refine ⟨(h.frame hr).trans (hsave.frame fun v hv => ?_), hjobs, hmodules,
    (Write.saveModule m).apply { db with jobs := db.jobs.map w.onJob }, rfl, hrest⟩
  rcases List.mem_cons.1 hv with rfl | hv
  · exact .saveModule hm
  · obtain ⟨q, rfl, hq⟩ := hvs v hv
    exact .changeWorld hq

namespace JobWritten

variable {id : WorldId} {w : Write} {m : WorldModule} {db db' : Database}

theorem worlds_eq (h : JobWritten id w m [] db db') : db'.worlds = db.worlds := by
  obtain ⟨d, hworlds, hjournal⟩ := h.worlds
  rw [Journal.nil_iff.1 hjournal, hworlds]

theorem worlds_eq_changeWorld {v : World} (h : JobWritten id w m [.changeWorld v] db db') :
    db'.worlds = (Write.changeWorld v).onWorlds db.worlds := by
  obtain ⟨d, hworlds, hjournal⟩ := h.worlds
  rw [Journal.nil_iff.1 (Journal.cons_iff.1 hjournal).2, Write.apply_worlds, hworlds]

theorem hasOpenModule {vs : List Write} (h : JobWritten id w m vs db db') {world key : Cell}
    (hopen : ((Write.saveModule m).apply db).HasOpenModule world key) :
    db'.HasOpenModule world key := by
  rw [Database.HasOpenModule, h.modules_eq]
  exact hopen

end JobWritten

namespace Database.Consistent

variable {registry : Registry} {db : Database}

/-- Retrying a job keeps the agreement: it marks its module and its world. -/
theorem retry (h : db.Consistent registry) (hdb : db.Sound) {id : WorldId} {module : String}
    {owner : OwnerId} {w : World} (hlive : db.LiveWorld id w) {job : Job} {r : JobRow}
    (hr : r ∈ db.jobs) (hworld : r.world = .text id.text) (hkey : r.moduleKey = .text module)
    (hdecode : r.decode = .ok job) {m : WorldModule} (hm : db.StoredModule id module m)
    {now : Instant} {db' : Database}
    (hjournal : Journal db ([.requeue job.id now, .saveModule (awaiting owner now m)] ++
      if w.status = .generating then [] else [.changeWorld (w.beginGeneration now)]) db') :
    db'.Consistent registry := by
  have hid : r.id = .text job.id.text := (JobRow.holds_of_decode hdecode).id
  have hrequeue := (Journal.cons_iff.1 hjournal).1
  have hrow := Write.changesRow_of_job rfl hdb hrequeue hr hid
  have hrequeued : ((Write.requeue job.id now).onJob r).isOutstanding = true := by
    obtain ⟨q, hq, hqid, hidle⟩ := hrequeue
    rw [eq_of_jobId hdb.jobIds hq hr (hqid.trans hid.symm)] at hidle
    simp only [Write.onJob, hid, Cell.isText_iff.2, hidle, Bool.not_false, Bool.and_self, if_true,
      Jobs.isOutstanding_requeued]
  have hwritten := hrow.jobWritten hworld (m := awaiting owner now m) hm.world_eq hjournal
    fun v hv => by
      split at hv
      · cases hv
      · exact ⟨_, List.mem_singleton.1 hv, hlive.id_eq⟩
  -- The world is written back only if it is not generating already.
  have hgenerating : ∀ q ∈ db'.worlds, q.id = .text id.text →
      q.status = .text WorldStatus.generating.text := by
    intro q hq hqid
    split at hwritten
    · rename_i hstatus
      rw [hwritten.worlds_eq] at hq
      rw [(hlive.row_eq hdb hq hqid).2.status, hstatus]
    · rw [hwritten.worlds_eq_changeWorld] at hq
      exact Write.status_changeWorld hlive hdb (v := w.beginGeneration now) hlive.id_eq hq hqid
  refine h.of_frame hwritten.frame ⟨owned_of_frame hlive hwritten.frame, fun q hq hqid =>
    Or.inl ⟨hgenerating q hq hqid, ?_⟩, ?_, fun q hq _ => ?_⟩
  · refine ⟨(Write.requeue job.id now).onJob r, ?_, (hrow.world_eq r hr).trans hworld,
      JobRow.isUnfinished_of_isOutstanding hrequeued⟩
    rw [hwritten.jobs_eq]
    exact List.mem_map_of_mem hr
  · intro q hq _ hout
    rw [hwritten.jobs_eq] at hq
    obtain ⟨q₀, hq₀, rfl⟩ := List.mem_map.1 hq
    rw [hrow.world_eq q₀ hq₀, hrow.key_eq q₀ hq₀]
    apply hwritten.hasOpenModule
    -- The module of the retried job was marked; those of other jobs are as open as before.
    by_cases heq : q₀ = r
    · rw [heq, hworld, hkey, ← hm.world_eq, ← hm.key_eq]
      exact Write.hasOpenModule_saveModule (m := awaiting owner now m) (by simp)
    · rw [hrow.kept q₀ hq₀ heq] at hout
      exact Write.hasOpenModule_of_saveModule (h.uncompleted q₀ hq₀ hout) (Or.inl (by simp))
  · rw [hwritten.jobs_eq] at hq
    exact h.known_onJob hdb hrequeue hq

/-- Completing a job keeps the agreement: its world is activated when nothing else is to do. -/
theorem complete (h : db.Consistent registry) (hdb : db.Sound) {job : Job} {w : World}
    (hlive : db.LiveWorld job.world w) {m : WorldModule}
    (hm : db.StoredModule job.world job.moduleKey m) (htracks : db.Tracks job) {content : String}
    {now : Instant} {activated : Bool}
    (hactivated : activated = false ↔ ∃ r ∈ (Write.succeed job.id now).onJobs db.jobs,
      r.world = .text job.world.text ∧
        (r.hasStatus .waiting = true ∨ r.hasStatus .running = true)) {db' : Database}
    (hjournal : Journal db ([.succeed job.id now, .saveModule (completed content now m)] ++
      if activated then [.changeWorld (w.activate now)] else []) db') :
    db'.Consistent registry := by
  have hsucceed := (Journal.cons_iff.1 hjournal).1
  obtain ⟨r, hr, hid, hrunning⟩ := id hsucceed
  obtain ⟨hworld, hkey, _⟩ := htracks r hr hid
  have hrow := Write.changesRow_of_job rfl hdb hsucceed hr hid
  have hsucceeded : ((Write.succeed job.id now).onJob r).isOutstanding = false := by
    simp only [Write.onJob, hid, Cell.isText_iff.2, hrunning, Bool.and_self, if_true,
      Jobs.isOutstanding_succeeded]
  have hwritten := hrow.jobWritten hworld (m := completed content now m) hm.world_eq hjournal
    fun v hv => by
      split at hv
      · exact ⟨_, List.mem_singleton.1 hv, hlive.id_eq⟩
      · cases hv
  have houtstanding : activated = false ↔
      ∃ q ∈ db'.jobs, q.world = .text job.world.text ∧ q.isOutstanding = true := by
    rw [hactivated, hwritten.jobs_eq]
    simp only [JobRow.isOutstanding_iff]
    exact Iff.rfl
  refine h.of_frame hwritten.frame ⟨owned_of_frame hlive hwritten.frame, fun q hq hqid => ?_, ?_,
    fun q hq _ => ?_⟩
  · cases activated with
    | true =>
      refine Or.inr ⟨?_, fun p hp hpworld => ?_⟩
      · rw [hwritten.worlds_eq_changeWorld] at hq
        rw [Write.status_changeWorld hlive hdb (v := w.activate now) hlive.id_eq hq hqid]
        exact WorldStatus.text_ne_generating (by simp [World.activate])
      · cases hout : p.isOutstanding with
        | false => rfl
        | true => exact absurd (houtstanding.2 ⟨p, hp, hpworld, hout⟩) (by decide)
    | false =>
      obtain ⟨p, hp, hpworld, hout⟩ := houtstanding.1 rfl
      refine Or.inl ⟨?_, p, hp, hpworld, JobRow.isUnfinished_of_isOutstanding hout⟩
      rw [hwritten.worlds_eq] at hq
      rw [hwritten.jobs_eq] at hp
      obtain ⟨p₀, hp₀, rfl⟩ := List.mem_map.1 hp
      -- What is outstanding after the success was outstanding before it.
      have hchange := Write.jobChange hsucceed hdb.jobIds hp₀
      exact h.generating q hq p₀ hp₀
        ((hrow.world_eq p₀ hp₀).symm.trans (hpworld.trans hqid.symm))
        (hchange.isOutstanding (by simp) hout)
  · intro q hq _ hout
    rw [hwritten.jobs_eq] at hq
    obtain ⟨q₀, hq₀, rfl⟩ := List.mem_map.1 hq
    have hne : q₀ ≠ r := by
      rintro rfl
      rw [hsucceeded] at hout
      cases hout
    rw [hrow.kept q₀ hq₀ hne] at hout ⊢
    apply hwritten.hasOpenModule
    -- The module that is completed is that of the job, and no other job is of it.
    refine Write.hasOpenModule_of_saveModule (h.uncompleted q₀ hq₀ hout) (Or.inr fun hof => hne ?_)
    refine List.inj_on_of_nodup_map hdb.jobKeys hq₀ hr ?_
    rw [Prod.mk.injEq, hworld, hkey, ← hm.world_eq, ← hm.key_eq]
    exact hof
  · rw [hwritten.jobs_eq] at hq
    exact h.known_onJob hdb hsucceed hq

end Database.Consistent

/-! ## Systems -/

/-- Whether an event queues jobs by hand. -/
def Event.queuesByHand : Event → Bool
  | .command (.initializeJobs _ _) => true
  | _ => false

theorem Engine.Marks.harmless {db : Database} {job : Job} {status : ModuleStatus} {now : Instant}
    {ws : List Write} (h : Marks db job status now ws) (hstatus : status ≠ .completed) :
    ∀ w ∈ ws, w.Harmless := by
  intro w hw
  obtain ⟨m, rfl, _, _, hm⟩ := h.eq_saveModule hw
  exact .saveModule (hm ▸ hstatus)

theorem Engine.Expires.harmless {w : Write} (h : Expires w) : w.Harmless := by
  cases h with
  | job id message now => exact .fail id message now
  | module m hm => exact .saveModule (by rw [hm]; decide)

theorem Journal.consistent {registry : Registry} {db db' : Database} {ws : List Write}
    (hjournal : Journal db ws db') (hdb : db.Sound) (h : db.Consistent registry)
    (hws : ∀ w ∈ ws, w.Harmless) : db'.Consistent registry :=
  (hjournal.invariant (I := fun d => d.Sound ∧ d.Consistent registry)
    (fun w hw _ hallowed hd => ⟨hd.1.apply hallowed, hd.2.apply hd.1 hallowed (hws w hw)⟩)
    ⟨hdb, h⟩).2

/-- Every effect keeps worlds, jobs and modules in agreement, queueing by hand apart. -/
theorem Effect.consistent {e : Engine} {s : System} {ev : Event} {opened : List Job}
    {ws : List Write} (heffect : Effect e s ev opened ws) (hev : ev.queuesByHand = false)
    (hs : s.Sound) (h : s.studio.db.Consistent e.registry) {db' : Database}
    (hjournal : Journal s.studio.db ws db') : db'.Consistent e.registry := by
  have hharmless (hws : ∀ w ∈ ws, w.Harmless) : db'.Consistent e.registry :=
    hjournal.consistent hs.db h hws
  cases heffect with
  | nothing => exact hharmless (by simp)
  | createWorld hdraft =>
    exact hharmless (List.forall_mem_singleton.2 (.addWorld (by rw [hdraft]; decide)))
  | saveFields _ _ =>
    exact hharmless (List.forall_mem_singleton.2 (.saveModule (derive_ne_completed _ _)))
  | activate hlive hms hstale =>
    rw [Journal.nil_iff.1 (Journal.cons_iff.1 hjournal).2]
    exact h.activate hs.db hlive hms hstale _
  | enqueue hlive hms hstale hqueue _ => exact h.enqueue hs.db hlive hms hstale hqueue hjournal
  | rebuild _ _ => cases hev
  | retry hlive hr hworld hkey hdecode hm =>
    exact h.retry hs.db hlive hr hworld hkey hdecode hm hjournal
  | sweep hws => exact hharmless fun w hw => (hws w hw).harmless
  | hide => exact hharmless (List.forall_mem_singleton.2 (.hideWorld _ _))
  | remove => exact hharmless (List.forall_mem_singleton.2 (.removeWorld _))
  | lease _ hmarks =>
    exact hharmless (List.forall_mem_cons.2 ⟨.lease _ _, hmarks.harmless (by decide)⟩)
  | complete hc _ _ hlive hm hactivated _ =>
    exact h.complete hs.db hlive hm (hs.tracked _ (System.job_mem_leases hc)) hactivated hjournal
  | fail _ hmarks =>
    exact hharmless (List.forall_mem_cons.2 ⟨.fail _ _ _, hmarks.harmless (by decide)⟩)
  | release _ hmarks =>
    exact hharmless (List.forall_mem_cons.2 ⟨.fail _ _ _, hmarks.harmless (by decide)⟩)
  | merge _ =>
    exact hharmless (List.forall_mem_singleton.2
      (.saveModule (by simp [drafted, WorldModule.touch])))

/-- Worlds, jobs and modules agree after every run in which jobs are only queued by publishing. -/
theorem System.consistent_run (e : Engine) (events : List Event)
    (h : ∀ ev ∈ events, ev.queuesByHand = false) :
    (System.run e events).studio.db.Consistent e.registry := by
  have hrun : (System.run e events).Sound ∧
      (System.run e events).studio.db.Consistent e.registry := by
    refine run_induction_of (P := fun s => s.Sound ∧ s.studio.db.Consistent e.registry)
      ⟨Sound.initial, Database.consistent_empty _⟩ fun s ev hev ⟨hs, hdb⟩ => ⟨hs.step e ev, ?_⟩
    obtain ⟨opened, ws, heffect, hcommit, _⟩ := s.step_effect e ev
    exact heffect.consistent (h ev hev) hs hdb hcommit.journal
  exact hrun.2

/-- Such a run, to where a world is generating and its job runs. -/
theorem System.consistent_run_leased :
    (System.run .minimal [.createFirst, .publishFirst, .lease]).studio.db.jobs.countP
        (·.hasStatus .running) = 1 ∧
      (System.run .minimal [.createFirst, .publishFirst, .lease]).studio.db.Consistent
        Engine.minimal.registry :=
  ⟨by decide +kernel, System.consistent_run .minimal _ (by decide)⟩

end Lorebook
