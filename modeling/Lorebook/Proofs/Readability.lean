import Lorebook.Proofs.Fencing
import Lorebook.Proofs.SingleLease

set_option autoImplicit false

/-! # What succeeds on rows that can be read

While no table is missing and every row can be read, a statement fails only where what it is about
is not there: what is looked up is found or missing, and a write that the database allows happens.
The transactions of a call then either succeed or fail with a loss (`EngineError.isLoss`), which is
what their caller can deal with. -/

namespace Lorebook

open Studio Operation

/-! ## Rows that can be read -/

instance {α : Type} (d : Decoded α) : Decidable (∃ v, d = .ok v) :=
  match d with
  | .ok v => isTrue ⟨v, rfl⟩
  | .error _ => isFalse fun ⟨_, h⟩ => nomatch h

/-- Every row of the tables can be read. -/
structure Database.Readable (db : Database) : Prop where
  worlds : ∀ r ∈ db.worlds, ∃ w, r.decode = .ok w
  modules : ∀ r ∈ db.modules, ∃ m, r.decode = .ok m
  jobs : ∀ r ∈ db.jobs, ∃ j, r.decode = .ok j

instance (db : Database) : Decidable db.Readable :=
  decidable_of_iff ((∀ r ∈ db.worlds, ∃ w, r.decode = .ok w) ∧
      (∀ r ∈ db.modules, ∃ m, r.decode = .ok m) ∧ ∀ r ∈ db.jobs, ∃ j, r.decode = .ok j)
    ⟨fun h => ⟨h.1, h.2.1, h.2.2⟩, fun h => ⟨h.worlds, h.modules, h.jobs⟩⟩

/-- The row that is leased next, if there is one, can be read once it is leased. -/
def Studio.NextReadable (s : Studio) : Prop :=
  ∀ row ∈ Jobs.nextRow? s.db, ∃ j, (Jobs.leased (.text (Rfc3339.stored s.clock)) row).decode = .ok j

instance (s : Studio) : Decidable s.NextReadable := by
  unfold Studio.NextReadable
  exact inferInstance

/-- Every row can be read, and so can the one that is leased next. -/
structure Studio.Readable (s : Studio) : Prop where
  rows : s.db.Readable
  next : s.NextReadable

instance (s : Studio) : Decidable s.Readable :=
  decidable_of_iff (s.db.Readable ∧ s.NextReadable) ⟨fun h => ⟨h.1, h.2⟩, fun h => ⟨h.rows, h.next⟩⟩

theorem Database.Readable.moduleReadable {db : Database} (h : db.Readable) (job : Job) :
    db.ModuleReadable job :=
  fun _ hfind => h.modules _ (List.mem_of_find?_eq_some hfind)

/-! ## Statements -/

theorem Statement.yields_needs_complete {db : Database} (h : db.dropped = []) (table : TableName) :
    Yields (needs table) db () db :=
  (yields_needs table db () db).2 ⟨by simp [h], rfl⟩

/-- Rows that can be read are read one after the other. -/
theorem Statement.yields_mapM_ofDecoded {ρ α : Type} {decode : ρ → Decoded α} {rows : List ρ}
    (h : ∀ r ∈ rows, ∃ v, decode r = .ok v) (db : Database) :
    ∃ vs, Yields (rows.mapM fun r => ofDecoded (decode r)) db vs db := by
  induction rows with
  | nil => exact ⟨[], Yields.pure _ _⟩
  | cons r rows ih =>
    obtain ⟨v, hv⟩ := h r List.mem_cons_self
    obtain ⟨vs, hvs⟩ := ih fun q hq => h q (List.mem_cons_of_mem r hq)
    refine ⟨v :: vs, ?_⟩
    rw [List.mapM_cons]
    exact Yields.bind ((yields_ofDecoded _ _ _ _).2 ⟨hv, rfl⟩) (Yields.bind hvs (Yields.pure _ _))

namespace Worlds

/-- A live world is found, or no world of the name is live. -/
theorem require_cases {db : Database} (hcomplete : db.dropped = []) (hrows : db.Readable)
    (id : WorldId) :
    (∃ w, db.LiveWorld id w) ∨
      ((∀ r ∈ db.worlds, isLive id r = false) ∧
        Fails (require id) db (.notFound (.world id)) db) := by
  cases hfind : db.worlds.find? (isLive id) with
  | some row =>
    obtain ⟨w, hdecode⟩ := hrows.worlds row (List.mem_of_find?_eq_some hfind)
    exact Or.inl ⟨w, row, hfind, hdecode⟩
  | none =>
    have hnone : ∀ r ∈ db.worlds, isLive id r = false := fun r hr => by
      simpa using List.find?_eq_none.1 hfind r hr
    have hfound : Yields (find? id) db none db := by
      refine Yields.bind (Statement.yields_needs_complete hcomplete _)
        (Yields.bind (Yields.get db) ?_)
      rw [hfind]
      exact Yields.pure _ _
    exact Or.inr ⟨hnone, hfound.bind_fails (Fails.throw _ _)⟩

/-- A live world is written back. -/
theorem yields_update {db : Database} (hcomplete : db.dropped = []) {w : World}
    (hw : (Write.changeWorld w).Allowed db) :
    Yields (update w) db () ((Write.changeWorld w).apply db) := by
  refine Yields.bind (Statement.yields_needs_complete hcomplete _)
    (Yields.bind (Yields.get db) ?_)
  rw [if_pos (List.any_eq_true.2 hw)]
  exact Yields.modify _ _

end Worlds

theorem Database.LiveWorld.allowed_changeWorld {db : Database} {id : WorldId} {w v : World}
    (h : db.LiveWorld id w) (hv : v.id = id) : (Write.changeWorld v).Allowed db := by
  obtain ⟨row, hfind, _⟩ := h
  exact ⟨row, List.mem_of_find?_eq_some hfind, by rw [hv]; exact List.find?_some hfind⟩

namespace Modules

/-- A stored module is found, or there is no row of it. -/
theorem stored_or_absent {db : Database} (hrows : db.Readable) (world : WorldId) (key : String) :
    (∃ m, db.StoredModule world key m) ∨ ∀ r ∈ db.modules, isOf world key r = false := by
  cases hfind : db.modules.find? (isOf world key) with
  | some row =>
    obtain ⟨m, hdecode⟩ := hrows.modules row (List.mem_of_find?_eq_some hfind)
    exact Or.inl ⟨m, row, hfind, hdecode⟩
  | none => exact Or.inr fun r hr => by simpa using List.find?_eq_none.1 hfind r hr

/-- A stored module is found where its table is not missing, whatever else is. -/
theorem yields_find?_of_present {db : Database} (hpresent : .modules ∉ db.dropped)
    {world : WorldId} {key : String} {m : WorldModule} (h : db.StoredModule world key m) :
    Yields (find? world key) db (some m) db := by
  obtain ⟨row, hfind, hdecode⟩ := h
  refine Yields.bind ((Statement.yields_needs _ db () db).2 ⟨hpresent, rfl⟩)
    (Yields.bind (Yields.get db) ?_)
  rw [hfind]
  exact Yields.bind ((Statement.yields_ofDecoded _ _ _ _).2 ⟨hdecode, rfl⟩)
    (Yields.pure _ _)

theorem yields_find?_some {db : Database} (hcomplete : db.dropped = []) {world : WorldId}
    {key : String} {m : WorldModule} (h : db.StoredModule world key m) :
    Yields (find? world key) db (some m) db :=
  yields_find?_of_present (by simp [hcomplete]) h

theorem yields_find?_none {db : Database} (hcomplete : db.dropped = []) {world : WorldId}
    {key : String} (h : ∀ r ∈ db.modules, isOf world key r = false) :
    Yields (find? world key) db none db := by
  refine Yields.bind (Statement.yields_needs_complete hcomplete _)
    (Yields.bind (Yields.get db) ?_)
  rw [find?_isOf_eq_none h]
  exact Yields.pure _ _

theorem yields_require {db : Database} (hcomplete : db.dropped = []) {world : WorldId}
    {key : String} {m : WorldModule} (h : db.StoredModule world key m) :
    Yields (require world key) db m db :=
  Yields.bind (yields_find?_some hcomplete h) (Yields.pure _ _)

theorem fails_require {db : Database} (hcomplete : db.dropped = []) {world : WorldId}
    {key : String} (h : ∀ r ∈ db.modules, isOf world key r = false) :
    Fails (require world key) db (.notFound (.moduleOf key world)) db :=
  (yields_find?_none hcomplete h).bind_fails (Fails.throw _ _)

/-- A module that may be stored is. -/
theorem yields_save_allowed {db : Database} (hcomplete : db.dropped = []) {m : WorldModule}
    (hm : (Write.saveModule m).Allowed db) :
    Yields (save m) db () ((Write.saveModule m).apply db) := by
  have hsaved : ∃ db', Yields (save m) db () db' := by
    by_cases hstored : ∃ r ∈ db.modules, isOf m.world m.key r = true
    · exact yields_save hcomplete hstored
    · obtain ⟨hnew, w, hw, hworld⟩ := hm.resolve_left hstored
      have hnone : ¬ (db.modules.any (isOf m.world m.key)) = true := fun h =>
        hstored (List.any_eq_true.1 h)
      have hid : ¬ (db.modules.any (·.id = (ModuleRow.ofModule m).id)) = true := by
        intro h
        obtain ⟨r, hr, heq⟩ := List.any_eq_true.1 h
        exact hnew r hr (of_decide_eq_true heq)
      have hany : (db.worlds.any (·.id = (ModuleRow.ofModule m).world)) = true :=
        List.any_eq_true.2 ⟨w, hw, decide_eq_true hworld⟩
      refine ⟨{ db with modules := db.modules ++ [ModuleRow.ofModule m] },
        Yields.bind (Statement.yields_needs_complete hcomplete _)
        (Yields.bind (Statement.yields_needs_complete hcomplete _)
          (Yields.bind (Yields.get db) ?_))⟩
      rw [if_neg hnone, if_neg hid, if_pos hany]
      exact Yields.set _ _
  -- What saving leaves is what the journal says.
  obtain ⟨db', hsave⟩ := hsaved
  have hdb := Journal.nil_iff.1 (Journal.cons_iff.1 (journal_save hsave)).2
  rwa [hdb] at hsave

end Modules

/-- A stored module may be written back. -/
theorem Database.StoredModule.allowed_saveModule {db : Database} {world : WorldId} {key : String}
    {m n : WorldModule} (h : db.StoredModule world key m) (hworld : n.world = world)
    (hkey : n.key = key) : (Write.saveModule n).Allowed db := by
  obtain ⟨row, hfind, _⟩ := h
  exact Or.inl ⟨row, List.mem_of_find?_eq_some hfind, by
    rw [hworld, hkey]
    exact List.find?_some hfind⟩

namespace Jobs

/-- Settling changes the row of a running job. -/
theorem yields_settling {db : Database} (hcomplete : db.dropped = []) {id : JobId}
    (hrunning : ∃ r ∈ db.jobs, r.id = .text id.text ∧ r.hasStatus .running = true)
    (f : JobRow → JobRow) :
    Yields (do ensureLeased id (← change id (·.hasStatus .running) f)) db ()
      { db with jobs := db.jobs.map fun r =>
          if r.id.isText id.text && r.hasStatus .running then f r else r } := by
  obtain ⟨r, hr, hid, hstatus⟩ := hrunning
  have hany : (db.jobs.any fun q => q.id.isText id.text && q.hasStatus .running) = true :=
    List.any_eq_true.2 ⟨r, hr, by rw [Cell.isText_iff.2 hid, hstatus]; rfl⟩
  have hchange : Yields (change id (·.hasStatus .running) f) db true
      { db with jobs := db.jobs.map fun r =>
          if r.id.isText id.text && r.hasStatus .running then f r else r } := by
    refine Yields.bind (Statement.yields_needs_complete hcomplete _)
      (Yields.bind (Yields.get db) ?_)
    rw [if_pos hany]
    exact Yields.bind (Yields.modify _ _) (Yields.pure _ _)
  exact Yields.bind hchange (Yields.pure _ _)

/-- A job is found by its name, or there is none. -/
theorem require_cases {db : Database} (hcomplete : db.dropped = []) (hrows : db.Readable)
    (id : JobId) :
    (∃ j, Yields (require id) db j db) ∨ Fails (require id) db (.notFound (.job id)) db := by
  have hdecode : ∀ r ∈ db.jobs.filter fun r => r.id.isText id.text, ∃ j, r.decode = .ok j :=
    fun r hr => hrows.jobs r (List.mem_filter.1 hr).1
  obtain ⟨js, hjs⟩ : ∃ js, Yields (decodeAll _) db js db :=
    Statement.yields_mapM_ofDecoded hdecode db
  cases hhead : js.head? with
  | some j =>
    refine Or.inl ⟨j, Yields.bind (Statement.yields_needs_complete hcomplete _)
      (Yields.bind (Yields.get db) (Yields.bind hjs ?_))⟩
    simp only [hhead]
    exact Yields.pure j db
  | none =>
    refine Or.inr (Yields.bind_fails (Statement.yields_needs_complete hcomplete _)
      (Yields.bind_fails (Yields.get db) (Yields.bind_fails hjs ?_)))
    simp only [hhead]
    exact Fails.throw _ db

/-- Settling a job that is not running tells whether there is one of the name. -/
theorem fails_settling {db : Database} (hcomplete : db.dropped = []) (hrows : db.Readable)
    {id : JobId} (hidle : ∀ r ∈ db.jobs, r.id = .text id.text → r.hasStatus .running = false)
    (f : JobRow → JobRow) :
    ∃ e, (e = .notFound (.job id) ∨ e = .conflict (.jobNotRunning id)) ∧
      Fails (do ensureLeased id (← change id (·.hasStatus .running) f)) db e db := by
  have hnone : ¬ (db.jobs.any fun q => q.id.isText id.text && q.hasStatus .running) = true := by
    intro hany
    obtain ⟨q, hq, hhit⟩ := List.any_eq_true.1 hany
    rw [Bool.and_eq_true, Cell.isText_iff] at hhit
    have hfalse := hidle q hq hhit.1
    rw [hhit.2] at hfalse
    cases hfalse
  have hchange : Yields (change id (·.hasStatus .running) f) db false db := by
    refine Yields.bind (Statement.yields_needs_complete hcomplete _)
      (Yields.bind (Yields.get db) ?_)
    rw [if_neg hnone]
    exact Yields.pure false db
  rcases require_cases hcomplete hrows id with ⟨j, hfound⟩ | hmissing
  · exact ⟨_, Or.inr rfl, hchange.bind_fails (hfound.bind_fails (Fails.throw _ db))⟩
  · exact ⟨_, Or.inl rfl, hchange.bind_fails hmissing.bind⟩

/-- No row of a name runs, when there is none that does. -/
theorem idle_of_not_running {db : Database} {id : JobId}
    (h : ¬ ∃ r ∈ db.jobs, r.id = .text id.text ∧ r.hasStatus .running = true) :
    ∀ r ∈ db.jobs, r.id = .text id.text → r.hasStatus .running = false := by
  intro r hr hid
  cases hstatus : r.hasStatus .running with
  | false => rfl
  | true => exact absurd ⟨r, hr, hid, hstatus⟩ h

theorem fails_markSucceeded {db : Database} (hcomplete : db.dropped = []) (hrows : db.Readable)
    {id : JobId} (hidle : ∀ r ∈ db.jobs, r.id = .text id.text → r.hasStatus .running = false)
    (now : Instant) :
    ∃ e, (e = .notFound (.job id) ∨ e = .conflict (.jobNotRunning id)) ∧
      Fails (markSucceeded id now) db e db :=
  fails_settling hcomplete hrows hidle _

theorem fails_markFailed {db : Database} (hcomplete : db.dropped = []) (hrows : db.Readable)
    {id : JobId} (hidle : ∀ r ∈ db.jobs, r.id = .text id.text → r.hasStatus .running = false)
    (message : String) (now : Instant) :
    ∃ e, (e = .notFound (.job id) ∨ e = .conflict (.jobNotRunning id)) ∧
      Fails (markFailed id message now) db e db :=
  fails_settling hcomplete hrows hidle _

/-- The next row is leased, and none when there is no next row. -/
theorem yields_leaseNext_none {db : Database} (hcomplete : db.dropped = [])
    (hnext : nextRow? db = none) (now : Instant) : Yields (leaseNext now) db none db := by
  refine Yields.bind (Statement.yields_needs_complete hcomplete _)
    (Yields.bind (Statement.yields_needs_complete hcomplete _) (Yields.bind (Yields.get db) ?_))
  rw [hnext]
  exact Yields.pure none db

theorem yields_leaseNext_some {db : Database} (hcomplete : db.dropped = []) {row : JobRow}
    (hnext : nextRow? db = some row) {now : Instant} {job : Job}
    (hjob : (leased (.text (Rfc3339.stored now)) row).decode = .ok job) :
    Yields (leaseNext now) db (some job) ((Write.lease row now).apply db) := by
  have hid : row.id = .text job.id.text := (JobRow.holds_of_decode hjob).id
  have hnull : ¬ row.id.isNull = true := by
    rw [hid]
    simp [Cell.isNull]
  refine Yields.bind (Statement.yields_needs_complete hcomplete _)
    (Yields.bind (Statement.yields_needs_complete hcomplete _) (Yields.bind (Yields.get db) ?_))
  rw [hnext]
  simp only [if_neg hnull]
  exact Yields.bind (Yields.modify _ db)
    (Yields.bind ((Statement.yields_ofDecoded _ _ _ _).2 ⟨hjob, rfl⟩) (Yields.pure _ _))

theorem yields_countOutstanding {db : Database} (hcomplete : db.dropped = []) (world : WorldId) :
    ∃ n, Yields (countOutstanding world) db n db :=
  ⟨_, Yields.bind (Statement.yields_needs_complete hcomplete _)
    (Yields.bind (Yields.get db) (Yields.pure _ db))⟩

end Jobs

/-! ## Transactions of calls -/

namespace Engine

/-- Nothing is leased when there is nothing to lease. -/
theorem yields_leaseNext_none {s : Studio} (hcomplete : s.db.dropped = [])
    (hnext : Jobs.nextRow? s.db = none) : Yields leaseNext s none s.ticked := by
  have hlease := Jobs.yields_leaseNext_none hcomplete hnext s.clock
  exact Yields.atomically (Yields.bind (yields_clock s)
    (Yields.bind (Yields.store s.ticked hlease) (Yields.pure none _)))

/-- The next row is leased, if it can be read then. -/
theorem yields_leaseNext_some {s : Studio} (hcomplete : s.db.dropped = []) (h : s.Readable)
    {row : JobRow} (hnext : Jobs.nextRow? s.db = some row) :
    ∃ job s', Yields leaseNext s (some job) s' := by
  obtain ⟨job, hjob⟩ := h.next row hnext
  let t := s.ticked.withDb ((Write.lease row s.clock).apply s.db)
  have hlease := Jobs.yields_leaseNext_some hcomplete hnext hjob
  have hcomplete' : t.db.dropped = [] := hcomplete
  have hreadable : t.db.ModuleReadable job := h.rows.moduleReadable job
  obtain ⟨s', hmark⟩ := yields_markModule hcomplete' hreadable .generating s.clock
  exact ⟨job, s', Yields.atomically (Yields.bind (yields_clock s)
    (Yields.bind (Yields.store s.ticked hlease) (Yields.bind hmark (Yields.pure _ s'))))⟩

/-- A job can be completed while its world is live, it is running, and its module is stored. -/
theorem succeeds_complete {s : Studio} (hcomplete : s.db.dropped = []) {job : Job} {w : World}
    (hlive : s.db.LiveWorld job.world w)
    (hrunning : ∃ r ∈ s.db.jobs, r.id = .text job.id.text ∧ r.hasStatus .running = true)
    {m : WorldModule} (hm : s.db.StoredModule job.world job.moduleKey m) (content : String) :
    Succeeds (complete job content) s := by
  -- The databases after the job is settled and after the content is stored.
  let db₁ := (Write.succeed job.id s.clock).apply s.db
  let db₂ := (Write.saveModule (completed content s.clock m)).apply db₁
  have hcomplete₁ : db₁.dropped = [] := hcomplete
  have hcomplete₂ : db₂.dropped = [] := hcomplete
  have hm₁ : db₁.StoredModule job.world job.moduleKey m := hm
  have hlive₂ : db₂.LiveWorld job.world w := hlive
  have hsettled : Yields (Jobs.markSucceeded job.id s.clock) s.db () db₁ :=
    Jobs.yields_settling hcomplete hrunning _
  have hsaved : Yields (Modules.save (completed content s.clock m)) db₁ () db₂ :=
    Modules.yields_save_allowed hcomplete₁ (hm₁.allowed_saveModule hm.world_eq hm.key_eq)
  obtain ⟨n, hcount⟩ := Jobs.yields_countOutstanding hcomplete₂ job.world
  refine Succeeds.atomically (Yields.bind_succeeds (yields_clock s)
    (Yields.bind_succeeds (Yields.store _ (Worlds.yields_require hcomplete hlive))
      (Yields.bind_succeeds (Yields.store _ hsettled)
        (Yields.bind_succeeds (Yields.store _ (Modules.yields_require hcomplete₁ hm₁))
          (Yields.bind_succeeds (Yields.store _ hsaved)
            (Yields.bind_succeeds (Yields.store _ hcount) ?_))))))
  by_cases hn : 0 < n
  · rw [if_pos hn]
    exact (Yields.pure false _).succeeds
  · rw [if_neg hn]
    have hupdate := Worlds.yields_update hcomplete₂
      (hlive₂.allowed_changeWorld (v := w.activate s.clock) hlive.id_eq)
    exact Yields.bind_succeeds (Yields.store _ hupdate)
      (Yields.bind_succeeds (yields_told _ _) (Yields.pure true _).succeeds)

/-- What a transaction of a call comes to when it does not succeed: a loss. -/
def Loses {α : Type} (op : Operation α) (s : Studio) : Prop :=
  ∃ e s', Fails op s e s' ∧ e.isLoss = true

theorem Loses.atomically {α : Type} {op : Operation α} {s : Studio} (h : Loses op s) :
    Loses (Operation.atomically op) s := by
  obtain ⟨e, s', hfails, hloss⟩ := h
  exact ⟨e, _, hfails.atomically, hloss⟩

theorem Loses.of_yields {α β : Type} {x : Operation α} {f : α → Operation β} {s t : Studio} {a : α}
    (hx : Yields x s a t) (hf : Loses (f a) t) : Loses (x >>= f) s := by
  obtain ⟨e, s', hfails, hloss⟩ := hf
  exact ⟨e, s', hx.bind_fails hfails, hloss⟩

theorem Loses.of_fails {α β : Type} {st : Statement α} (f : α → Operation β) {s : Studio}
    {e : StoreError} {db : Database} (h : Fails st s.db e db)
    (he : (EngineError.ofStore e).isLoss = true) : Loses (store st >>= f) s :=
  ⟨_, _, Fails.bind (Fails.store s h), he⟩

/-- A job that cannot be completed is lost: its world, its lease or its module is gone. -/
theorem loses_complete {s : Studio} (hcomplete : s.db.dropped = []) (hrows : s.db.Readable)
    {job : Job} (hlost : (∀ w, ¬ s.db.LiveWorld job.world w) ∨
      (∀ r ∈ s.db.jobs, r.id = .text job.id.text → r.hasStatus .running = false) ∨
      ∀ m, ¬ s.db.StoredModule job.world job.moduleKey m) (content : String) :
    Loses (complete job content) s := by
  refine Loses.atomically (Loses.of_yields (yields_clock s) ?_)
  rcases Worlds.require_cases hcomplete hrows job.world with ⟨w, hlive⟩ | ⟨_, hdead⟩
  swap
  · exact Loses.of_fails _ hdead rfl
  refine Loses.of_yields (Yields.store _ (Worlds.yields_require hcomplete hlive)) ?_
  by_cases hrunning : ∃ r ∈ s.db.jobs, r.id = .text job.id.text ∧ r.hasStatus .running = true
  swap
  · obtain ⟨e, he, hmark⟩ := Jobs.fails_markSucceeded hcomplete hrows
      (Jobs.idle_of_not_running hrunning) s.clock
    refine Loses.of_fails _ hmark ?_
    rcases he with rfl | rfl <;> rfl
  -- The world is live and the job runs, so it is the module that is gone.
  have hgone : ∀ m, ¬ s.db.StoredModule job.world job.moduleKey m := by
    rcases hlost with hlost | hlost | hlost
    · exact absurd hlive (hlost w)
    · obtain ⟨r, hr, hid, hstatus⟩ := hrunning
      rw [hlost r hr hid] at hstatus
      cases hstatus
    · exact hlost
  have habsent : ∀ r ∈ s.db.modules, Modules.isOf job.world job.moduleKey r = false := by
    rcases Modules.stored_or_absent hrows job.world job.moduleKey with ⟨m, hm⟩ | habsent
    · exact absurd hm (hgone m)
    · exact habsent
  let db₁ := (Write.succeed job.id s.clock).apply s.db
  have hcomplete₁ : db₁.dropped = [] := hcomplete
  have habsent₁ : ∀ r ∈ db₁.modules, Modules.isOf job.world job.moduleKey r = false := habsent
  have hsettled : Yields (Jobs.markSucceeded job.id s.clock) s.db () db₁ :=
    Jobs.yields_settling hcomplete hrunning _
  exact Loses.of_yields (Yields.store _ hsettled)
    (Loses.of_fails _ (Modules.fails_require hcomplete₁ habsent₁) rfl)

theorem succeeds_or_loses_complete {s : Studio} (hcomplete : s.db.dropped = [])
    (hrows : s.db.Readable) (job : Job) (content : String) :
    Succeeds (complete job content) s ∨ Loses (complete job content) s := by
  by_cases hlive : ∃ w, s.db.LiveWorld job.world w
  swap
  · exact Or.inr (loses_complete hcomplete hrows (Or.inl (not_exists.1 hlive)) content)
  by_cases hrunning : ∃ r ∈ s.db.jobs, r.id = .text job.id.text ∧ r.hasStatus .running = true
  swap
  · have hidle := Jobs.idle_of_not_running hrunning
    exact Or.inr (loses_complete hcomplete hrows (Or.inr (Or.inl hidle)) content)
  by_cases hm : ∃ m, s.db.StoredModule job.world job.moduleKey m
  swap
  · exact Or.inr (loses_complete hcomplete hrows (Or.inr (Or.inr (not_exists.1 hm))) content)
  obtain ⟨w, hlive⟩ := hlive
  obtain ⟨m, hm⟩ := hm
  exact Or.inl (succeeds_complete hcomplete hlive hrunning hm content)

/-- A job that does not run cannot be failed: its lease is gone. -/
theorem loses_fail {s : Studio} (hcomplete : s.db.dropped = []) (hrows : s.db.Readable)
    {job : Job} (hidle : ∀ r ∈ s.db.jobs, r.id = .text job.id.text → r.hasStatus .running = false)
    (message : String) : Loses (fail job message) s := by
  obtain ⟨e, he, hmark⟩ := Jobs.fails_markFailed hcomplete hrows hidle message s.clock
  refine Loses.atomically (Loses.of_yields (yields_clock s) (Loses.of_fails _ hmark ?_))
  rcases he with rfl | rfl <;> rfl

theorem succeeds_or_loses_fail {s : Studio} (hcomplete : s.db.dropped = [])
    (hrows : s.db.Readable) (job : Job) (message : String) :
    Succeeds (fail job message) s ∨ Loses (fail job message) s := by
  by_cases hrunning : ∃ r ∈ s.db.jobs, r.id = .text job.id.text ∧ r.hasStatus .running = true
  · obtain ⟨s', h⟩ := yields_fail hcomplete hrunning (hrows.moduleReadable job) message
    exact Or.inl h.succeeds
  · exact Or.inr (loses_fail hcomplete hrows (Jobs.idle_of_not_running hrunning) message)

/-- Releasing a lease succeeds, and tells whether the job was still running. -/
theorem yields_release {s : Studio} (hcomplete : s.db.dropped = []) (hrows : s.db.Readable)
    (job : Job) (cause : EngineError) :
    ∃ released s', Yields (release job cause) s released s' ∧
      (released = false → s'.db = s.db ∧
        ∀ r ∈ s.db.jobs, r.id = .text job.id.text → r.hasStatus .running = false) := by
  let message := s!"result discarded: {cause.message}"
  have hmarked {result : Except StoreError Unit} {db : Database}
      (hrun : Jobs.markFailed job.id message s.clock s.db = (result, db)) :
      Yields (statement (Jobs.markFailed job.id message s.clock) : Operation _) s.ticked result
        (s.ticked.withDb db) :=
    (yields_statement _ _ _ _).2 ⟨(congrArg Prod.fst hrun).symm,
      congrArg s.ticked.withDb (congrArg Prod.snd hrun).symm⟩
  by_cases hrunning : ∃ r ∈ s.db.jobs, r.id = .text job.id.text ∧ r.hasStatus .running = true
  · let t := s.ticked.withDb ((Write.fail job.id message s.clock).apply s.db)
    have hsettled : Yields (Jobs.markFailed job.id message s.clock) s.db () t.db :=
      Jobs.yields_settling hcomplete hrunning _
    have hcomplete₁ : t.db.dropped = [] := hcomplete
    have hreadable : t.db.ModuleReadable job := hrows.moduleReadable job
    obtain ⟨s', hmark⟩ := yields_markModule hcomplete₁ hreadable .failed s.clock
    exact ⟨true, s', Yields.atomically (Yields.bind (yields_clock s)
      (Yields.bind (hmarked hsettled) (Yields.bind hmark (Yields.pure true s')))), by simp⟩
  · have hidle := Jobs.idle_of_not_running hrunning
    obtain ⟨e, he, hmark⟩ := Jobs.fails_markFailed hcomplete hrows hidle message s.clock
    refine ⟨false, s.ticked.withDb s.db, Yields.atomically (Yields.bind (yields_clock s)
      (Yields.bind (hmarked hmark) ?_)), fun _ => ⟨rfl, hidle⟩⟩
    rcases he with rfl | rfl <;> exact Yields.pure false _

end Engine

end Lorebook
