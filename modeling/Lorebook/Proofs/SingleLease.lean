import Lorebook.Proofs.Integrity

set_option autoImplicit false

/-! # One lease at a time

At most one job runs, over all worlds. A row that runs stays as it is until its lease ends, and only
a settling transaction, a look at stale leases or the removal of a world ends a lease: what would
replace a queue or requeue a job in spite of a lease is refused as a conflict. -/

namespace Lorebook

open Studio Operation Engine

/-! ## Writes that keep leases -/

/-- Whether a write may take a row out of running, or away. -/
def Write.endsLease : Write → Bool
  | succeed _ _ => true
  | fail _ _ _ => true
  | removeWorld _ => true
  | _ => false

/-- A running row stays when a write ends no lease. -/
theorem Write.mem_of_running {w : Write} {db : Database} (hw : w.Allowed db) (hdb : db.Sound)
    (hends : w.endsLease = false) {r : JobRow} (hr : r ∈ db.jobs)
    (hrunning : r.hasStatus .running = true) : r ∈ (w.apply db).jobs := by
  rcases w.onJobs_cases db.jobs with ⟨j, rfl⟩ | ⟨world, rfl | rfl, heq⟩ | heq
  · exact List.mem_append_left _ hr
  · rw [apply_jobs, heq]
    refine List.mem_filter.2 ⟨hr, ?_⟩
    rw [Bool.not_eq_true', Cell.isText_eq_false_iff]
    intro hworld
    have hidle : r.hasStatus .running = false := hw r hr hworld
    rw [hrunning] at hidle
    cases hidle
  · cases hends
  · have hkept : w.onJob r = r := by
      have hchange := jobChange hw hdb.jobIds hr
      generalize w.onJob r = r' at hchange
      cases hchange with
      | kept => rfl
      | leased now hwaiting hlease => cases JobRow.hasStatus_unique hrunning hwaiting
      | succeeded id now _ _ hsettle => rw [hsettle] at hends; cases hends
      | failed id message now _ _ hsettle => rw [hsettle] at hends; cases hends
      | requeued id now _ hidle _ => rw [hrunning] at hidle; cases hidle
    rw [apply_jobs, heq]
    exact List.mem_map.2 ⟨r, hr, hkept⟩

theorem Journal.mem_of_running {db db' : Database} {ws : List Write} (h : Journal db ws db')
    (hdb : db.Sound) (hends : ∀ w ∈ ws, w.endsLease = false) {r : JobRow} (hr : r ∈ db.jobs)
    (hrunning : r.hasStatus .running = true) : r ∈ db'.jobs := by
  have hstep : ∀ w ∈ ws, ∀ d, w.Allowed d → (d.Sound ∧ r ∈ d.jobs) →
      ((w.apply d).Sound ∧ r ∈ (w.apply d).jobs) := fun w hmem d hw ⟨hd, hrd⟩ =>
    ⟨hd.apply hw, Write.mem_of_running hw hd (hends w hmem) hrd hrunning⟩
  exact (h.invariant (I := fun d => d.Sound ∧ r ∈ d.jobs) hstep ⟨hdb, hr⟩).2

/-! ## Events that keep leases -/

/-- Whether an event may end a lease: the settling transactions of calls, looking at stale leases
and removing a world. -/
def Event.mayEndLease : Event → Bool
  | .settle _ _ => true
  | .release _ => true
  | .command (.recoverStaleLeases _) => true
  | .command (.hardDelete _) => true
  | _ => false

theorem Effect.endsLease_eq_false {e : Engine} {s : System} {ev : Event} {opened : List Job}
    {ws : List Write} (h : Effect e s ev opened ws) (hev : ev.mayEndLease = false) :
    ∀ w ∈ ws, w.endsLease = false := by
  cases h with
  | retry _ _ _ _ _ _ => split <;> simp [Write.endsLease]
  | lease _ hmarks =>
    refine List.forall_mem_cons.2 ⟨rfl, fun w hw => ?_⟩
    obtain ⟨m, rfl, _⟩ := hmarks.eq_saveModule hw
    rfl
  | sweep _ => cases hev
  | remove => cases hev
  | complete _ _ _ _ _ _ _ => cases hev
  | fail _ _ => cases hev
  | release _ _ => cases hev
  | _ => simp [Write.endsLease, or_imp, forall_and]

/-! ## Refusals -/

/-- A live world is found by its name. -/
theorem Worlds.yields_require {db : Database} (hcomplete : db.dropped = []) {id : WorldId}
    {w : World} (hlive : db.LiveWorld id w) : Yields (require id) db w db := by
  obtain ⟨row, hfind, hdecode⟩ := hlive
  simp only [require, find?, yields_bind, Statement.yields_needs, yields_get]
  refine ⟨some w, db, ⟨(), db, ⟨by simp [hcomplete], rfl⟩, db, db, ⟨rfl, rfl⟩, ?_⟩, ?_⟩
  · rw [hfind]
    simp only [yields_bind, Statement.yields_ofDecoded, yields_pure]
    exact ⟨w, db, ⟨hdecode, rfl⟩, rfl, rfl⟩
  · simp

/-- The world of an owner is found. -/
theorem Engine.yields_ownedWorld {s : Studio} (hcomplete : s.db.dropped = []) {id : WorldId}
    {w : World} (hlive : s.db.LiveWorld id w) : Yields (ownedWorld id w.owner) s w s := by
  simp only [ownedWorld, ensureOwner, yields_bind, yields_store, yields_ite, yields_pure,
    yields_throw, and_false, or_false]
  exact ⟨w, s, ⟨s.db, Worlds.yields_require hcomplete hlive, rfl⟩, (), s,
    ⟨decide_eq_true rfl, trivial, rfl⟩, rfl, rfl⟩

/-- The only row that passes a test is read. -/
theorem Jobs.yields_decodeAll {rows : List JobRow} (hrows : rows.Nodup) {p : JobRow → Bool}
    {r : JobRow} (hr : r ∈ rows) (hp : ∀ q ∈ rows, p q = true ↔ q = r) {j : Job}
    (hj : r.decode = .ok j) (db : Database) : Yields (decodeAll (rows.filter p)) db [j] db := by
  have hfilter : rows.filter p = [r] := by
    refine List.perm_singleton.1 ((List.perm_ext_iff_of_nodup (hrows.filter p)
      (List.nodup_singleton r)).2 fun q => ?_)
    rw [List.mem_filter, List.mem_singleton]
    constructor
    · rintro ⟨hq, hpq⟩
      exact (hp q hq).1 hpq
    · rintro rfl
      exact ⟨hr, (hp q hr).2 rfl⟩
  rw [hfilter, decodeAll, List.mapM_cons, List.mapM_nil]
  simp only [yields_bind, Statement.yields_ofDecoded, yields_pure]
  exact ⟨j, db, ⟨hj, rfl⟩, [], db, ⟨rfl, rfl⟩, rfl, rfl⟩

section

variable {db : Database} (hcomplete : db.dropped = []) (hids : (db.jobs.map (·.id)).Nodup)

include hcomplete hids

/-- The job of a row is found by its module, where keys are distinct. -/
theorem Jobs.yields_find?_of_nodup (hkeys : (db.jobs.map fun r => (r.world, r.moduleKey)).Nodup)
    {r : JobRow} (hr : r ∈ db.jobs) {j : Job} (hj : r.decode = .ok j) :
    Yields (find? j.world j.moduleKey) db (some j) db := by
  have hholds := JobRow.holds_of_decode hj
  simp only [find?, yields_bind, Statement.yields_needs, yields_get, yields_pure]
  refine ⟨(), db, ⟨by simp [hcomplete], rfl⟩, db, db, ⟨rfl, rfl⟩, [j], db,
    yields_decodeAll hids.of_map hr (fun q hq => ?_) hj db, rfl, rfl⟩
  rw [Bool.and_eq_true, Cell.isText_iff, Cell.isText_iff]
  constructor
  · rintro ⟨hworld, hkey⟩
    refine List.inj_on_of_nodup_map hkeys hq hr ?_
    rw [hworld, hkey, hholds.world, hholds.moduleKey]
  · rintro rfl
    exact ⟨hholds.world, hholds.moduleKey⟩

/-- The job of a row is found by its name, where names are distinct. -/
theorem Jobs.yields_require_of_nodup {r : JobRow} (hr : r ∈ db.jobs) {j : Job}
    (hj : r.decode = .ok j) : Yields (require j.id) db j db := by
  have hholds := JobRow.holds_of_decode hj
  simp only [require, yields_bind, Statement.yields_needs, yields_get]
  refine ⟨(), db, ⟨by simp [hcomplete], rfl⟩, db, db, ⟨rfl, rfl⟩, [j], db,
    yields_decodeAll hids.of_map hr (fun q hq => ?_) hj db, ?_⟩
  · rw [Cell.isText_iff]
    constructor
    · intro hid
      exact eq_of_jobId hids hq hr (hid.trans hholds.id.symm)
    · rintro rfl
      exact hholds.id
  · simp

/-- A running job is not put back in the queue, where names are distinct. -/
theorem Jobs.fails_resetForRetry_of_nodup {r : JobRow} (hr : r ∈ db.jobs)
    (hrunning : r.hasStatus .running = true) {j : Job} (hj : r.decode = .ok j) (now : Instant) :
    Fails (resetForRetry j.id now) db (.conflict (.jobRunning j.id)) db := by
  have hholds := JobRow.holds_of_decode hj
  -- The only row of the job's name runs, so the statement hits none.
  have hnone : ¬ (db.jobs.any fun q => q.id.isText j.id.text && !q.hasStatus .running) = true := by
    intro hany
    obtain ⟨q, hq, hhit⟩ := List.any_eq_true.1 hany
    rw [Bool.and_eq_true, Cell.isText_iff, Bool.not_eq_true'] at hhit
    obtain rfl := eq_of_jobId hids hq hr (hhit.1.trans hholds.id.symm)
    rw [hrunning] at hhit
    cases hhit.2
  have hchange : Yields (change j.id (!·.hasStatus .running)
      (requeued (.text (Rfc3339.stored now)))) db false db := by
    simp only [change, yields_bind, Statement.yields_needs, yields_get, yields_ite, yields_pure]
    exact ⟨(), db, ⟨by simp [hcomplete], rfl⟩, db, db, ⟨rfl, rfl⟩, Or.inr ⟨hnone, trivial, rfl⟩⟩
  simp only [resetForRetry, fails_bind]
  refine Or.inr ⟨false, db, hchange, ?_⟩
  simp only [Bool.false_eq_true, if_false, fails_bind, fails_throw]
  exact Or.inr ⟨j, db, yields_require_of_nodup hcomplete hids hr hj, trivial, rfl⟩

end

/-- The job of a row is found by its module. -/
theorem Jobs.yields_find? {db : Database} (hdb : db.Sound) {r : JobRow} (hr : r ∈ db.jobs)
    {j : Job} (hj : r.decode = .ok j) : Yields (find? j.world j.moduleKey) db (some j) db :=
  yields_find?_of_nodup hdb.complete hdb.jobIds hdb.jobKeys hr hj

/-- The job of a row is found by its name. -/
theorem Jobs.yields_require {db : Database} (hdb : db.Sound) {r : JobRow} (hr : r ∈ db.jobs)
    {j : Job} (hj : r.decode = .ok j) : Yields (require j.id) db j db :=
  yields_require_of_nodup hdb.complete hdb.jobIds hr hj

/-- A running job is not put back in the queue. -/
theorem Jobs.fails_resetForRetry {db : Database} (hdb : db.Sound) {r : JobRow} (hr : r ∈ db.jobs)
    (hrunning : r.hasStatus .running = true) {j : Job} (hj : r.decode = .ok j) (now : Instant) :
    Fails (resetForRetry j.id now) db (.conflict (.jobRunning j.id)) db :=
  fails_resetForRetry_of_nodup hdb.complete hdb.jobIds hr hrunning hj now

/-- At most one row of a sound database runs. -/
theorem Database.Sound.eq_of_running {db : Database} (h : db.Sound) {q r : JobRow}
    (hq : q ∈ db.jobs) (hr : r ∈ db.jobs) (hqrunning : q.hasStatus .running = true)
    (hrunning : r.hasStatus .running = true) : q = r := by
  have hlength := h.running
  rw [List.countP_eq_length_filter] at hlength
  have hqmem : q ∈ db.jobs.filter (·.hasStatus .running) := List.mem_filter.2 ⟨hq, hqrunning⟩
  have hrmem : r ∈ db.jobs.filter (·.hasStatus .running) := List.mem_filter.2 ⟨hr, hrunning⟩
  match hrows : db.jobs.filter (·.hasStatus .running) with
  | [] =>
    rw [hrows] at hqmem
    cases hqmem
  | [x] =>
    rw [hrows, List.mem_singleton] at hqmem hrmem
    rw [hqmem, hrmem]
  | x :: y :: rest =>
    rw [hrows, List.length_cons, List.length_cons] at hlength
    omega

/-- A queue is not rebuilt while a job of its world runs. -/
theorem fails_rebuildJobs {s : Studio} (hdb : s.db.Sound) {r : JobRow} (hr : r ∈ s.db.jobs)
    (hrunning : r.hasStatus .running = true) {j : Job} (hj : r.decode = .ok j) {t : Studio}
    (hjobs : t.db.jobs = s.db.jobs) (hdropped : t.db.dropped = s.db.dropped)
    (keys : List String) :
    Fails (rebuildJobs j.world keys) t (.conflict (.worldGenerating j.world j.moduleKey)) t := by
  have hhead : (Jobs.withStatus .running
      (t.db.jobs.filter (·.world.isText j.world.text))).head? = some r := by
    have hmem : r ∈ Jobs.withStatus .running (t.db.jobs.filter (·.world.isText j.world.text)) := by
      rw [Jobs.mem_withStatus, List.mem_filter, hjobs, Cell.isText_iff]
      exact ⟨⟨hr, (JobRow.holds_of_decode hj).world⟩, hrunning⟩
    cases hrows : Jobs.withStatus .running
        (t.db.jobs.filter (·.world.isText j.world.text)) with
    | nil =>
      rw [hrows] at hmem
      cases hmem
    | cons q rest =>
      have hq : q ∈ Jobs.withStatus .running (t.db.jobs.filter (·.world.isText j.world.text)) := by
        rw [hrows]
        exact List.mem_cons_self
      rw [Jobs.mem_withStatus, List.mem_filter, hjobs] at hq
      rw [hdb.eq_of_running hq.1.1 hr hq.2 hrunning, List.head?_cons]
  have hfound : Yields (Jobs.runningOf? j.world) t.db (some j) t.db := by
    simp only [Jobs.runningOf?, yields_bind, Statement.yields_needs, yields_get]
    refine ⟨(), t.db, ⟨by simp [hdropped, hdb.complete], rfl⟩, t.db, t.db, ⟨rfl, rfl⟩, ?_⟩
    rw [hhead]
    simp only [yields_bind, Statement.yields_ofDecoded, yields_pure]
    exact ⟨j, t.db, ⟨hj, rfl⟩, rfl, rfl⟩
  simp only [rebuildJobs, fails_bind]
  refine Or.inr ⟨some j, t, (yields_store _ _ _ _).2 ⟨t.db, hfound, rfl⟩, ?_⟩
  simp

/-- Rebuilding by hand is refused while a job of the world runs, when the keys are known and the
world is live. -/
theorem fails_initializeJobs {e : Engine} {s : Studio} (hdb : s.db.Sound) {r : JobRow}
    (hr : r ∈ s.db.jobs) (hrunning : r.hasStatus .running = true) {j : Job}
    (hj : r.decode = .ok j) {keys : List String}
    (hkeys : ∀ key ∈ keys, ∃ d, e.registry.require key = .ok d) {w : World}
    (hlive : s.db.LiveWorld j.world w) :
    Fails (e.initializeJobs j.world keys) s (.conflict (.worldGenerating j.world j.moduleKey))
      s := by
  -- The keys are looked up before the transaction starts.
  have hknown : Yields (keys.forM fun key => do let _ ← e.definition key) s () s := by
    induction keys with
    | nil => rfl
    | cons key keys ih =>
      obtain ⟨d, hd⟩ := hkeys key List.mem_cons_self
      show Yields ((do let _ ← e.definition key) >>= fun _ => keys.forM _) s () s
      simp only [definition, yields_bind, yields_ofExcept, yields_pure]
      exact ⟨(), s, ⟨d, s, ⟨hd, rfl⟩, trivial, rfl⟩,
        ih fun k hk => hkeys k (List.mem_cons_of_mem key hk)⟩
  rw [initializeJobs, fails_bind]
  refine Or.inr ⟨(), s, hknown, atomically_of_error ((fails_bind _ _ _ _ _).2 (Or.inr ?_))⟩
  exact ⟨w, s, (yields_store _ _ _ _).2 ⟨s.db, Worlds.yields_require hdb.complete hlive, rfl⟩,
    fails_rebuildJobs hdb hr hrunning hj rfl rfl keys⟩

/-- Publishing while a job of the world runs queues nothing. -/
theorem generate_eq_nil_of_publish {e : Engine} {s : Studio} {r : JobRow}
    (hr : r ∈ s.db.jobs) (hrunning : r.hasStatus .running = true) {j : Job}
    (hj : r.decode = .ok j) {owner : OwnerId} {p : Publication} {s' : Studio}
    (h : Yields (e.publish j.world owner) s p s') : p.generate = [] := by
  obtain ⟨w, ms, now, ws, _, _, _, _, _, _, hend⟩ := (published_of_publish h).found
  rcases hend with ⟨hnone, _, _⟩ | ⟨_, _, hidle, _⟩
  · exact hnone
  · have hfalse := hidle r hr (JobRow.holds_of_decode hj).world
    rw [hrunning] at hfalse
    cases hfalse

/-- Retrying a running job is refused, when its module is known and its world live. -/
theorem fails_retryModule {e : Engine} {s : Studio} (hdb : s.db.Sound) {r : JobRow}
    (hr : r ∈ s.db.jobs) (hrunning : r.hasStatus .running = true) {j : Job}
    (hj : r.decode = .ok j) {d : ModuleDefinition} (hd : e.registry.require j.moduleKey = .ok d)
    {w : World} (hlive : s.db.LiveWorld j.world w) :
    Fails (e.retryModule j.world j.moduleKey w.owner) s (.conflict (.jobRunning j.id))
      s.ticked := by
  rw [retryModule]
  simp only [fails_bind, definition, yields_ofExcept]
  refine Or.inr ⟨d, s, ⟨hd, rfl⟩,
    atomically_of_error ((fails_bind _ _ _ _ s.ticked).2 (Or.inr ?_))⟩
  refine ⟨w, s, yields_ownedWorld hdb.complete hlive, (fails_bind _ _ _ _ _).2 (Or.inr ?_)⟩
  refine ⟨some j, s, (yields_store _ _ _ _).2 ⟨s.db, Jobs.yields_find? hdb hr hj, rfl⟩, ?_⟩
  simp only [fails_bind, yields_readClock, fails_store]
  refine Or.inr ⟨s.clock, s.ticked, ⟨rfl, rfl⟩, Or.inl ?_⟩
  exact ⟨_, s.db, Jobs.fails_resetForRetry hdb hr hrunning hj s.clock, rfl, rfl⟩

/-! ## One lease at a time -/

/-- What is refused while a job runs. -/
structure LeaseProtects (e : Engine) (s : Studio) (j : Job) : Prop where
  /-- No queue of its world is built in place of the one that it is in: not within a publication
  either, where modules and the world were written before. -/
  rebuild : ∀ t : Studio, t.db.jobs = s.db.jobs → t.db.dropped = s.db.dropped → ∀ keys,
    Fails (rebuildJobs j.world keys) t (.conflict (.worldGenerating j.world j.moduleKey)) t
  rebuildByHand : ∀ keys, (∀ key ∈ keys, ∃ d, e.registry.require key = .ok d) →
    (∃ w, s.db.LiveWorld j.world w) →
    Fails (e.initializeJobs j.world keys) s (.conflict (.worldGenerating j.world j.moduleKey)) s
  /-- A publication succeeds only if it takes over every module. -/
  publish : ∀ owner p s', Yields (e.publish j.world owner) s p s' → p.generate = []
  retry : ∀ d w, e.registry.require j.moduleKey = .ok d → s.db.LiveWorld j.world w →
    Fails (e.retryModule j.world j.moduleKey w.owner) s (.conflict (.jobRunning j.id)) s.ticked

/-- One lease at a time. -/
structure System.SingleLease (e : Engine) (s : System) : Prop where
  /-- Over all worlds, deleted ones included, at most one job runs. -/
  atMostOne : s.studio.db.jobs.countP (·.hasStatus .running) ≤ 1
  /-- A row that runs stays as it is. -/
  kept : ∀ ev : Event, ev.mayEndLease = false → ∀ r ∈ s.studio.db.jobs,
    r.hasStatus .running = true → r ∈ (s.step e ev).studio.db.jobs
  protects : ∀ r ∈ s.studio.db.jobs, r.hasStatus .running = true →
    ∃ j, r.decode = .ok j ∧ LeaseProtects e s.studio j

theorem System.Sound.singleLease {s : System} (h : s.Sound) (e : Engine) : s.SingleLease e where
  atMostOne := h.db.running
  kept ev hev r hr hrunning := by
    obtain ⟨opened, ws, heffect, hcommit, _⟩ := s.step_effect e ev
    exact hcommit.journal.mem_of_running h.db (heffect.endsLease_eq_false hev) hr hrunning
  protects r hr hrunning := by
    obtain ⟨j, hj⟩ := h.db.readable r hr hrunning
    refine ⟨j, hj, ?_, ?_, ?_, ?_⟩
    · exact fun t hjobs hdropped keys => fails_rebuildJobs h.db hr hrunning hj hjobs hdropped keys
    · exact fun keys hkeys ⟨w, hlive⟩ => fails_initializeJobs h.db hr hrunning hj hkeys hlive
    · exact fun owner p s' hpublish => generate_eq_nil_of_publish hr hrunning hj hpublish
    · exact fun d w hd hlive => fails_retryModule h.db hr hrunning hj hd hlive

/-- Whatever happens in whatever order, there is one lease at a time. -/
theorem System.singleLease_run (e : Engine) (events : List Event) :
    (System.run e events).SingleLease e :=
  (Sound.run e events).singleLease e

end Lorebook
