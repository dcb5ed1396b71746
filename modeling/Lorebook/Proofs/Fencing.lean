import Lorebook.Proofs.Integrity

set_option autoImplicit false

/-! # Whose lease a call settles

A call settles the job that it leased, and nothing of any other job. Settling asks whether the job
is running, not whether it is running under the lease that the call was given: a call whose lease
expired ends the lease of a later call for the same job, if there is one by then. This is the only
way in which a call changes anything without holding its lease (`System.fencing_run`). -/

namespace Lorebook

open Studio Operation Engine

/-! ## What settling touches -/

/-- The databases differ in the row of a job, of its module and of its world only. -/
structure Database.TouchesOnly (job : Job) (db db' : Database) : Prop where
  jobs : ∀ r : JobRow, r.id ≠ .text job.id.text → (r ∈ db'.jobs ↔ r ∈ db.jobs)
  modules : ∀ r : ModuleRow, Modules.isOf job.world job.moduleKey r = false →
    (r ∈ db'.modules ↔ r ∈ db.modules)
  worlds : ∀ r : WorldRow, r.id ≠ .text job.world.text → (r ∈ db'.worlds ↔ r ∈ db.worlds)

namespace Database.TouchesOnly

variable {job : Job} {db db' db'' : Database}

theorem refl (job : Job) (db : Database) : TouchesOnly job db db :=
  ⟨fun _ _ => Iff.rfl, fun _ _ => Iff.rfl, fun _ _ => Iff.rfl⟩

theorem trans (h : TouchesOnly job db db') (h' : TouchesOnly job db' db'') :
    TouchesOnly job db db'' where
  jobs r hr := (h'.jobs r hr).trans (h.jobs r hr)
  modules r hr := (h'.modules r hr).trans (h.modules r hr)
  worlds r hr := (h'.worlds r hr).trans (h.worlds r hr)

end Database.TouchesOnly

/-- Rows outside of a set are the same after a map that keeps the set and what is outside of it. -/
theorem mem_map_outside {ρ : Type} {rows : List ρ} {f : ρ → ρ} {p : ρ → Prop}
    (hf : ∀ q, p q → p (f q)) (hkept : ∀ q, ¬ p q → f q = q) {r : ρ} (hr : ¬ p r) :
    r ∈ rows.map f ↔ r ∈ rows := by
  constructor
  · intro hmem
    obtain ⟨q, hq, rfl⟩ := List.mem_map.1 hmem
    by_cases hp : p q
    · exact absurd (hf q hp) hr
    · rw [hkept q hp]
      exact hq
  · intro hmem
    exact List.mem_map.2 ⟨r, hmem, hkept r hr⟩

/-- A write about one job touches the row of that job only. -/
theorem Write.touchesOnly_of_job {job : Job} {w : Write} (hw : w.job? = some job.id)
    (db : Database) : db.TouchesOnly job (w.apply db) := by
  rw [Write.apply_of_job hw]
  refine ⟨fun r hr => ?_, fun _ _ => Iff.rfl, fun _ _ => Iff.rfl⟩
  refine mem_map_outside (p := fun q => q.id = .text job.id.text) (fun q hq => ?_)
    (fun q hq => Write.onJob_of_ne hw hq) hr
  rw [Write.id_onJob]
  exact hq

/-- The writes of a call that settles its job. -/
inductive Write.Settles (job : Job) : Write → Prop where
  | succeed (now : Instant) : Settles job (.succeed job.id now)
  | fail (message : String) (now : Instant) : Settles job (.fail job.id message now)
  | saveModule {m : WorldModule} (hworld : m.world = job.world) (hkey : m.key = job.moduleKey) :
    Settles job (.saveModule m)
  | changeWorld {w : World} (h : w.id = job.world) : Settles job (.changeWorld w)

theorem Write.Settles.touchesOnly {job : Job} {w : Write} (h : w.Settles job) (db : Database) :
    db.TouchesOnly job (w.apply db) := by
  have hrefl := Database.TouchesOnly.refl job db
  cases h with
  | succeed now => exact touchesOnly_of_job rfl db
  | fail message now => exact touchesOnly_of_job rfl db
  | @saveModule m hworld hkey =>
    refine ⟨hrefl.jobs, fun r hr => ?_, hrefl.worlds⟩
    have hof : ¬ Modules.isOf m.world m.key r = true := by
      rw [hworld, hkey, hr]
      decide
    rw [apply_modules, onModules]
    split
    · refine mem_map_outside (p := fun q => Modules.isOf m.world m.key q = true)
        (fun q hq => ?_) (fun q hq => if_neg hq) hof
      rw [if_pos hq]
      exact hq
    · rw [List.mem_append, List.mem_singleton]
      refine ⟨fun hmem => hmem.resolve_right ?_, Or.inl⟩
      rintro rfl
      exact hof (Modules.isOf_iff.2 ⟨rfl, rfl⟩)
  | @changeWorld w hid =>
    refine ⟨hrefl.jobs, hrefl.modules, fun r hr => ?_⟩
    refine mem_map_outside (p := fun q => q.id = .text job.world.text) (fun q hq => ?_)
      (fun q hq => if_neg fun hlive => hq ?_) hr
    · split <;> exact hq
    · rw [← hid]
      exact (Worlds.isLive_iff.1 hlive).1

theorem Journal.touchesOnly {job : Job} {db db' : Database} {ws : List Write}
    (h : Journal db ws db') (hws : ∀ w ∈ ws, w.Settles job) : db.TouchesOnly job db' :=
  h.invariant (I := db.TouchesOnly job)
    (fun w hw d _ hd => hd.trans ((hws w hw).touchesOnly d)) (.refl job db)

/-! ## Settling transactions -/

/-- Whether an event is a settling transaction of the call of a number. -/
def Event.settles (i : Nat) : Event → Bool
  | .settle j _ => j == i
  | .release j => j == i
  | _ => false

/-- The writes of a settling transaction: the job's row ends its lease, then the module and the
world of the job may be written. -/
structure SettlesFirst (job : Job) (ws : List Write) : Prop where
  first : ∃ w vs, ws = w :: vs ∧ (∀ v ∈ vs, ∀ rows, v.onJobs rows = rows) ∧
    ((∃ now, w = .succeed job.id now) ∨ ∃ message now, w = .fail job.id message now)
  settles : ∀ w ∈ ws, w.Settles job

theorem Engine.Marks.settlesFirst {db : Database} {job : Job} {status : ModuleStatus}
    {now : Instant} {ws : List Write} (h : Marks db job status now ws) (message : String)
    (time : Instant) : SettlesFirst job (.fail job.id message time :: ws) := by
  refine ⟨⟨_, ws, rfl, h.onJobs_eq, Or.inr ⟨_, _, rfl⟩⟩, fun w hw => ?_⟩
  rcases List.mem_cons.1 hw with rfl | hw
  · exact .fail _ _
  · obtain ⟨m, rfl, hworld, hkey, _⟩ := h.eq_saveModule hw
    exact .saveModule hworld hkey

/-- A settling transaction of a call writes nothing, or it settles the job of the call. -/
theorem Effect.settlesFirst {e : Engine} {s : System} {ev : Event} {opened : List Job}
    {ws : List Write} (h : Effect e s ev opened ws) {i : Nat} (hev : ev.settles i = true)
    {c : QueueCall} (hc : s.calls[i]? = some c) : ws = [] ∨ SettlesFirst c.job ws := by
  have hsame {j : Nat} {c' : QueueCall} (hj : (j == i) = true) (hc' : s.calls[j]? = some c') :
      c' = c := by
    rw [beq_iff_eq.1 hj, hc] at hc'
    exact (Option.some.inj hc').symm
  cases h with
  | nothing => exact Or.inl rfl
  | @complete _ _ c' _ _ w m now activated hc' _ _ hlive hm _ _ =>
    obtain rfl := hsame hev hc'
    have hactivate : ∀ v ∈ (if activated then [Write.changeWorld (w.activate now)] else []),
        v = .changeWorld (w.activate now) := by
      intro v hv
      split at hv
      · exact List.mem_singleton.1 hv
      · cases hv
    refine Or.inr ⟨⟨_, _, rfl, fun v hv rows => ?_, Or.inl ⟨_, rfl⟩⟩, fun v hv => ?_⟩
    · rcases List.mem_cons.1 hv with rfl | hv
      · rfl
      · rw [hactivate v hv]
        rfl
    · rw [List.cons_append, List.cons_append, List.nil_append] at hv
      rcases List.mem_cons.1 hv with rfl | hv
      · exact .succeed _
      rcases List.mem_cons.1 hv with rfl | hv
      · exact .saveModule hm.world_eq hm.key_eq
      · rw [hactivate v hv]
        exact .changeWorld hlive.id_eq
  | fail hc' hmarks =>
    obtain rfl := hsame hev hc'
    exact Or.inr (hmarks.settlesFirst _ _)
  | release hc' hmarks =>
    obtain rfl := hsame hev hc'
    exact Or.inr (hmarks.settlesFirst _ _)
  | _ => cases hev

/-- What settling writes was allowed because the job was running; after it, the job runs no
longer. -/
theorem SettlesFirst.ended {job : Job} {ws : List Write} (h : SettlesFirst job ws)
    {db db' : Database} (hdb : db.Sound) (hjournal : Journal db ws db') :
    (∃ r ∈ db.jobs, r.id = .text job.id.text ∧ r.hasStatus .running = true) ∧
      ∀ r ∈ db'.jobs, r.id = .text job.id.text → r.hasStatus .running = false := by
  obtain ⟨w, vs, rfl, hvs, hw⟩ := h.first
  obtain ⟨hallowed, hrest⟩ := Journal.cons_iff.1 hjournal
  have hrunning : ∃ r ∈ db.jobs, r.id = .text job.id.text ∧ r.hasStatus .running = true := by
    rcases hw with ⟨now, rfl⟩ | ⟨message, now, rfl⟩ <;> exact hallowed
  refine ⟨hrunning, fun r hr hid => ?_⟩
  obtain ⟨q, hq, hqid, hqrunning⟩ := hrunning
  rw [hrest.jobs_eq hvs] at hr
  have hmem : r ∈ db.jobs.map w.onJob := by
    rcases hw with ⟨now, rfl⟩ | ⟨message, now, rfl⟩ <;> exact hr
  obtain ⟨r₀, hr₀, rfl⟩ := List.mem_map.1 hmem
  rw [Write.id_onJob] at hid
  rw [eq_of_jobId hdb.jobIds hr₀ hq (hid.trans hqid.symm)]
  rcases hw with ⟨now, rfl⟩ | ⟨message, now, rfl⟩ <;>
    simp [Write.onJob, hqid, Cell.isText_iff.2, hqrunning]

/-! ## Fencing -/

/-- The job has been leased again since, and the later lease is held. -/
def System.Superseded (s : System) (job : Job) : Prop :=
  ∃ job' ∈ s.leases, job'.id = job.id ∧ job.attempts < job'.attempts ∧
    s.studio.db.HoldsLease job'

/-- Who holds a lease of a job has not been superseded. -/
theorem System.not_superseded_of_holdsLease {s : System} (hdb : s.studio.db.Sound) {job : Job}
    (h : s.studio.db.HoldsLease job) : ¬ s.Superseded job := by
  rintro ⟨job', _, hsame, hlt, r', hr', hid', _, hattempts'⟩
  obtain ⟨r, hr, hid, _, hattempts⟩ := h
  rw [hsame] at hid'
  rw [eq_of_jobId hdb.jobIds hr' hr (hid'.trans hid.symm), hattempts, Cell.int.injEq] at hattempts'
  omega

/-- A running job is held by the call, or the call has been superseded. -/
theorem System.Sound.holdsLease_or_superseded {s : System} (h : s.Sound) {job : Job}
    (hjob : job ∈ s.leases) {r : JobRow} (hr : r ∈ s.studio.db.jobs)
    (hid : r.id = .text job.id.text) (hrunning : r.hasStatus .running = true) :
    s.studio.db.HoldsLease job ∨ s.Superseded job := by
  obtain ⟨job', hjob', hid', hattempts'⟩ := h.held r hr hrunning
  obtain ⟨_, _, n, hattempts, hle⟩ := h.tracked job hjob r hr hid
  -- Attempts never go back, so the lease that is held is the call's own or a later one.
  have hn : n = job'.attempts := by
    rw [hattempts, Cell.int.injEq] at hattempts'
    omega
  by_cases heq : job.attempts = n
  · exact Or.inl ⟨r, hr, hid, hrunning, by rw [heq]; exact hattempts⟩
  · refine Or.inr ⟨job', hjob', JobId.eq_of_text ?_, by omega, r, hr, hid', hrunning, hattempts'⟩
    exact Cell.text.inj (hid'.symm.trans hid)

/-- A settling transaction changes the database only if the call holds the lease of its job. -/
def System.Fenced (e : Engine) (s : System) (c : QueueCall) (ev : Event) : Prop :=
  (s.step e ev).studio.db ≠ s.studio.db → s.studio.db.HoldsLease c.job

/-- What holds of a settling transaction of a call. -/
structure System.Settlement (e : Engine) (s : System) (c : QueueCall) (ev : Event) : Prop where
  touchesOnly : s.studio.db.TouchesOnly c.job (s.step e ev).studio.db
  /-- A job that runs under no lease at all is not settled: the call holds the lease, or a later
  call for the job does. -/
  held : (s.step e ev).studio.db ≠ s.studio.db →
    s.studio.db.HoldsLease c.job ∨ s.Superseded c.job
  /-- Whoever held the lease does not hold it any more. -/
  ended : (s.step e ev).studio.db ≠ s.studio.db →
    ∀ r ∈ (s.step e ev).studio.db.jobs, r.id = .text c.job.id.text → r.hasStatus .running = false
  /-- Fencing fails exactly where a superseded call changes something. -/
  fenced_iff : s.Fenced e c ev ↔
    ¬ (s.Superseded c.job ∧ (s.step e ev).studio.db ≠ s.studio.db)

theorem System.Sound.settlement {s : System} (h : s.Sound) (e : Engine) {i : Nat} {c : QueueCall}
    (hc : s.calls[i]? = some c) {ev : Event} (hev : ev.settles i = true) :
    s.Settlement e c ev := by
  obtain ⟨opened, ws, heffect, hcommit, _⟩ := s.step_effect e ev
  have hws := heffect.settlesFirst hev hc
  have hchanged (hne : (s.step e ev).studio.db ≠ s.studio.db) : SettlesFirst c.job ws := by
    refine hws.resolve_left fun hnil => hne ?_
    rw [hnil] at hcommit
    exact Journal.nil_iff.1 hcommit.journal
  have hheld (hne : (s.step e ev).studio.db ≠ s.studio.db) :
      s.studio.db.HoldsLease c.job ∨ s.Superseded c.job := by
    obtain ⟨r, hr, hid, hrunning⟩ := ((hchanged hne).ended h.db hcommit.journal).1
    exact h.holdsLease_or_superseded (job_mem_leases hc) hr hid hrunning
  refine ⟨?_, hheld, fun hne => ((hchanged hne).ended h.db hcommit.journal).2, ?_, ?_⟩
  · rcases hws with rfl | hsettles
    · rw [Journal.nil_iff.1 hcommit.journal]
      exact .refl _ _
    · exact hcommit.journal.touchesOnly hsettles.settles
  · rintro hfenced ⟨hsuperseded, hne⟩
    exact not_superseded_of_holdsLease h.db (hfenced hne) hsuperseded
  · exact fun hnot hne => (hheld hne).resolve_right fun hsuperseded => hnot ⟨hsuperseded, hne⟩

/-! ## Superseded calls -/

/-- The module of a job can be read, if it is stored. -/
def Database.ModuleReadable (db : Database) (job : Job) : Prop :=
  ∀ row, db.modules.find? (Modules.isOf job.world job.moduleKey) = some row →
    ∃ m, row.decode = .ok m

theorem Modules.yields_save {db : Database} (hcomplete : db.dropped = []) {m : WorldModule}
    (hstored : ∃ r ∈ db.modules, isOf m.world m.key r = true) :
    ∃ db', Yields (save m) db () db' := by
  simp only [save, yields_bind, Statement.yields_needs, yields_get, yields_ite, yields_set]
  exact ⟨_, (), db, ⟨by simp [hcomplete], rfl⟩, (), db, ⟨by simp [hcomplete], rfl⟩, db, db,
    ⟨rfl, rfl⟩, Or.inl ⟨List.any_eq_true.2 hstored, rfl⟩⟩

theorem Modules.yields_find? {db : Database} (hcomplete : db.dropped = []) {job : Job}
    (hreadable : db.ModuleReadable job) :
    ∃ found, Yields (find? job.world job.moduleKey) db found db := by
  simp only [find?, yields_bind, Statement.yields_needs, yields_get]
  cases hrow : db.modules.find? (isOf job.world job.moduleKey) with
  | none =>
    refine ⟨none, (), db, ⟨by simp [hcomplete], rfl⟩, db, db, ⟨rfl, rfl⟩, ?_⟩
    rw [hrow]
    simp
  | some row =>
    obtain ⟨m, hm⟩ := hreadable row hrow
    refine ⟨some m, (), db, ⟨by simp [hcomplete], rfl⟩, db, db, ⟨rfl, rfl⟩, ?_⟩
    rw [hrow]
    simp only [yields_bind, Statement.yields_ofDecoded, yields_pure]
    exact ⟨m, db, ⟨hm, rfl⟩, rfl, rfl⟩

theorem Engine.yields_markModule {s : Studio} (hcomplete : s.db.dropped = []) {job : Job}
    (hreadable : s.db.ModuleReadable job) (status : ModuleStatus) (now : Instant) :
    ∃ s', Yields (markModule job status now) s () s' := by
  obtain ⟨found, hfound⟩ := Modules.yields_find? hcomplete hreadable
  simp only [markModule, yields_bind, yields_store]
  rcases Modules.find?_cases hfound with ⟨m, rfl, hstored⟩ | ⟨rfl, _⟩
  · obtain ⟨row, hrow, _⟩ := id hstored
    obtain ⟨db', hsave⟩ := Modules.yields_save (m := { m with status := status }.touch none now)
      hcomplete ⟨row, List.mem_of_find?_eq_some hrow, by
        have hof := List.find?_some hrow
        rwa [← hstored.world_eq, ← hstored.key_eq] at hof⟩
    exact ⟨s.withDb db', some m, s, ⟨s.db, hfound, rfl⟩, (yields_store _ _ _ _).2 ⟨db', hsave, rfl⟩⟩
  · exact ⟨s, none, s, ⟨s.db, hfound, rfl⟩, by simp⟩

/-- A running job can be failed, if its module can be read. -/
theorem Engine.yields_fail {s : Studio} (hcomplete : s.db.dropped = []) {job : Job}
    (hrunning : ∃ r ∈ s.db.jobs, r.id = .text job.id.text ∧ r.hasStatus .running = true)
    (hreadable : s.db.ModuleReadable job) (message : String) :
    ∃ s', Yields (fail job message) s () s' := by
  obtain ⟨r, hr, hid, hstatus⟩ := hrunning
  have hany : (s.db.jobs.any fun q => q.id.isText job.id.text && q.hasStatus .running) = true :=
    List.any_eq_true.2 ⟨r, hr, by rw [Cell.isText_iff.2 hid, hstatus]; rfl⟩
  -- The database between the two statements of the transaction.
  let db := { s.db with jobs := s.db.jobs.map (Write.fail job.id message s.clock).onJob }
  have hmark : Yields (Jobs.markFailed job.id message s.clock) s.db () db := by
    simp only [Jobs.markFailed, Jobs.change, yields_bind, Statement.yields_needs, yields_get,
      yields_ite, yields_modify, yields_pure]
    exact ⟨true, db, ⟨(), s.db, ⟨by simp [hcomplete], rfl⟩, s.db, s.db, ⟨rfl, rfl⟩,
      Or.inl ⟨hany, (), db, rfl, rfl, rfl⟩⟩, by simp [Jobs.ensureLeased]⟩
  obtain ⟨s', hmodule⟩ := yields_markModule (s := s.ticked.withDb db) hcomplete hreadable .failed
    s.clock
  refine ⟨s', ?_⟩
  simp only [fail, yields_atomically, yields_bind, yields_readClock, yields_store]
  exact ⟨s.clock, s.ticked, ⟨rfl, rfl⟩, (), s.ticked.withDb db, ⟨db, hmark, rfl⟩, hmodule⟩

/-- A superseded call that fails its job is not fenced off: it ends the later lease. -/
theorem System.Sound.not_fenced {s : System} (h : s.Sound) (e : Engine) {i : Nat} {c : QueueCall}
    (hc : s.calls[i]? = some c) {request : GenerationRequest} (hstage : c.stage = .asked request)
    (hsuperseded : s.Superseded c.job) (hreadable : s.studio.db.ModuleReadable c.job)
    {reply : GenerationReply} {cause : EngineError} (hreply : contentOf reply = .error cause) :
    ¬ s.Fenced e c (.settle i reply) := by
  obtain ⟨job', _, hsame, _, r, hr, hid, hrunning, _⟩ := id hsuperseded
  rw [hsame] at hid
  intro hfenced
  refine not_superseded_of_holdsLease h.db (hfenced ?_) hsuperseded
  have hstudio : (s.step e (.settle i reply)).studio =
      ({ c with answeredOn := some (s.studio, reply) }.record (.error cause) s.studio).2 := by
    show (s.onCall (·.settle reply) i).studio = _
    rw [onCall_of_some hc]
    simp only [QueueCall.settle, hstage, hreply]
  -- What is said in the log before the transaction leaves the database.
  unfold QueueCall.record Engine.record at hstudio
  simp only [recordFailure_run] at hstudio
  generalize htold : s.studio.told _ = t at hstudio
  have hdb : t.db = s.studio.db := by
    rw [← htold]
    rfl
  obtain ⟨s', hfail⟩ := yields_fail (s := t) (by rw [hdb]; exact h.db.complete)
    (by rw [hdb]; exact ⟨r, hr, hid, hrunning⟩) (by rwa [hdb]) cause.message
  rw [show fail c.job cause.message t = (.ok (), s') from hfail] at hstudio
  have hlast : (s.step e (.settle i reply)).studio = s' := hstudio
  obtain ⟨now, ws, hmarks, hcommit⟩ := commit_fail hfail
  have hended := (hmarks.settlesFirst cause.message now).ended (by rw [hdb]; exact h.db)
    hcommit.journal
  intro heq
  have hfalse := hended.2 r (by rw [← hlast, heq]; exact hr) hid
  rw [hrunning] at hfalse
  cases hfalse

/-! ## Runs -/

/-- What holds of all settling transactions of a system. -/
structure System.Fencing (e : Engine) (s : System) : Prop where
  settlement : ∀ i c ev, s.calls[i]? = some c → ev.settles i = true → s.Settlement e c ev
  /-- A superseded call whose generator fails is not fenced off. -/
  notFenced : ∀ i c request reply cause, s.calls[i]? = some c → c.stage = .asked request →
    s.Superseded c.job → s.studio.db.ModuleReadable c.job → contentOf reply = .error cause →
    ¬ s.Fenced e c (.settle i reply)

/-- In every system that is reached, a settling transaction of a call changes the rows of its job,
of its module and of its world only, and it changes something only if the call holds the lease of
its job or has been superseded. -/
theorem System.fencing_run (e : Engine) (events : List Event) :
    (System.run e events).Fencing e where
  settlement _ _ _ hc hev := (Sound.run e events).settlement e hc hev
  notFenced _ _ _ _ _ hc hstage hsuperseded hreadable hreply :=
    (Sound.run e events).not_fenced e hc hstage hsuperseded hreadable hreply

/-- A run in which the lease of a call expires, and its job is retried and leased by another
call. -/
def supersedingEvents : List Event :=
  [.createFirst, .publishFirst, .lease, .ask 0, .command (.recoverStaleLeases (.ofSeconds 0)),
    .command (.retryModule (.mint 0) "m" ⟨"owner"⟩), .lease]

/-- The first call, which leased the job in its first attempt, then fails it in its second. -/
theorem System.not_fenced_superseding :
    ∃ c, (System.run .minimal supersedingEvents).calls[0]? = some c ∧
      ((System.run .minimal supersedingEvents).step .minimal
        (.settle 0 (.error .emptyResponse))).studio.db.jobs.map (fun r => (r.status, r.attempts)) =
          [(.text "FAILED", .int 2)] ∧
      ¬ (System.run .minimal supersedingEvents).Fenced .minimal c
        (.settle 0 (.error .emptyResponse)) := by
  have hafter : ((System.run .minimal supersedingEvents).step .minimal
      (.settle 0 (.error .emptyResponse))).studio.db.jobs.map (fun r => (r.status, r.attempts)) =
        [(.text "FAILED", .int 2)] := by decide +kernel
  have hbefore : (System.run .minimal supersedingEvents).studio.db.jobs.map
      (fun r => (r.status, r.attempts)) = [(.text "RUNNING", .int 2)] := by decide +kernel
  have hcall : (System.run .minimal supersedingEvents).calls[0]?.map (·.job.attempts) = some 1 := by
    decide +kernel
  obtain ⟨c, hc, hattempts⟩ := Option.map_eq_some_iff.1 hcall
  refine ⟨c, hc, hafter, fun hfenced => ?_⟩
  obtain ⟨r, hr, _, _, hheld⟩ := hfenced fun heq => by
    rw [heq, hbefore] at hafter
    exact absurd hafter (by decide)
  have hrow := List.mem_map_of_mem (f := fun r : JobRow => (r.status, r.attempts)) hr
  rw [hbefore, List.mem_singleton, Prod.mk.injEq, hheld, hattempts] at hrow
  exact absurd hrow.2 (by decide)

end Lorebook
