import Lorebook.Proofs.Completion
import Lorebook.Proofs.LegibleRuns
import Lorebook.Proofs.Results
import Lorebook.Proofs.Retrying
import Lorebook.Proofs.StaleLeases

set_option autoImplicit false

/-! # Recovery along runs

A run whose clock stays in the years of four digits leaves rows that recovery can read, so recovery
is exact after it and the queue goes on (`System.recovery_run`). It does not go on for a job that was
leased as often as 32 bits count: leasing, recovering and retrying a job in turn counts its attempts
up by one (`System.WornBy.again`), so there is a run that wears a job out, and then each call of the
queue fails. -/

namespace Lorebook

open Studio Operation Engine

/-! ## One more attempt -/

/-- The only job is that of a module of an owner's world. It has a status, and was leased so often. -/
structure Database.Worn (id : WorldId) (key : String) (owner : OwnerId) (status : JobStatus)
    (n : Nat) (db : Database) : Prop where
  owned : db.OwnedBy id owner
  stored : ∃ m ∈ db.modules, Modules.isOf id key m = true
  job : ∃ r, db.jobs = [r] ∧ Jobs.isOf id key r = true ∧ r.hasStatus status = true ∧
    r.attempts = .int n

/-- Reading a world leaves the clock. -/
theorem Engine.sameClock_ownedWorld (id : WorldId) (owner : OwnerId) :
    Respects SameClock (ownedWorld id owner) :=
  respects_bind (sameClock_store _) fun _ =>
    respects_bind (respects_ite (respects_pure _) (respects_throw _)) fun _ => respects_pure _

/-- A retry reads the clock once. -/
theorem Engine.clock_retryModule {e : Engine} {id : WorldId} {key : String} {owner : OwnerId}
    {s t : Studio} {j : Job} (h : Yields (e.retryModule id key owner) s j t) :
    t.clock = s.ticked.clock := by
  simp only [retryModule, definition, yields_bind, yields_atomically, yields_store, yields_ofExcept]
    at h
  obtain ⟨_, v, ⟨-, rfl⟩, w, u, howned, found, _, ⟨db, hfind, rfl⟩, h⟩ := h
  have hu : u.clock = v.clock := (sameClock_ownedWorld id owner).of_yields howned
  cases found with
  | none => simp at h
  | some job =>
    simp only [yields_bind, yields_readClock, yields_store, yields_tell, yields_ite] at h
    obtain ⟨now, _, ⟨rfl, rfl⟩, _, _, ⟨db₁, _, rfl⟩, m, _, ⟨db₂, _, rfl⟩, _, _, ⟨db₃, _, rfl⟩,
      ⟨_, _, _, rfl, db₄, _, rfl⟩ | ⟨_, _, _, ⟨db₄, _, rfl⟩, _, _, rfl, db₅, _, rfl⟩⟩ := h
    · exact congrArg (Instant.later · clockTick) hu
    · exact congrArg (Instant.later · clockTick) hu

/-- The next row is leased at the time that the clock shows. -/
theorem Engine.yields_leaseNext_row {s : Studio} (hdb : s.db.Recoverable) (hclock : s.clock.InEra)
    {row : JobRow} (hnext : Jobs.nextRow? s.db = some row)
    (hattempts : ∃ n : Nat, row.attempts = .int n ∧ n + 1 < twoPow 32) :
    ∃ job t, Yields leaseNext s (some job) t ∧ t.clock = s.ticked.clock ∧
      t.db = { s.db with
        modules := s.db.modules.map fun m =>
          if Modules.isOf job.world job.moduleKey m then m.marking .generating s.clock else m
        jobs := (Write.lease row s.clock).onJobs s.db.jobs } := by
  have hrow : row ∈ s.db.jobs := (Jobs.mem_of_nextRow? hnext).1
  obtain ⟨job, hjob⟩ := (Database.readable_leased_iff hdb.rows hclock hrow).2 hattempts
  let db₁ := (Write.lease row s.clock).apply s.db
  have hlease := Jobs.yields_leaseNext_some hdb.keyed.complete hnext hjob
  have hreadable : db₁.ModuleReadable job := hdb.rows.moduleReadable job
  obtain ⟨t, hmark⟩ := yields_markModule (s := s.ticked.withDb db₁) hdb.keyed.complete hreadable
    .generating s.clock
  obtain ⟨ws, hmarks, hcommit⟩ := commit_markModule hmark
  have hclock' : SameClock (s.ticked.withDb db₁) t := (sameClock_markModule _ _ _).of_yields hmark
  have hmarked := hmarks.db_eq hdb.keyed.moduleKeys hdb.fields hcommit.journal
  exact ⟨job, t, Yields.atomically (Yields.bind (yields_clock s)
    (Yields.bind (Yields.store s.ticked hlease) (Yields.bind hmark (Yields.pure _ t)))), hclock',
    hmarked⟩

namespace Database.Worn

variable {e : Engine} {id : WorldId} {key : String} {owner : OwnerId} {db db' : Database}
  {s : Studio} {status status' : JobStatus} {n k : Nat}

/-- What happens to the job and the status of its module leaves it worn. -/
theorem of_jobs (h : db.Worn id key owner status n) (hworlds : db'.worlds = db.worlds)
    {f : ModuleRow → ModuleRow} (hf : ∀ m, (f m).world = m.world ∧ (f m).key = m.key)
    (hmodules : db'.modules = db.modules.map f) {r : JobRow} (hjobs : db'.jobs = [r])
    (hof : Jobs.isOf id key r = true) (hstatus : r.hasStatus status' = true)
    (hattempts : r.attempts = .int k) : db'.Worn id key owner status' k where
  owned := by
    rw [OwnedBy, hworlds]
    exact h.owned
  stored := by
    obtain ⟨m, hm, hmof⟩ := h.stored
    refine ⟨f m, hmodules ▸ List.mem_map_of_mem hm, ?_⟩
    rwa [Modules.isOf, (hf m).1, (hf m).2]
  job := ⟨r, hjobs, hof, hstatus, hattempts⟩

theorem not_running (h : db.Worn id key owner status n) (hstatus : status ≠ .running) :
    ∀ r ∈ db.jobs, r.hasStatus .running = false := by
  intro q hq
  obtain ⟨r, hjobs, -, hr, -⟩ := h.job
  obtain rfl := List.mem_singleton.1 (hjobs ▸ hq)
  exact Bool.eq_false_iff.2 fun hrunning => hstatus (JobRow.hasStatus_unique hr hrunning)

/-- While the job waits, it is the one that can be leased. -/
theorem eligible_eq (h : db.Worn id key owner .waiting n) : db.eligible = db.jobs := by
  obtain ⟨r, hjobs, hof, hwaiting, -⟩ := h.job
  have hlive : db.hasLive r.world = true := by
    rw [(Jobs.isOf_iff.1 hof).1]
    exact h.owned.hasLive
  rw [eligible, Jobs.withStatus, hjobs]
  simp [Jobs.queueOrder, hwaiting, hlive]

/-- The next call of the queue leases the job once more. -/
theorem lease (h : s.db.Worn id key owner .waiting n) (hdb : s.db.Recoverable)
    (hclock : s.clock.InEra) (hn : n + 1 < twoPow 32) :
    ∃ job t, (takeJob : StateM Studio _) s = (.ok (some job), t) ∧ t.clock = s.ticked.clock ∧
      t.db.Worn id key owner .running (n + 1) ∧
      ∀ r ∈ t.db.jobs, r.startedAt = .text (Rfc3339.stored s.clock) := by
  obtain ⟨r, hjobs, hof, -, hattempts⟩ := h.job
  have hnext : Jobs.nextRow? s.db = some r := by
    rw [nextRow?_eq_head? (h.not_running (by decide)), h.eligible_eq, hjobs]
    rfl
  obtain ⟨job, t, hlease, hticks, hleft⟩ :=
    yields_leaseNext_row hdb hclock hnext ⟨n, hattempts, hn⟩
  let u := t.told ⟨.info, .queue, "job leased",
    jobFields job ++ [("world_id", .str job.world.text), ("attempt", .nat job.attempts)]⟩
  have hleased : u.db.jobs = [Jobs.leased (.text (Rfc3339.stored s.clock)) r] := by
    show t.db.jobs = _
    rw [hleft, hjobs]
    exact congrArg (fun q => [q]) (if_pos rfl)
  refine ⟨job, u, ?_, hticks, ?_, ?_⟩
  · rw [takeJob_run, show leaseNext s = (.ok (some job), t) from hlease]
  · have hworlds : u.db.worlds = s.db.worlds := by
      show t.db.worlds = _
      rw [hleft]
    have hmodules : u.db.modules = s.db.modules.map fun m =>
        if Modules.isOf job.world job.moduleKey m then m.marking .generating s.clock else m := by
      show t.db.modules = _
      rw [hleft]
    refine h.of_jobs hworlds (fun m => ?_) hmodules hleased hof Jobs.hasStatus_leased
      (Jobs.attempts_leased hattempts (by omega))
    split <;> exact ⟨rfl, rfl⟩
  · intro q hq
    obtain rfl := List.mem_singleton.1 (hleased ▸ hq)
    rfl

/-- The lease expires in a recovery. -/
theorem recovered (h : db.Worn id key owner .running n) {cutoff now : Instant}
    (hstale : ∀ r ∈ db.jobs, r.isStale cutoff = true) :
    (db.recovered cutoff now).Worn id key owner .failed n := by
  obtain ⟨r, hjobs, hof, -, hattempts⟩ := h.job
  refine h.of_jobs (r := r.expired now) rfl (fun m => ?_) rfl ?_ hof (JobRow.hasStatus_iff.2 rfl)
    hattempts
  · split <;> exact ⟨rfl, rfl⟩
  · rw [Database.recovered, expiring, hjobs]
    rw [hjobs] at hstale
    simp [hstale r (List.mem_singleton_self r)]

/-- The job is retried. -/
theorem retry (h : s.db.Worn id key owner .failed n) (hdb : s.db.Recoverable)
    (hclock : s.clock.InEra) (hknown : key ∈ e.registry.keys) :
    ∃ j t, Yields (e.retryModule id key owner) s j t ∧ t.clock = s.ticked.clock ∧
      t.db.Worn id key owner .waiting n := by
  obtain ⟨r, hjobs, hof, -, hattempts⟩ := h.job
  have hidle := h.not_running (by decide) r (by simp [hjobs])
  obtain ⟨m, hm, hmof⟩ := h.stored
  have hcan : e.CanRetry s.db id key owner :=
    { known := hknown
      owned := h.owned.liveWorld hdb.rows hdb.keyed.worldIds
      settled := ⟨r, by simp [hjobs], hof, hidle⟩
      stored := by
        rcases Modules.stored_or_absent hdb.rows id key with hstored | habsent
        · exact hstored
        · rw [habsent m hm] at hmof
          cases hmof }
  obtain ⟨j, t, hretry⟩ := succeeds_retryModule hdb.keyed hdb.rows hclock hcan
  obtain ⟨-, hretried⟩ := retried_of_retryModule hdb.keyed hretry
  refine ⟨j, t, hretry, clock_retryModule hretry, ?_, ?_, ?_⟩
  · obtain ⟨w, hw, hlive, howner⟩ := h.owned
    obtain ⟨w', hw', hgenerates⟩ := exists_of_forall₂ hretried.worlds.flip hw
    have hgenerates : w.Generates w' := (if_pos hlive).mp hgenerates
    refine ⟨w', hw', ?_, hgenerates.owner.trans howner⟩
    rwa [Worlds.isLive, hgenerates.id, hgenerates.deletedAt]
  · obtain ⟨m', hm', hawaits⟩ := exists_of_forall₂ hretried.modules.flip hm
    have hawaits : m.AwaitsFor owner m' := (if_pos hmof).mp hawaits
    refine ⟨m', hm', ?_⟩
    rwa [Modules.isOf, hawaits.world, hawaits.key]
  · have hrows := hretried.jobs
    rw [hjobs] at hrows
    obtain ⟨r', rest, hrequeued, hrest, hjobs'⟩ := List.forall₂_cons_left_iff.1 hrows
    rw [List.forall₂_nil_left_iff.1 hrest] at hjobs'
    have hrequeued : r.Requeued r' := (if_pos hof).mp hrequeued
    refine ⟨r', hjobs', ?_, JobRow.hasStatus_iff.2 hrequeued.status,
      hrequeued.attempts.trans hattempts⟩
    rwa [Jobs.isOf, hrequeued.world, hrequeued.moduleKey]

end Database.Worn

/-! ## After a run -/

namespace System

/-- What a run leaves can be recovered. -/
theorem recoverable_run {e : Engine} (hmodules : e.registry.modules.length < twoPow 32)
    {events : List Event} (hclock : InEra e events) : (run e events).studio.db.Recoverable where
  keyed := (Sound.run e events).db.keyed
  rows := (legible_run hmodules hclock).readable
  fields := fieldsWritten e events
  starts r hr hrunning := by
    cases (staged e events r hr).stage hrunning with
    | running _ _ started _ => exact started

theorem sound_recoverStaleLeases (e : Engine) (events : List Event) (timeout : Span) :
    (recoverStaleLeases timeout (run e events).studio).2.db.Sound := by
  have h := ((Sound.run e events).step e (.command (.recoverStaleLeases timeout))).db
  rwa [studio_step_command rfl] at h

/-- A run leaves the one job of a module, which has a status and was leased so often. -/
structure WornBy (e : Engine) (id : WorldId) (key : String) (owner : OwnerId) (status : JobStatus)
    (n : Nat) (events : List Event) : Prop where
  era : InEra e events
  worn : (run e events).studio.db.Worn id key owner status n

namespace WornBy

variable {e : Engine} {id : WorldId} {key : String} {owner : OwnerId} {n : Nat}
  {events : List Event}

/-- One more event leaves the studio of which this is known. -/
theorem append_singleton {status status' : JobStatus} (h : WornBy e id key owner status n events)
    {ev : Event} {t : Studio} (ht : ((run e events).step e ev).studio = t) {k : Nat}
    (hclock : t.clock.InEra) (hworn : t.db.Worn id key owner status' k) :
    WornBy e id key owner status' k (events ++ [ev]) where
  era := inEra_append_singleton.2 ⟨h.era, by rwa [run_append, ht]⟩
  worn := by rwa [run_append, ht]

/-- The clock is set back. -/
theorem rewind {status : JobStatus} (h : WornBy e id key owner status n events) :
    WornBy e id key owner status n (events ++ [.setClock (.ofDay 0)]) :=
  h.append_singleton rfl (by decide : (Instant.ofDay 0).InEra) h.worn

/-- The job is leased. -/
theorem lease (h : WornBy e id key owner .waiting n events)
    (hmodules : e.registry.modules.length < twoPow 32) (hn : n + 1 < twoPow 32)
    (hclock : (run e events).studio.ticked.clock.InEra) :
    WornBy e id key owner .running (n + 1) (events ++ [.lease]) ∧
      (run e (events ++ [.lease])).studio.clock = (run e events).studio.ticked.clock ∧
      ∀ r ∈ (run e (events ++ [.lease])).studio.db.jobs,
        r.startedAt = .text (Rfc3339.stored (run e events).studio.clock) := by
  obtain ⟨job, t, htake, hticks, hworn, hstarted⟩ :=
    h.worn.lease (recoverable_run hmodules h.era) h.era.last hn
  have ht : ((run e events).step e .lease).studio = t := by
    show (run e events).lease.studio = t
    rw [System.lease, htake]
  rw [run_append, ht]
  exact ⟨h.append_singleton ht (hticks ▸ hclock) hworn, hticks, hstarted⟩

/-- The lease is recovered. -/
theorem recover (h : WornBy e id key owner .running n events)
    (hmodules : e.registry.modules.length < twoPow 32) {timeout : Span}
    (hreach : ((run e events).studio.clock.later (-timeout.toNanos)).isRepresentable = true)
    (hclock : (run e events).studio.ticked.clock.InEra)
    (hstale : ∀ r ∈ (run e events).studio.db.jobs,
      r.isStale ((run e events).studio.clock.later (-timeout.toNanos)) = true) :
    WornBy e id key owner .failed n (events ++ [.command (.recoverStaleLeases timeout)]) ∧
      (run e (events ++ [.command (.recoverStaleLeases timeout)])).studio.clock =
        (run e events).studio.ticked.clock := by
  obtain ⟨_, js, t, hrun, hleft, -⟩ := yields_recoverStaleLeases (recoverable_run hmodules h.era)
    h.era.last hreach (Int.lt_of_le_of_lt (Instant.day_later_neg_le _ _ (by decide)) hclock.2)
  have ht : ((run e events).step e (.command (.recoverStaleLeases timeout))).studio = t := by
    rw [studio_step_command rfl]
    exact congrArg Prod.snd hrun
  have hticks := clock_recoverStaleLeases hrun
  rw [run_append, ht]
  exact ⟨h.append_singleton ht (hticks ▸ hclock) (hleft ▸ h.worn.recovered hstale), hticks⟩

/-- The job is retried. -/
theorem retry (h : WornBy e id key owner .failed n events)
    (hmodules : e.registry.modules.length < twoPow 32) (hknown : key ∈ e.registry.keys)
    (hclock : (run e events).studio.ticked.clock.InEra) :
    WornBy e id key owner .waiting n (events ++ [.command (.retryModule id key owner)]) := by
  obtain ⟨j, t, hrun, hticks, hworn⟩ :=
    h.worn.retry (recoverable_run hmodules h.era) h.era.last hknown
  have ht : ((run e events).step e (.command (.retryModule id key owner))).studio = t := by
    rw [studio_step_command rfl]
    exact congrArg Prod.snd hrun
  exact h.append_singleton ht (hticks ▸ hclock) hworn

/-- A job that was leased as often as 32 bits count stands in the way of every call of the queue,
also after a recovery. -/
theorem stuck (h : WornBy e id key owner .waiting (twoPow 32 - 1) events)
    (hmodules : e.registry.modules.length < twoPow 32)
    (hticked : (run e events).studio.ticked.clock.InEra) {timeout : Span}
    (hreach : ((run e events).studio.clock.later (-timeout.toNanos)).isRepresentable = true) :
    ∃ js s', recoverStaleLeases timeout (run e events).studio = (.ok js, s') ∧
      (∀ r ∈ s'.db.jobs, r.hasStatus .running = false) ∧
      (∃ r ∈ s'.db.jobs, r.hasStatus .waiting = true ∧ s'.db.hasLive r.world = true) ∧
      ∃ message t, ∀ g : Generator (StateM Studio),
        e.processQueue g s' = (.storeUnavailable message, t) := by
  obtain ⟨js, s', hrecovers⟩ := recoversLeases e (recoverable_run hmodules h.era) h.era.last hticked
    hreach (sound_recoverStaleLeases e events timeout)
  have hleft : s'.db = (run e events).studio.db :=
    hrecovers.recovered.trans (Database.recovered_eq_self (h.worn.not_running (by decide)))
  have hworn : s'.db.Worn id key owner .waiting (twoPow 32 - 1) := hleft ▸ h.worn
  have hidle := hworn.not_running (by decide)
  obtain ⟨r, hjobs, -, -, hattempts⟩ := hworn.job
  have heligible : s'.db.eligible = [r] := hworn.eligible_eq.trans hjobs
  have hwaits := Database.mem_eligible.1 (heligible ▸ List.mem_singleton_self r)
  obtain ⟨row, rest, hcons, hserves⟩ := hrecovers.unblocked hidle ⟨r, hwaits⟩
  obtain rfl : r = row := (List.cons.inj (heligible.symm.trans hcons)).1
  obtain ⟨message, t, -, hfails⟩ := hserves.exhausted hattempts
  exact ⟨js, s', hrecovers.run, hidle, ⟨r, hwaits⟩, message, t, hfails⟩

end WornBy

end System

/-- The job of a module is leased, recovered and retried, from the same time on. -/
def wearing (id : WorldId) (key : String) (owner : OwnerId) : List Event :=
  [.setClock (.ofDay 0), .lease, .command (.recoverStaleLeases (.ofSeconds 0)),
    .command (.retryModule id key owner)]

namespace System

variable {e : Engine} {id : WorldId} {key : String} {owner : OwnerId} {n : Nat}
  {events : List Event}

/-- The job can be worn once more. -/
theorem WornBy.again (h : WornBy e id key owner .waiting n events)
    (hmodules : e.registry.modules.length < twoPow 32) (hknown : key ∈ e.registry.keys)
    (hn : n + 1 < twoPow 32) :
    WornBy e id key owner .waiting (n + 1) (events ++ wearing id key owner) := by
  -- The clock is read three times after it was set.
  let first : Instant := (Instant.ofDay 0).later clockTick
  let second : Instant := first.later clockTick
  let third : Instant := second.later clockTick
  have hera : first.InEra ∧ second.InEra ∧ third.InEra := by decide
  have hset : (run e (events ++ [.setClock (.ofDay 0)])).studio.clock = .ofDay 0 := by
    rw [run_append]
    rfl
  have hfirst : (run e (events ++ [.setClock (.ofDay 0)])).studio.ticked.clock = first := by
    rw [ticked, hset]
  obtain ⟨hleased, hclock, hstarted⟩ := h.rewind.lease hmodules hn (hfirst ▸ hera.1)
  rw [hset] at hstarted
  rw [hfirst] at hclock
  generalize hevents : events ++ [.setClock (.ofDay 0)] ++ [.lease] = leased at *
  have hsecond : (run e leased).studio.ticked.clock = second := by
    rw [ticked, hclock]
  have hstale : ∀ r ∈ (run e leased).studio.db.jobs,
      r.isStale ((run e leased).studio.clock.later (-(Span.ofSeconds 0).toNanos)) = true := by
    intro r hr
    obtain ⟨q, hjobs, -, hrunning, -⟩ := hleased.worn.job
    obtain rfl : r = q := List.mem_singleton.1 (hjobs ▸ hr)
    rw [JobRow.isStale, hrunning, hstarted r hr, Cell.time?,
      Rfc3339.parse?_stored (by decide : (Instant.ofDay 0).InEra), hclock]
    decide
  obtain ⟨hrecovered, hclock'⟩ := hleased.recover hmodules (by rw [hclock]; decide)
    (hsecond ▸ hera.2.1) hstale
  rw [hsecond] at hclock'
  have hthird : (run e (leased ++ [.command (.recoverStaleLeases (.ofSeconds 0))])).studio.ticked.clock
      = third := by
    rw [ticked, hclock']
  have hretried := hrecovered.retry hmodules hknown (hthird ▸ hera.2.2)
  rwa [← hevents, List.append_assoc, List.append_assoc, List.append_assoc] at hretried

end System

/-- The owner of the first world publishes it, and its job is worn so often. -/
def wearingFirst (n : Nat) : List Event :=
  [.createFirst, .publishFirst] ++
    (List.replicate n (wearing (.mint 0) "m" ⟨"owner"⟩)).flatten

namespace System

/-- A job can be worn as long as its attempts fit 32 bits. -/
theorem wornBy_wearingFirst {n : Nat} (hn : n < twoPow 32) :
    WornBy .minimal (.mint 0) "m" ⟨"owner"⟩ .waiting n (wearingFirst n) := by
  induction n with
  | zero =>
    have hjob : ∀ r ∈ (run .minimal (wearingFirst 0)).studio.db.jobs,
        Jobs.isOf (.mint 0) "m" r = true ∧ r.hasStatus .waiting = true ∧
          r.attempts = .int (0 : Nat) := by decide +kernel
    obtain ⟨r, hr⟩ : ∃ r, (run .minimal (wearingFirst 0)).studio.db.jobs = [r] :=
      List.length_eq_one_iff.1 (by decide +kernel)
    refine ⟨?_, ?_, by decide +kernel, r, hr, hjob r (by simp [hr])⟩
    · unfold InEra
      decide +kernel
    · unfold Database.OwnedBy
      decide +kernel
  | succ n ih =>
    rw [wearingFirst, List.replicate_succ', List.flatten_append, List.flatten_singleton,
      ← List.append_assoc]
    exact (ih (Nat.lt_of_succ_lt hn)).again (by decide) (by decide) hn

theorem inEra_leased : InEra .minimal [.createFirst, .publishFirst, .lease] := by
  unfold InEra
  decide +kernel

/-- After every run along which the clock stays in the years of four digits, also when it is read
once more, recovering with a timeout that the calendar reaches back to fails exactly the jobs that
have been leased for longer, and unblocks the queue. -/
theorem recovery_run {e : Engine} (hmodules : e.registry.modules.length < twoPow 32)
    {events : List Event} {timeout : Span} (hclock : InEra e events)
    (hticked : (run e events).studio.ticked.clock.InEra)
    (hreach : ((run e events).studio.clock.later (-timeout.toNanos)).isRepresentable = true) :
    ∃ js s', e.RecoversLeases timeout (run e events).studio js s' :=
  recoversLeases e (recoverable_run hmodules hclock) hclock.last hticked hreach
    (sound_recoverStaleLeases e events timeout)

/-- The one job of a minimal engine that was leased expires under a timeout of nothing. -/
theorem recovery_run_minimal :
    let events : List Event := [.createFirst, .publishFirst, .lease]
    InEra .minimal events ∧
      ((run .minimal events).studio.db.jobs.filter (·.isStale
        ((run .minimal events).studio.clock.later (-(Span.ofSeconds 0).toNanos)))).length = 1 ∧
      ∃ js s', Engine.minimal.RecoversLeases (.ofSeconds 0) (run .minimal events).studio js s' :=
  ⟨inEra_leased, by decide +kernel,
    recovery_run (by decide) inEra_leased (by decide +kernel) (by decide +kernel)⟩

/-- Two runs after which recovery does not do as much. While the clock is past the years of four
digits, a job that has been leased for thousands of years keeps running. And a job that was leased as
often as 32 bits count cannot be leased, though it waits, its world is live and no job runs. -/
theorem not_recovery_always :
    (let s := (run .minimal [.createFirst, .publishFirst, .lease,
        .setClock (.ofDay (Calendar.daysBeforeYear 10000))]).studio
      let cutoff := s.clock.later (-(Span.ofSeconds 0).toNanos)
      cutoff.isRepresentable = true ∧ s.db.jobs.any (·.isStale cutoff) = true ∧
        (recoverStaleLeases (.ofSeconds 0) s).2.db.jobs = s.db.jobs) ∧
    let events := wearingFirst (twoPow 32 - 1) ++ [.setClock (.ofDay 0)]
    let s := (run .minimal events).studio
    InEra .minimal events ∧
      (s.clock.later (-(Span.ofSeconds 0).toNanos)).isRepresentable = true ∧
      ∃ js s', recoverStaleLeases (.ofSeconds 0) s = (.ok js, s') ∧
        (∀ r ∈ s'.db.jobs, r.hasStatus .running = false) ∧
        (∃ r ∈ s'.db.jobs, r.hasStatus .waiting = true ∧ s'.db.hasLive r.world = true) ∧
        ∃ message t, ∀ g : Generator (StateM Studio),
          Engine.minimal.processQueue g s' = (.storeUnavailable message, t) := by
  refine ⟨by decide +kernel, ?_⟩
  have hlt : twoPow 32 - 1 < twoPow 32 := by decide
  generalize hn : twoPow 32 - 1 = n at hlt
  have hworn := (wornBy_wearingFirst hlt).rewind
  have hclock : (run .minimal (wearingFirst n ++ [.setClock (.ofDay 0)])).studio.clock =
      .ofDay 0 := by
    rw [run_append]
    rfl
  generalize wearingFirst n ++ [.setClock (.ofDay 0)] = events at *
  have hreach : ((run .minimal events).studio.clock.later
      (-(Span.ofSeconds 0).toNanos)).isRepresentable = true := by
    rw [hclock]
    decide
  have hticked : (run .minimal events).studio.ticked.clock.InEra := by
    rw [ticked, hclock]
    exact (by decide : ((Instant.ofDay 0).later clockTick).InEra)
  exact ⟨hworn.era, hreach, (hn ▸ hworn).stuck (by decide) hticked hreach⟩

end System

end Lorebook
