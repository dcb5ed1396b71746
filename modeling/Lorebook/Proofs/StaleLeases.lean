import Lorebook.Proofs.FieldRows
import Lorebook.Proofs.LeaseChoice
import Lorebook.Proofs.LifeCycle
import Lorebook.Proofs.Rounds
import Lorebook.Proofs.SingleLease
import Lorebook.Proofs.TimestampOrder

set_option autoImplicit false

/-! # Stale leases

Recovery selects running jobs by the text of the time at which they were leased. As the texts of
times are in the order of the times, these are the jobs that were leased before the cutoff, and each
is failed with its module: `Database.recovered` says what is left, and `Engine.recoversLeases` that
recovery leaves it, and that the queue goes on. -/

namespace Lorebook

open Studio Operation Engine

/-! ## What recovery is to leave -/

/-- The instant that a cell holds. -/
def Cell.time? : Cell → Option Instant
  | .text raw => Rfc3339.parse? raw
  | _ => none

/-- The job runs, and was leased before an instant. -/
def JobRow.isStale (cutoff : Instant) (r : JobRow) : Bool :=
  r.hasStatus .running && r.startedAt.time?.any (· < cutoff)

/-- A row whose lease expired. -/
def JobRow.expired (now : Instant) (r : JobRow) : JobRow :=
  { r with
    status := .text JobStatus.failed.text
    lastError := .text "lease expired"
    finishedAt := .text (Rfc3339.stored now)
    updatedAt := .text (Rfc3339.stored now) }

/-- The row of the module of a job. -/
def ModuleRow.isOfJob (job : JobRow) (m : ModuleRow) : Bool :=
  m.world = job.world && m.key = job.moduleKey

namespace Database

/-- The database once the leases of some jobs expired: these jobs and their modules have failed, and
all else stays. -/
def expiring (now : Instant) (expired : List JobRow) (db : Database) : Database :=
  { db with
    jobs := db.jobs.map fun r => if r ∈ expired then r.expired now else r
    modules := db.modules.map fun m =>
      if expired.any (m.isOfJob ·) then m.marking .failed now else m }

/-- The database once the leases that began before a cutoff expired. -/
def recovered (cutoff now : Instant) (db : Database) : Database :=
  db.expiring now (db.jobs.filter (·.isStale cutoff))

/-- The rows can be read, under distinct keys, as they are written. -/
structure Recoverable (db : Database) : Prop where
  keyed : db.Keyed
  rows : db.Readable
  fields : db.FieldsWritten
  starts : ∀ r ∈ db.jobs, r.hasStatus .running = true → r.startedAt.IsTime

end Database

/-! ## Rows whose lease expired -/

theorem JobRow.expired_not_running (now : Instant) (r : JobRow) :
    (r.expired now).hasStatus .running = false := by
  simp [hasStatus, expired, Cell.isText, JobStatus.text]

theorem JobRow.Reads.expired {r : JobRow} {j : Job} (h : r.Reads j) {now : Instant}
    (hnow : now.InEra) : ∃ j', (r.expired now).Reads j' :=
  ⟨_, h.failed leaseExpired hnow⟩

theorem ModuleRow.Reads.marking {r : ModuleRow} {m : WorldModule} (h : r.Reads m)
    (status : ModuleStatus) {now : Instant} (hnow : now.InEra) :
    (r.marking status now).Reads { m with status := status, updatedAt := now } where
  id := h.id
  world := h.world
  key := h.key
  fields := h.fields
  status := rfl
  hash := h.hash
  content := h.content
  lastEditor := h.lastEditor
  createdAt := h.createdAt
  updatedAt := Cell.holdsTime_stored hnow

namespace Database

variable {db : Database} {now : Instant}

/-- What holds of every row and of its expired form holds of the rows that are left. -/
theorem forall_jobs_expiring {P : JobRow → Prop} {expired : List JobRow}
    (h : ∀ r ∈ db.jobs, P r ∧ P (r.expired now)) : ∀ r ∈ (db.expiring now expired).jobs, P r := by
  intro r hr
  obtain ⟨q, hq, rfl⟩ := List.mem_map.1 hr
  split
  · exact (h q hq).2
  · exact (h q hq).1

theorem forall_modules_expiring {P : ModuleRow → Prop} {expired : List JobRow}
    (h : ∀ m ∈ db.modules, P m ∧ P (m.marking .failed now)) :
    ∀ m ∈ (db.expiring now expired).modules, P m := by
  intro m hm
  obtain ⟨q, hq, rfl⟩ := List.mem_map.1 hm
  split
  · exact (h q hq).2
  · exact (h q hq).1

/-- Rows keep what an expiry does not write. -/
theorem map_jobs_expiring {α : Type} {f : JobRow → α} (hf : ∀ r : JobRow, f (r.expired now) = f r)
    (expired : List JobRow) : (db.expiring now expired).jobs.map f = db.jobs.map f := by
  rw [expiring, List.map_map]
  refine List.map_congr_left fun r _ => ?_
  rw [Function.comp_apply]
  split
  · exact hf r
  · rfl

theorem map_modules_expiring {α : Type} {f : ModuleRow → α}
    (hf : ∀ m : ModuleRow, f (m.marking .failed now) = f m) (expired : List JobRow) :
    (db.expiring now expired).modules.map f = db.modules.map f := by
  rw [expiring, List.map_map]
  refine List.map_congr_left fun m _ => ?_
  rw [Function.comp_apply]
  split
  · exact hf m
  · rfl

theorem Recoverable.expiring (h : db.Recoverable) (hnow : now.InEra) (expired : List JobRow) :
    (db.expiring now expired).Recoverable where
  keyed :=
    { complete := h.keyed.complete
      worldIds := h.keyed.worldIds
      moduleKeys := by
        rw [map_modules_expiring fun _ => rfl]
        exact h.keyed.moduleKeys
      jobKeys := by
        rw [map_jobs_expiring fun _ => rfl]
        exact h.keyed.jobKeys
      jobIds := by
        rw [map_jobs_expiring fun _ => rfl]
        exact h.keyed.jobIds }
  rows :=
    { worlds := h.rows.worlds
      modules := forall_modules_expiring fun m hm => by
        obtain ⟨m', hm'⟩ := h.rows.modules m hm
        exact ⟨⟨m', hm'⟩, _,
          ModuleRow.decode_eq_ok.2 ((ModuleRow.decode_eq_ok.1 hm').marking .failed hnow)⟩
      jobs := forall_jobs_expiring fun r hr => by
        obtain ⟨j, hj⟩ := h.rows.jobs r hr
        obtain ⟨j', hj'⟩ := (JobRow.decode_eq_ok.1 hj).expired hnow
        exact ⟨⟨j, hj⟩, j', JobRow.decode_eq_ok.2 hj'⟩ }
  fields := forall_modules_expiring fun m hm => ⟨h.fields m hm, h.fields m hm⟩
  starts := forall_jobs_expiring fun r hr => ⟨h.starts r hr, fun hrunning => by
    rw [JobRow.expired_not_running] at hrunning
    cases hrunning⟩

theorem expiring_nil (db : Database) (now : Instant) : db.expiring now [] = db := by
  simp [expiring]

/-- Jobs may expire one after the other. -/
theorem expiring_cons {r : JobRow} {rest : List JobRow}
    (hrunning : ∀ q ∈ rest, q.hasStatus .running = true) :
    (db.expiring now [r]).expiring now rest = db.expiring now (r :: rest) := by
  have hjobs : ((db.expiring now [r]).expiring now rest).jobs =
      (db.expiring now (r :: rest)).jobs := by
    simp only [expiring, List.map_map]
    refine List.map_congr_left fun q _ => ?_
    rw [Function.comp_apply]
    by_cases hq : q = r
    · -- The row does not run any more, so it is none of the rest.
      have hnot : r.expired now ∉ rest := fun hmem => by
        have hfalse := hrunning _ hmem
        rw [JobRow.expired_not_running] at hfalse
        cases hfalse
      rw [hq, if_pos (List.mem_singleton_self r), if_neg hnot, if_pos List.mem_cons_self]
    · rw [if_neg (mt List.mem_singleton.1 hq)]
      simp only [List.mem_cons, hq, false_or]
  have hmodules : ((db.expiring now [r]).expiring now rest).modules =
      (db.expiring now (r :: rest)).modules := by
    simp only [expiring, List.map_map]
    refine List.map_congr_left fun m _ => ?_
    have hmark : (m.marking .failed now).marking .failed now = m.marking .failed now := rfl
    have hnames (q : JobRow) : (m.marking .failed now).isOfJob q = m.isOfJob q := rfl
    rw [Function.comp_apply, List.any_cons, List.any_cons, List.any_nil, Bool.or_false]
    cases hof : m.isOfJob r with
    | true =>
      simp only [if_true, hnames, hmark, Bool.true_or]
      split <;> rfl
    | false => simp only [Bool.false_eq_true, if_false, Bool.false_or]
  rw [Database.mk.injEq]
  exact ⟨rfl, hmodules, hjobs, rfl, rfl⟩

/-- Failing a running job for its lease and marking its module is its expiry. -/
theorem expiring_singleton (hids : (db.jobs.map (·.id)).Nodup) {r : JobRow} (hr : r ∈ db.jobs)
    (hrunning : r.hasStatus .running = true) {job : Job} (hjob : r.Holds job) :
    { (Write.fail job.id leaseExpired now).apply db with
      modules := db.modules.map fun m =>
        if Modules.isOf job.world job.moduleKey m then m.marking .failed now else m } =
      db.expiring now [r] := by
  have hjobs : db.jobs.map (Write.fail job.id leaseExpired now).onJob =
      (db.expiring now [r]).jobs := by
    refine List.map_congr_left fun q hq => ?_
    by_cases hsame : q = r
    · rw [hsame, if_pos (List.mem_singleton_self r)]
      exact if_pos (Bool.and_eq_true_iff.2 ⟨Cell.isText_iff.2 hjob.id, hrunning⟩)
    · rw [if_neg (mt List.mem_singleton.1 hsame)]
      refine if_neg fun hhit => hsame ?_
      rw [Bool.and_eq_true, Cell.isText_iff] at hhit
      exact eq_of_jobId hids hq hr (hhit.1.trans hjob.id.symm)
  have hmodules : (db.modules.map fun m =>
      if Modules.isOf job.world job.moduleKey m then m.marking .failed now else m) =
      (db.expiring now [r]).modules := by
    refine List.map_congr_left fun m _ => ?_
    rw [List.any_cons, List.any_nil, Bool.or_false, ModuleRow.isOfJob, hjob.world, hjob.moduleKey]
    rfl
  rw [Database.mk.injEq]
  exact ⟨rfl, hmodules, hjobs, rfl, rfl⟩

end Database

/-! ## Clocks that stand -/

/-- The clock stands. -/
def Studio.SameClock (s t : Studio) : Prop := t.clock = s.clock

instance : Chain Studio.SameClock where
  refl _ := rfl
  trans h h' := Eq.trans h' h

theorem Operation.sameClock_store {α : Type} (st : Statement α) :
    Respects SameClock (store st) := by
  intro s
  rw [store_run]
  rcases st s.db with ⟨r | r, db⟩ <;> rfl

theorem Engine.sameClock_markModule (job : Job) (status : ModuleStatus) (now : Instant) :
    Respects SameClock (markModule job status now) :=
  respects_bind (sameClock_store _) fun found => by
    cases found with
    | none => exact respects_pure ()
    | some m => exact sameClock_store _

theorem Engine.sameClock_expire (now : Instant) (job : Job) :
    Respects SameClock (expire now job) :=
  respects_bind (sameClock_store _) fun _ => respects_bind (sameClock_markModule _ _ _) fun _ =>
    respects_bind (fun _ => rfl) fun _ => sameClock_store _

/-! ## Running the recovery -/

namespace Engine

variable {s t : Studio} {now : Instant}

/-- The lease of a running job expires. -/
theorem yields_expire (hdb : s.db.Recoverable) (hnow : now.InEra) {r : JobRow} (hr : r ∈ s.db.jobs)
    (hrunning : r.hasStatus .running = true) {job : Job} (hjob : r.decode = .ok job) :
    ∃ j t, Yields (expire now job) s j t ∧ t.db = s.db.expiring now [r] ∧
      (r.expired now).decode = .ok j := by
  have hreads := JobRow.decode_eq_ok.1 hjob
  have hholds := hreads.toHolds
  -- The database between the two statements.
  let db₁ := (Write.fail job.id leaseExpired now).apply s.db
  have hmark : Yields (Jobs.markFailed job.id leaseExpired now) s.db () db₁ :=
    Jobs.yields_settling hdb.keyed.complete ⟨r, hr, hholds.id, hrunning⟩ _
  obtain ⟨t, hmodule⟩ := yields_markModule (s := s.withDb db₁) hdb.keyed.complete
    (hdb.rows.moduleReadable job) .failed now
  obtain ⟨ws, hmarks, hcommit⟩ := commit_markModule hmodule
  have hleft : t.db = s.db.expiring now [r] :=
    (hmarks.db_eq hdb.keyed.moduleKeys hdb.fields hcommit.journal).trans
      (Database.expiring_singleton hdb.keyed.jobIds hr hrunning hholds)
  have hexpired := hreads.failed leaseExpired hnow
  have hmem : r.expired now ∈ t.db.jobs := by
    rw [hleft]
    exact List.mem_map.2 ⟨r, hr, if_pos (List.mem_singleton_self r)⟩
  have hkeyed : t.db.Keyed := hleft ▸ (hdb.expiring hnow [r]).keyed
  have hrequire := Jobs.yields_require_of_nodup hkeyed.complete hkeyed.jobIds hmem
    (JobRow.decode_eq_ok.2 hexpired)
  exact ⟨_, _, Yields.bind (Yields.store s hmark) (Yields.bind hmodule
    (Yields.bind (yields_told _ t) (Yields.store (t.told _) hrequire))), hleft,
    JobRow.decode_eq_ok.2 hexpired⟩

/-- The leases of running jobs expire one after the other. -/
theorem yields_expireAll (hdb : s.db.Recoverable) (hnow : now.InEra) {rows : List JobRow}
    (hnodup : rows.Nodup) (hrows : ∀ r ∈ rows, r ∈ s.db.jobs ∧ r.hasStatus .running = true)
    {jobs : List Job} (hjobs : List.Forall₂ (fun r j => r.decode = .ok j) rows jobs) :
    ∃ js t, Yields (jobs.mapM (expire now)) s js t ∧ t.db = s.db.expiring now rows ∧
      List.Forall₂ (fun r j => (r.expired now).decode = .ok j) rows js := by
  induction hjobs generalizing s with
  | nil =>
    exact ⟨[], s, Yields.pure [] s, (Database.expiring_nil s.db now).symm, .nil⟩
  | @cons r job rest jobs hjob _ ih =>
    obtain ⟨hnew, hrest⟩ := List.nodup_cons.1 hnodup
    obtain ⟨hr, hrunning⟩ := hrows r List.mem_cons_self
    obtain ⟨j, t, hexpire, hleft, hj⟩ := yields_expire hdb hnow hr hrunning hjob
    -- The expiry leaves the rows of the rest.
    have hkept : ∀ q ∈ rest, q ∈ t.db.jobs ∧ q.hasStatus .running = true := fun q hq => by
      obtain ⟨hmem, hqrunning⟩ := hrows q (List.mem_cons_of_mem r hq)
      rw [hleft]
      refine ⟨List.mem_map.2 ⟨q, hmem, if_neg fun hsame => hnew ?_⟩, hqrunning⟩
      rwa [← List.mem_singleton.1 hsame]
    obtain ⟨js, u, hall, hleft', hjs⟩ := ih (hleft ▸ hdb.expiring hnow [r]) hrest hkept
    refine ⟨j :: js, u, ?_, ?_, .cons hj hjs⟩
    · rw [List.mapM_cons]
      exact Yields.bind hexpire (Yields.bind hall (Yields.pure (j :: js) u))
    · rw [hleft', hleft]
      exact Database.expiring_cons fun q hq => (hrows q (List.mem_cons_of_mem r hq)).2

end Engine

/-! ## Selecting stale leases -/

/-- The cell holds what is stored of an instant, in a year of four digits. -/
def Cell.Stores (c : Cell) (t : Instant) : Prop :=
  t.InEra ∧ c = .text (Rfc3339.stored t)

theorem Cell.before_text (s t : String) : (text s).before (.text t) = decide (s < t) := rfl

theorem Cell.Stores.time?_eq {c : Cell} {t : Instant} (h : c.Stores t) : c.time? = some t := by
  rw [h.2, time?, Rfc3339.parse?_stored h.1]

/-- The text of a cell comes before that of a cutoff exactly if its instant does. -/
theorem Cell.Stores.before_eq {c : Cell} {t cutoff : Instant} (h : c.Stores t)
    (hcutoff : cutoff.day < Calendar.daysBeforeYear 10000) :
    c.before (.text (Rfc3339.stored cutoff)) = c.time?.any (· < cutoff) := by
  rw [h.time?_eq, h.2, before_text]
  exact decide_eq_decide.2 (Rfc3339.stored_lt_stored_iff h.1 hcutoff)

namespace Jobs

/-- A job runs, and the text of its start comes before that of a cutoff. -/
def isSelected (cutoff : Instant) (r : JobRow) : Bool :=
  r.hasStatus .running &&
    (!r.startedAt.isNull && r.startedAt.before (.text (Rfc3339.stored cutoff)))

/-- The rows of the selected jobs, by the text of their starts. -/
def selected (cutoff : Instant) (db : Database) : List JobRow :=
  sortRows (·.startedAt) ((withStatus .running db.jobs).filter fun r =>
    !r.startedAt.isNull && r.startedAt.before (.text (Rfc3339.stored cutoff)))

theorem selected_perm (cutoff : Instant) (db : Database) :
    (selected cutoff db).Perm (db.jobs.filter (isSelected cutoff)) := by
  have hfilter : db.jobs.filter (isSelected cutoff) =
      (db.jobs.filter (·.hasStatus .running)).filter fun r =>
        !r.startedAt.isNull && r.startedAt.before (.text (Rfc3339.stored cutoff)) := by
    rw [List.filter_filter]
    exact List.filter_congr fun r _ => Bool.and_comm _ _
  rw [hfilter]
  exact (List.mergeSort_perm _ _).trans ((List.mergeSort_perm _ _).filter _)

/-- As texts, the times of leases are in the order of the times. -/
theorem isSelected_eq {cutoff : Instant} (hcutoff : cutoff.day < Calendar.daysBeforeYear 10000)
    {r : JobRow} (h : r.hasStatus .running = true →
      r.startedAt = .null ∨ ∃ t, r.startedAt.Stores t) :
    isSelected cutoff r = r.isStale cutoff := by
  cases hrunning : r.hasStatus .running with
  | false => simp [isSelected, JobRow.isStale, hrunning]
  | true =>
    rw [isSelected, JobRow.isStale]
    rcases h hrunning with hnull | ⟨t, ht⟩
    · rw [hnull]
      rfl
    · have hnull : r.startedAt.isNull = false := by
        rw [ht.2]
        rfl
      rw [hnull, ht.before_eq hcutoff]
      rfl

end Jobs

/-- The start of a running job is stored as it was written. -/
theorem Database.Recoverable.stores {db : Database} (h : db.Recoverable) {r : JobRow}
    (hr : r ∈ db.jobs) (hrunning : r.hasStatus .running = true) :
    ∃ t, r.startedAt.Stores t := by
  obtain ⟨t, ht⟩ := h.starts r hr hrunning
  obtain ⟨j, hj⟩ := h.rows.jobs r hr
  refine ⟨t, ?_, ht⟩
  have hstarted := (JobRow.decode_eq_ok.1 hj).startedAt
  rw [ht] at hstarted
  cases hj : j.startedAt with
  | none =>
    rw [hj] at hstarted
    cases hstarted
  | some u =>
    rw [hj] at hstarted
    obtain ⟨raw, hraw, hparse⟩ := hstarted
    exact Rfc3339.inEra_of_parse?_stored (Cell.text.inj hraw ▸ hparse)

/-- The jobs that are selected are those whose lease is stale. -/
theorem Jobs.yields_runningSinceBefore {db : Database} (hdb : db.Recoverable) {cutoff : Instant}
    (hcutoff : cutoff.day < Calendar.daysBeforeYear 10000) :
    ∃ rows js, Yields (runningSinceBefore cutoff) db js db ∧
      rows.Perm (db.jobs.filter (·.isStale cutoff)) ∧
      List.Forall₂ (fun r j => r.decode = .ok j) rows js := by
  have hperm : (selected cutoff db).Perm (db.jobs.filter (·.isStale cutoff)) := by
    have hsame : db.jobs.filter (isSelected cutoff) = db.jobs.filter (·.isStale cutoff) :=
      List.filter_congr fun r hr => isSelected_eq hcutoff fun hrunning =>
        .inr (hdb.stores hr hrunning)
    exact hsame ▸ selected_perm cutoff db
  have hrows : ∀ r ∈ selected cutoff db, ∃ j, r.decode = .ok j := fun r hr =>
    hdb.rows.jobs r (List.mem_filter.1 (hperm.mem_iff.1 hr)).1
  obtain ⟨js, hjs⟩ := Statement.yields_mapM_ofDecoded hrows db
  refine ⟨selected cutoff db, js, Yields.bind (Statement.yields_needs_complete
    hdb.keyed.complete _) (Yields.bind (Yields.get db) hjs), hperm, ?_⟩
  have hmap : List.Forall₂ (· = ·) ((selected cutoff db).map JobRow.decode) (js.map .ok) :=
    List.forall₂_eq_eq_eq ▸ Statement.decoded_of_mapM hjs
  rwa [List.forall₂_map_left_iff, List.forall₂_map_right_iff] at hmap

/-! ## How far back a cutoff can be -/

namespace Instant

variable {t : Instant}

/-- In years of four digits, the calendar reaches back to its first day. -/
theorem isRepresentable_later_neg (ht : t.InEra) (nanos : Nat) :
    (t.later (-nanos)).isRepresentable = true ↔
      (nanos : Int) ≤ (t.seconds - firstDay * 86400) * 1000000000 + t.nano := by
  obtain ⟨_, hend⟩ := ht
  have hnano := t.nano_lt
  have hsecond := t.second_lt
  unfold isRepresentable later ofSeconds seconds firstDay endDay
  unfold Calendar.daysBeforeYear at *
  simp only [Bool.and_eq_true, decide_eq_true_eq]
  omega

/-- Going back leads to no later day than going on, also within a leap second. -/
theorem day_later_neg_le (t : Instant) (m : Nat) {n : Int} (hn : 0 ≤ n) :
    (t.later (-m)).day ≤ (t.later n).day := by
  unfold later ofSeconds seconds
  simp only
  omega

/-- What the calendar reaches back to is a timeout that can be asked for. -/
theorem le_greatestLeaseTimeout (ht : t.InEra) {nanos : Nat}
    (h : (t.later (-nanos)).isRepresentable = true) : nanos ≤ greatestLeaseTimeout := by
  rw [isRepresentable_later_neg ht] at h
  obtain ⟨_, hend⟩ := ht
  have hnano := t.nano_lt
  have hsecond := t.second_lt
  have hgreatest : greatestLeaseTimeout = 9223372036854775807000000 := rfl
  rw [hgreatest]
  unfold firstDay seconds at h
  unfold Calendar.daysBeforeYear at *
  omega

end Instant

/-! ## Recovery -/

namespace Database

variable {db : Database} {cutoff now : Instant}

/-- What expires depends only on which jobs do. -/
theorem expiring_congr {rows rows' : List JobRow} (h : ∀ r, r ∈ rows ↔ r ∈ rows') :
    db.expiring now rows = db.expiring now rows' := by
  have hany (m : ModuleRow) : rows.any (m.isOfJob ·) = rows'.any (m.isOfJob ·) := by
    rw [Bool.eq_iff_iff, List.any_eq_true, List.any_eq_true]
    simp only [h]
  simp only [expiring, h, hany]

/-- While no job runs, recovery leaves the database. -/
theorem recovered_eq_self (h : ∀ r ∈ db.jobs, r.hasStatus .running = false) :
    db.recovered cutoff now = db := by
  have hnone : db.jobs.filter (·.isStale cutoff) = [] := List.filter_eq_nil_iff.2 fun r hr => by
    rw [JobRow.isStale, h r hr, Bool.false_and]
    exact Bool.false_ne_true
  rw [recovered, hnone, expiring_nil]

/-- No stale lease is left. -/
theorem not_isStale_recovered :
    ∀ r ∈ (db.recovered cutoff now).jobs, r.isStale cutoff = false := by
  intro r hr
  obtain ⟨q, hq, rfl⟩ := List.mem_map.1 hr
  split
  · rw [JobRow.isStale, JobRow.expired_not_running, Bool.false_and]
  · rename_i hkept
    exact Bool.eq_false_iff.2 fun hstale => hkept (List.mem_filter.2 ⟨hq, hstale⟩)

end Database

namespace Engine

variable {s s' : Studio}

/-- Recovery fails the jobs whose lease is stale, with their modules, and gives them. -/
theorem yields_recoverStaleLeases (hdb : s.db.Recoverable) (hclock : s.clock.InEra)
    {timeout : Span} (hreach : (s.clock.later (-timeout.toNanos)).isRepresentable = true)
    (hcutoff : (s.clock.later (-timeout.toNanos)).day < Calendar.daysBeforeYear 10000) :
    ∃ rows js s', Yields (recoverStaleLeases timeout) s js s' ∧
      s'.db = s.db.recovered (s.clock.later (-timeout.toNanos)) s.clock ∧
      rows.Perm (s.db.jobs.filter (·.isStale (s.clock.later (-timeout.toNanos)))) ∧
      List.Forall₂ (fun r j => (r.expired s.clock).decode = .ok j) rows js := by
  obtain ⟨rows, jobs, hselected, hperm, hjobs⟩ := Jobs.yields_runningSinceBefore hdb hcutoff
  have hnodup : rows.Nodup := hperm.nodup_iff.2 (hdb.keyed.jobIds.of_map.filter _)
  have hrunning : ∀ r ∈ rows, r ∈ s.db.jobs ∧ r.hasStatus .running = true := fun r hr => by
    obtain ⟨hmem, hstale⟩ := List.mem_filter.1 (hperm.mem_iff.1 hr)
    exact ⟨hmem, (Bool.and_eq_true_iff.1 hstale).1⟩
  obtain ⟨js, s', hexpire, hleft, hjs⟩ :=
    yields_expireAll (s := s.ticked) hdb hclock hnodup hrunning hjobs
  have hrun : Yields (recoverStaleLeases timeout) s js s' := by
    rw [recoverStaleLeases, if_neg (Nat.not_lt.2 (Instant.le_greatestLeaseTimeout hclock hreach))]
    refine Yields.atomically (Yields.bind (yields_clock s) ?_)
    simp only [hreach, if_true]
    exact Yields.bind (Yields.store s.ticked hselected) hexpire
  exact ⟨rows, js, s', hrun, hleft.trans (Database.expiring_congr fun r => hperm.mem_iff), hperm,
    hjs⟩

/-- Recovery reads the clock once. -/
theorem clock_recoverStaleLeases {timeout : Span} {js : List Job}
    (h : Yields (recoverStaleLeases timeout) s js s') : s'.clock = s.ticked.clock := by
  simp only [recoverStaleLeases, yields_bind, yields_ite, yields_throw, yields_atomically,
    yields_readClock, yields_store, and_false, false_or, or_false] at h
  obtain ⟨_, _, _, ⟨rfl, rfl⟩, _, stale, _, ⟨db, hstale, rfl⟩, hexpire⟩ := h
  have hclock : SameClock (s.ticked.withDb db) s' :=
    (respects_mapM (sameClock_expire s.clock) stale).of_yields hexpire
  exact hclock

/-! ## Leasing again -/

/-- The next call of the queue leases the job of a row, unless it was leased as often as a job can
be. -/
structure ServesNext (e : Engine) (s : Studio) (row : JobRow) : Prop where
  leases : row.attempts ≠ .int (twoPow 32 - 1) →
    ∃ job t, (takeJob : StateM Studio _) s = (.ok (some job), t) ∧ row.id = .text job.id.text ∧
      (∃ r ∈ t.db.jobs, r.id = row.id ∧ r.hasStatus .running = true) ∧
      ∀ g : Generator (StateM Studio), e.processQueue g s = e.runJob g job t
  exhausted : row.attempts = .int (twoPow 32 - 1) →
    ∃ message t, t.db = s.db ∧
      ∀ g : Generator (StateM Studio), e.processQueue g s = (.storeUnavailable message, t)

/-- A job that was leased as often as 32 bits count is not leased: one attempt more cannot be
read. -/
theorem fails_leaseNext_of_exhausted (hrows : s.db.Readable) (hclock : s.clock.InEra) {row : JobRow}
    (hnext : Jobs.nextRow? s.db = some row) (hattempts : row.attempts = .int (twoPow 32 - 1)) :
    ∃ cause t, Fails leaseNext s cause t := by
  rcases yields_or_fails leaseNext s with ⟨found, t, hlease⟩ | hfails
  swap
  · exact hfails
  simp only [leaseNext, yields_atomically, yields_bind, yields_readClock, yields_store] at hlease
  obtain ⟨_, _, ⟨rfl, rfl⟩, _, _, ⟨db, hlease, rfl⟩, _⟩ := hlease
  rcases Jobs.journal_leaseNext hlease with ⟨rfl, rfl⟩ | ⟨row', job, rfl, hjournal, hdecode⟩
  · rw [Database.nextRow?_of_leaseNext_none hrows hlease] at hnext
    cases hnext
  · have hallowed := (Journal.cons_iff.1 hjournal).1
    obtain rfl : row = row' := Option.some.inj (hnext.symm.trans hallowed.1)
    obtain ⟨n, hn, hlt⟩ := (Database.readable_leased_iff hrows hclock
      (Jobs.mem_of_nextRow? hnext).1).1 ⟨job, hdecode⟩
    have heq := Cell.int.inj (hattempts.symm.trans hn)
    omega

/-- While no job runs, it is the first eligible job that the queue takes. -/
theorem servesNext (e : Engine) (hdb : s.db.Sound) (hrows : s.db.Readable) (hclock : s.clock.InEra)
    (hidle : ∀ r ∈ s.db.jobs, r.hasStatus .running = false) {row : JobRow} {rest : List JobRow}
    (heligible : s.db.eligible = row :: rest) : e.ServesNext s row := by
  have hrow : row ∈ s.db.jobs := (Database.mem_eligible.1 (heligible ▸ List.mem_cons_self)).1
  have hnext : Jobs.nextRow? s.db = some row := by
    rw [Database.nextRow?_eq_head? hidle, heligible]
    rfl
  have hreadable := Database.readable_leased_iff hrows hclock hrow
  constructor
  · intro hattempts
    obtain ⟨n, hn, hlt⟩ := hdb.attempts row hrow
    have hfits : n + 1 < twoPow 32 := by
      have hne : n ≠ twoPow 32 - 1 := fun heq => hattempts (by rw [hn, heq]; rfl)
      omega
    have hread : s.Readable := ⟨hrows, fun row' hrow' => by
      obtain rfl : row = row' := Option.some.inj (hnext.symm.trans hrow')
      exact hreadable.2 ⟨n, hn, hfits⟩⟩
    obtain ⟨job, t, htake, htaken⟩ := takeJob_of_eligible hdb hread hidle heligible
    obtain ⟨r, hr, hid, hrunning⟩ := htaken.running hrow
    refine ⟨job, t, htake, htaken.names.1, ⟨r, hr, hid.trans htaken.names.1.symm, hrunning⟩,
      fun g => ?_⟩
    rw [processQueue, StateM.bind_run, htake]
  · intro hattempts
    obtain ⟨cause, t, hfails⟩ := fails_leaseNext_of_exhausted hrows hclock hnext hattempts
    refine ⟨cause.message,
      t.told ⟨.error, .queue, "failed to lease next job", [("error", .str cause.message)]⟩,
      (failsClean_leaseNext hfails).1, fun g => ?_⟩
    rw [processQueue, StateM.bind_run, takeJob_run,
      show leaseNext s = (.error cause, t) from hfails]
    rfl

/-- Recovery from a studio gave some jobs and left another studio: the jobs whose lease began before
the cutoff have failed with their modules, nothing else changed, and the queue goes on. -/
structure RecoversLeases (e : Engine) (timeout : Span) (s : Studio) (js : List Job) (s' : Studio) :
    Prop where
  run : recoverStaleLeases timeout s = (.ok js, s')
  recovered : s'.db = s.db.recovered (s.clock.later (-timeout.toNanos)) s.clock
  returned : ∃ rows : List JobRow,
    rows.Perm (s.db.jobs.filter (·.isStale (s.clock.later (-timeout.toNanos)))) ∧
      List.Forall₂ (fun r j => (r.expired s.clock).decode = .ok j) rows js
  settled : ∀ r ∈ s'.db.jobs, r.isStale (s.clock.later (-timeout.toNanos)) = false
  unblocked : (∀ r ∈ s'.db.jobs, r.hasStatus .running = false) →
    (∃ r ∈ s'.db.jobs, r.hasStatus .waiting = true ∧ s'.db.hasLive r.world = true) →
    ∃ row rest, s'.db.eligible = row :: rest ∧ e.ServesNext s' row

/-- Recovery is exact and unblocks the queue. -/
theorem recoversLeases (e : Engine) (hdb : s.db.Recoverable) (hclock : s.clock.InEra)
    (hticked : s.ticked.clock.InEra) {timeout : Span}
    (hreach : (s.clock.later (-timeout.toNanos)).isRepresentable = true)
    (hsound : (recoverStaleLeases timeout s).2.db.Sound) :
    ∃ js s', e.RecoversLeases timeout s js s' := by
  have hcutoff : (s.clock.later (-timeout.toNanos)).day < Calendar.daysBeforeYear 10000 :=
    Int.lt_of_le_of_lt (s.clock.day_later_neg_le _ (by decide)) hticked.2
  obtain ⟨rows, js, s', hrun, hleft, hperm, hjs⟩ :=
    yields_recoverStaleLeases hdb hclock hreach hcutoff
  have hs' : (recoverStaleLeases timeout s).2 = s' := congrArg Prod.snd hrun
  have hrows : s'.db.Readable := hleft ▸ (hdb.expiring hclock _).rows
  refine ⟨js, s', hrun, hleft, ⟨rows, hperm, hjs⟩, ?_, fun hidle ⟨r, hr, hwaiting, hlive⟩ => ?_⟩
  · rw [hleft]
    exact Database.not_isStale_recovered
  · have hmem : r ∈ s'.db.eligible := Database.mem_eligible.2 ⟨hr, hwaiting, hlive⟩
    obtain ⟨row, rest, heligible⟩ := List.exists_cons_of_ne_nil (List.ne_nil_of_mem hmem)
    have hera : s'.clock.InEra := (clock_recoverStaleLeases hrun) ▸ hticked
    exact ⟨row, rest, heligible, servesNext e (hs' ▸ hsound) hrows hera hidle heligible⟩

end Engine

end Lorebook
