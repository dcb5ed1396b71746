import Lorebook.Proofs.LeaseChoice
import Lorebook.Proofs.LifeCycle
import Lorebook.Proofs.WorldLife

set_option autoImplicit false

/-! # The order of first leases

Between two rebuilds of the queue of a world, its jobs are leased for the first time in the order of
their numbers, from 1 on and without a gap (`Engine.leaseOrder`). Jobs that were leased before may
come back into the queue by retries, ahead of others, but they keep their attempts; so the jobs that
were never leased are those from some number on, which is what `Database.LeasedUpTo` says and every
event keeps. The least of them that is next is the first of them, since all of them wait. -/

namespace Lorebook

open Studio Operation Engine

/-! ## Rebuilds and first leases -/

namespace System

/-- The world whose queue an event rebuilds, if it commits that: a publication that takes over not
every module, or jobs that are initialized by hand. -/
def rebuild? (e : Engine) (s : System) : Event → Option WorldId
  | .command (.publish world owner) =>
    match e.publish world owner s.studio with
    | (.ok p, _) => if p.activated then none else some world
    | (.error _, _) => none
  | .command (.initializeJobs world keys) =>
    match e.initializeJobs world keys s.studio with
    | (.ok _, _) => some world
    | (.error _, _) => none
  | _ => none

/-- The number of the job of a world that an event leases for the first time. -/
def firstLease? (world : WorldId) (s : System) : Event → Option Nat
  | .lease =>
    match leaseNext s.studio with
    | (.ok (some job), _) =>
      if job.world = world ∧ job.attempts = 1 then some job.sequence else none
    | _ => none
  | _ => none

variable {s : System} {e : Engine} {ev : Event} {world : WorldId}

/-- A rebuild puts new jobs in the place of those of its world. -/
theorem jobs_of_rebuild? (h : s.rebuild? e ev = some world) :
    ∃ js : List Job, (∀ j ∈ js, j.IsNew ∧ ∃ n, s.studio.minted ≤ n ∧ j.id = .mint n) ∧
      (s.step e ev).studio.db.jobs =
        (Write.clearQueue world).onJobs s.studio.db.jobs ++ js.map JobRow.ofJob := by
  unfold rebuild? at h
  split at h
  · rename_i id owner
    rw [studio_step_command rfl]
    split at h
    · rename_i p t hrun
      split at h
      · cases h
      · rename_i hactivated
        obtain rfl := Option.some.inj h
        obtain ⟨hqueue, hfresh, _, hjobs, _⟩ := (published_of_publish hrun).queued
          fun hnone => hactivated (List.isEmpty_iff.2 hnone)
        rw [hrun]
        exact ⟨p.jobs, fun j hj => ⟨hqueue.isNew j hj, hfresh j hj⟩, hjobs⟩
    · cases h
  · rename_i id keys
    rw [studio_step_command rfl]
    split at h
    · rename_i js t hrun
      obtain rfl := Option.some.inj h
      obtain ⟨_, hqueue, _, hcommit⟩ := commit_initializeJobs hrun
      have hjobs := Database.Consistent.jobs_of_addJobs (Journal.cons_iff.1 hcommit.journal).2
      rw [hrun]
      refine ⟨js, fun j hj => ⟨hqueue.isNew j hj, ?_⟩, hjobs⟩
      obtain ⟨n, hle, _, hid⟩ := hcommit.fresh j (List.mem_cons_of_mem _ (List.mem_map_of_mem hj))
      exact ⟨n, hle, hid⟩
    · cases h
  · cases h

/-- After a rebuild, the jobs of the world are new and were never leased. -/
theorem untried_of_rebuild? (hs : s.Sound) (h : s.rebuild? e ev = some world) :
    ∀ r' ∈ (s.step e ev).studio.db.queueOf world, r'.attempts = .int 0 ∧
      ∀ r ∈ s.studio.db.jobs, r'.id ≠ r.id := by
  obtain ⟨js, hnew, hjobs⟩ := jobs_of_rebuild? h
  intro r' hr'
  obtain ⟨hmem, hworld⟩ := List.mem_filter.1 hr'
  rw [hjobs] at hmem
  rcases List.mem_append.1 hmem with hkept | hadded
  · have hother := (List.mem_filter.1 hkept).2
    rw [hworld] at hother
    cases hother
  · obtain ⟨j, hj, rfl⟩ := List.mem_map.1 hadded
    obtain ⟨hisNew, n, hle, hid⟩ := hnew j hj
    refine ⟨by rw [hisNew]; rfl, fun r hr heq => ?_⟩
    obtain ⟨k, hlt, hname⟩ := hs.named r hr
    have hnk : n = k := JobId.mint_text_inj (by rw [← hname, ← heq, ← hid]; rfl)
    omega

/-- What an event puts in a queue is part of a rebuild. -/
theorem rebuild?_of_queued (hs : s.Sound) {r' : JobRow} (hr' : r' ∈ (s.step e ev).studio.db.jobs)
    (hqueued : r'.Queued s ev) :
    ∃ world, s.rebuild? e ev = some world ∧ r'.world = .text world.text := by
  obtain ⟨world, hrebuilds, hworld⟩ := hqueued.rebuilt
  refine ⟨world, ?_, hworld⟩
  -- The table of jobs was changed.
  have hchanged : (s.step e ev).studio.db.jobs ≠ s.studio.db.jobs := fun hsame =>
    hqueued.id_ne (hs.named r' (hsame ▸ hr')) rfl
  cases ev with
  | command c =>
    cases c with
    | publish id owner =>
      obtain rfl := Option.some.inj hrebuilds
      rw [studio_step_command rfl] at hchanged
      rcases hrun : e.publish id owner s.studio with ⟨cause | p, t⟩
      · rw [hrun, (failsClean_publish e id owner hrun).1] at hchanged
        exact absurd rfl hchanged
      · by_cases hnone : p.generate = []
        · obtain ⟨_, w, now, _, hdb⟩ := (published_of_publish hrun).activated hnone
          rw [hrun, hdb] at hchanged
          exact absurd rfl hchanged
        · have hactivated : ¬ p.activated = true := fun h => hnone (List.isEmpty_iff.1 h)
          simp only [rebuild?, hrun, if_neg hactivated]
    | initializeJobs id keys =>
      obtain rfl := Option.some.inj hrebuilds
      rw [studio_step_command rfl] at hchanged
      rcases hrun : e.initializeJobs id keys s.studio with ⟨cause | js, t⟩
      · rw [hrun, (failsClean_initializeJobs e id keys hrun).1] at hchanged
        exact absurd rfl hchanged
      · simp only [rebuild?, hrun]
    | _ => cases hrebuilds
  | _ => cases hrebuilds

end System

/-! ## Places stay -/

/-- The rows are of the same job, at the same place. -/
structure JobRow.SamePlace (r r' : JobRow) : Prop where
  id : r'.id = r.id
  world : r'.world = r.world
  sequence : r'.sequence = r.sequence

instance : Chain JobRow.SamePlace where
  refl _ := ⟨rfl, rfl, rfl⟩
  trans h h' := ⟨h'.id.trans h.id, h'.world.trans h.world, h'.sequence.trans h.sequence⟩

theorem JobChange.samePlace {w : Write} {r r' : JobRow} (h : JobChange w r r') :
    r.SamePlace r' := by
  obtain ⟨hid, hworld, _, hsequence⟩ := h.names_eq
  exact ⟨hid, hworld, hsequence⟩

theorem JobRow.placed_ofJob (j : Job) : (JobRow.ofJob j).Placed :=
  (holds_ofJob j).placed

namespace System

variable {s : System}

/-- A row after an event is at the place of that of the same job before it, or it was queued. -/
theorem Sound.place_step (h : s.Sound) (e : Engine) (ev : Event) :
    ∀ r' ∈ (s.step e ev).studio.db.jobs, (∃ r ∈ s.studio.db.jobs, r.SamePlace r') ∨
      ∃ j, (JobRow.ofJob j).Queued s ev ∧ (JobRow.ofJob j).SamePlace r' := by
  obtain ⟨opened, ws, heffect, hcommit, _⟩ := s.step_effect e ev
  intro r' hr'
  rcases hcommit.journal.origin (R := JobRow.SamePlace) h.db (fun w _ d hd hallowed r hr =>
    (Write.jobChange hallowed hd.jobIds hr).samePlace) r' hr' with hkept | ⟨j, hj, hnew, hsame⟩
  · exact Or.inl hkept
  · exact Or.inr ⟨j, JobRow.queued_of_addJob heffect hcommit hj hnew, hsame⟩

/-- As long as its row exists, a job keeps its number. -/
theorem Sound.sequence_step (h : s.Sound) (e : Engine) (ev : Event) {r r' : JobRow}
    (hr : r ∈ s.studio.db.jobs) (hr' : r' ∈ (s.step e ev).studio.db.jobs) (hid : r'.id = r.id) :
    r'.sequence = r.sequence := by
  rcases h.place_step e ev r' hr' with ⟨q, hq, hsame⟩ | ⟨j, hqueued, hsame⟩
  · rw [hsame.sequence, eq_of_jobId h.db.jobIds hr hq (hid.symm.trans hsame.id)]
  · exact absurd (hsame.id.symm.trans hid) (hqueued.id_ne (h.named r hr))

theorem placed_step (h : s.Sound) (e : Engine) (ev : Event)
    (hs : ∀ r ∈ s.studio.db.jobs, r.Placed) : ∀ r ∈ (s.step e ev).studio.db.jobs, r.Placed := by
  intro r' hr'
  obtain ⟨r, hplaced, hsame⟩ : ∃ r : JobRow, r.Placed ∧ r.SamePlace r' := by
    rcases h.place_step e ev r' hr' with ⟨r, hr, hsame⟩ | ⟨j, _, hsame⟩
    · exact ⟨r, hs r hr, hsame⟩
    · exact ⟨_, JobRow.placed_ofJob j, hsame⟩
  obtain ⟨world, n, hworld, hn⟩ := hplaced
  exact ⟨world, n, hsame.world.trans hworld, hsame.sequence.trans hn⟩

/-- In every run, the rows of jobs have their places. -/
theorem placed (e : Engine) (events : List Event) :
    ∀ r ∈ (run e events).studio.db.jobs, r.Placed :=
  Sound.induction_of (P := fun s => ∀ r ∈ s.studio.db.jobs, r.Placed) (fun r hr => by cases hr)
    fun _ ev _ h hs => placed_step h e ev hs

/-- What the order of first leases rests on. -/
structure Ordered (s : System) : Prop where
  sound : s.Sound
  staged : s.studio.db.Staged
  numbered : s.studio.db.Numbered
  sequenced : s.studio.db.Sequenced
  placed : ∀ r ∈ s.studio.db.jobs, r.Placed

theorem ordered_run (e : Engine) (events : List Event) : (run e events).Ordered :=
  ⟨.run e events, staged e events, numbered e events, sequenced e events, placed e events⟩

end System

/-! ## The first ones of a queue -/

/-- A number is that of a job in a numbered queue if it does not pass the length of the queue. -/
theorem JobRow.Numbered.exists_iff {rows : List JobRow} (h : JobRow.Numbered rows) {n : Nat} :
    (∃ r ∈ rows, r.sequence = .int n) ↔ 1 ≤ n ∧ n ≤ rows.length := by
  have hmem : Cell.int n ∈ rows.map (·.sequence) ↔ 1 ≤ n ∧ n ≤ rows.length := by
    rw [h, List.mem_map]
    simp only [List.mem_range'_1, Cell.int.injEq, Int.natCast_inj, exists_eq_right]
    omega
  rw [← hmem, List.mem_map]

theorem JobRow.Numbered.exists_number {rows : List JobRow} (h : JobRow.Numbered rows)
    {r : JobRow} (hr : r ∈ rows) : ∃ n : Nat, r.sequence = .int n := by
  have hmem := List.mem_map_of_mem (f := fun r : JobRow => r.sequence) hr
  rw [h, List.mem_map] at hmem
  obtain ⟨n, _, hn⟩ := hmem
  exact ⟨n, hn.symm⟩

/-- A staged job that was never leased waits. -/
theorem JobRow.Staged.waiting {r : JobRow} (h : r.Staged) (huntried : r.attempts = .int 0) :
    r.hasStatus .waiting = true := by
  have hnot (htried : r.Tried) : False := by
    obtain ⟨n, hn, hpos⟩ := htried
    have hzero : (n : Int) = 0 := Cell.int.inj (hn.symm.trans huntried)
    omega
  obtain ⟨status, hstatus, hstage⟩ := h
  cases hstage with
  | waiting _ _ _ => exact hstatus
  | running htried _ _ _ => exact (hnot htried).elim
  | succeeded htried _ _ _ => exact (hnot htried).elim
  | failed htried _ _ _ => exact (hnot htried).elim

namespace Database

variable {db db' : Database} {world : WorldId} {m : Nat} {row : JobRow}

theorem mem_queueOf {r : JobRow} :
    r ∈ db.queueOf world ↔ r ∈ db.jobs ∧ r.world = .text world.text := by
  rw [queueOf, List.mem_filter, Cell.isText_iff]

/-- The jobs of a world that were leased at least once are the first ones of its queue. -/
def LeasedUpTo (db : Database) (world : WorldId) (m : Nat) : Prop :=
  ∀ r ∈ db.queueOf world, ∀ n : Nat, r.sequence = .int n → (r.attempts = .int 0 ↔ m < n)

theorem LeasedUpTo.of_jobs_eq (h : db.LeasedUpTo world m) (hjobs : db'.jobs = db.jobs) :
    db'.LeasedUpTo world m := by
  rw [LeasedUpTo, queueOf, hjobs]
  exact h

/-- If the next row is that of a job of the world that was never leased, it is the first of
these. -/
theorem LeasedUpTo.sequence_of_isNext (h : db.LeasedUpTo world m) (hstaged : db.Staged)
    (hnumbered : db.Numbered) (hnext : db.IsNext row) (hworld : row.world = .text world.text)
    (huntried : row.attempts = .int 0) : row.sequence = .int (m + 1 : Nat) := by
  have hrow : row ∈ db.queueOf world := mem_queueOf.2 ⟨hnext.stored, hworld⟩
  obtain ⟨n, hn⟩ := (hnumbered world).exists_number hrow
  have hlt : m < n := (h row hrow n hn).1 huntried
  have hle : n ≤ (db.queueOf world).length := ((hnumbered world).exists_iff.1 ⟨row, hrow, hn⟩).2
  by_contra hne
  have hgap : m + 1 < n := by
    refine Nat.lt_of_le_of_ne hlt fun heq => hne ?_
    rw [hn, heq]
  -- Otherwise the first of them waits too, and comes before.
  obtain ⟨r, hr, hfirst⟩ := (hnumbered world).exists_iff.2
    (⟨Nat.le_add_left 1 m, by omega⟩ : 1 ≤ m + 1 ∧ m + 1 ≤ (db.queueOf world).length)
  obtain ⟨hstored, hrworld⟩ := mem_queueOf.1 hr
  have hwaiting : r.hasStatus .waiting = true :=
    (hstaged r hstored).waiting ((h r hr (m + 1) hfirst).2 (Nat.lt_succ_self m))
  have hlive : db.hasLive r.world = true := by
    rw [hrworld, ← hworld]
    exact hnext.live
  obtain ⟨v, w, i, k, hv, hw, hi, hk, hbefore⟩ :=
    hnext.least r hstored hwaiting hlive fun heq => hne (heq ▸ hfirst)
  rw [hworld, Cell.text.injEq] at hv
  rw [hrworld, Cell.text.injEq] at hw
  rw [hn, Cell.int.injEq] at hi
  rw [hfirst, Cell.int.injEq] at hk
  rcases hbefore with hbytes | ⟨_, hless⟩
  · exact List.lt_irrefl _ (hv ▸ hw ▸ hbytes)
  · omega

/-- The rows after one was leased: that one, and the others as they were. -/
theorem mem_withLeased {now : Instant} {r' : JobRow} (hrow : row ∈ db.jobs) :
    r' ∈ (db.withLeased now row).jobs ↔
      r' = Jobs.leased (.text (Rfc3339.stored now)) row ∨ r' ∈ db.jobs ∧ r' ≠ row := by
  rw [withLeased, List.mem_map]
  constructor
  · rintro ⟨r, hr, rfl⟩
    by_cases hsame : r = row
    · exact Or.inl (if_pos hsame)
    · rw [if_neg hsame]
      exact Or.inr ⟨hr, hsame⟩
  · rintro (rfl | ⟨hr, hne⟩)
    · exact ⟨row, hrow, if_pos rfl⟩
    · exact ⟨r', hr, if_neg hne⟩

/-- The lease of a job that was leased before, or of another world, leases none of the world for
the first time. -/
theorem LeasedUpTo.withLeased (h : db.LeasedUpTo world m) (hrow : row ∈ db.jobs) {n : Nat}
    (hn : row.attempts = .int n) (hlt : n < twoPow 32) (now : Instant)
    (htried : row.world = .text world.text → n ≠ 0) :
    (db.withLeased now row).LeasedUpTo world m := by
  intro r' hr' k hk
  obtain ⟨hmem, hworld⟩ := mem_queueOf.1 hr'
  rcases (mem_withLeased hrow).1 hmem with rfl | ⟨hmem, _⟩
  · rw [← h row (mem_queueOf.2 ⟨hrow, hworld⟩) k hk, Jobs.attempts_leased hn hlt, hn]
    have hne := htried hworld
    simp only [Cell.int.injEq]
    omega
  · exact h r' (mem_queueOf.2 ⟨hmem, hworld⟩) k hk

/-- The lease of the first job of the world that was never leased adds it to those that were. -/
theorem LeasedUpTo.withLeased_succ (h : db.LeasedUpTo world m) (hsequenced : db.Sequenced)
    (hrow : row ∈ db.jobs) (hworld : row.world = .text world.text)
    (huntried : row.attempts = .int 0) (hsequence : row.sequence = .int (m + 1 : Nat))
    (now : Instant) : (db.withLeased now row).LeasedUpTo world (m + 1) := by
  intro r' hr' k hk
  obtain ⟨hmem, hrworld⟩ := mem_queueOf.1 hr'
  rcases (mem_withLeased hrow).1 hmem with rfl | ⟨hmem, hne⟩
  · obtain rfl : k = m + 1 := Int.ofNat.inj (Cell.int.inj (hk.symm.trans hsequence))
    rw [Jobs.attempts_leased huntried (by decide : 0 < twoPow 32)]
    simp
  · have hother : k ≠ m + 1 := fun heq => hne
      (List.inj_on_of_nodup_map hsequenced hmem hrow
        (by rw [hrworld, hworld, hk, hsequence, heq]))
    rw [h r' (mem_queueOf.2 ⟨hmem, hrworld⟩) k hk]
    omega

end Database

/-! ## Events -/

/-- Only a lease counts attempts. -/
theorem JobRow.Moves.attempts_eq {r r' : JobRow} {ev : Event} (h : r.Moves r' ev)
    (hlease : ev ≠ .lease) : r'.attempts = r.attempts := by
  cases h with
  | stays _ _ attempts => exact attempts
  | leased _ _ _ _ => exact absurd rfl hlease
  | settled _ _ _ attempts => exact attempts
  | retried _ _ _ _ attempts => exact attempts

namespace System

variable {s : System} {e : Engine} {ev : Event} {world : WorldId} {m : Nat}

theorem firstLease?_of_ne (hlease : ev ≠ .lease) : s.firstLease? world ev = none := by
  cases ev <;> first | rfl | exact absurd rfl hlease

/-- A lease takes the next row and changes no other, or it leaves the database. -/
theorem lease_cases (h : s.Ordered) (e : Engine) :
    ((s.step e .lease).studio.db = s.studio.db ∧ ∀ world, s.firstLease? world .lease = none) ∨
      ∃ row now job, s.studio.db.IsNext row ∧
        (Jobs.leased (.text (Rfc3339.stored now)) row).decode = .ok job ∧
        (s.step e .lease).studio.db.jobs = (s.studio.db.withLeased now row).jobs ∧
        ∀ world, s.firstLease? world .lease =
          if job.world = world ∧ job.attempts = 1 then some job.sequence else none := by
  show (s.lease.studio.db = _ ∧ _) ∨ ∃ row now job, _ ∧ _ ∧ s.lease.studio.db.jobs = _ ∧ _
  simp only [lease, takeJob_run, firstLease?]
  rcases hrun : leaseNext s.studio with ⟨cause | _ | job, t⟩
  · exact Or.inl ⟨(failsClean_leaseNext hrun).1, fun _ => rfl⟩
  · rcases commit_leaseNext hrun with ⟨_, hsame⟩ | ⟨_, _, _, _, hjob, _⟩
    · exact Or.inl ⟨hsame.1, fun _ => rfl⟩
    · cases hjob
  · rcases commit_leaseNext hrun with ⟨hnone, _⟩ | ⟨_, row, now, ws, hjob, hdecode, hmarks, hcommit⟩
    · cases hnone
    · obtain rfl := Option.some.inj hjob
      obtain ⟨⟨hrow, _⟩, hrest⟩ := Journal.cons_iff.1 hcommit.journal
      have hnext := ((Database.nextRow?_eq_some_iff h.sound.db.jobIds h.sequenced h.placed).1
        hrow).2
      refine Or.inr ⟨row, now, job, hnext, hdecode, ?_, fun _ => rfl⟩
      show t.db.jobs = _
      rw [hrest.jobs_eq hmarks.onJobs_eq,
        Database.apply_lease h.sound.db.jobIds hnext.stored]

/-- What the row of a leased job says of the job. -/
theorem names_of_leased {row : JobRow} {now : Instant} {job : Job} {n : Nat}
    (hdecode : (Jobs.leased (.text (Rfc3339.stored now)) row).decode = .ok job)
    (hn : row.attempts = .int n) (hlt : n < twoPow 32) :
    row.world = .text job.world.text ∧ row.sequence = .int job.sequence ∧
      job.attempts = n + 1 :=
  ⟨(JobRow.holds_of_decode hdecode).world, (JobRow.holds_of_decode hdecode).sequence,
    attempts_of_leased hn hlt hdecode⟩

/-- What is no lease and no rebuild of the world leaves the attempts and the numbers of its
jobs. -/
theorem leasedUpTo_kept (h : s.Ordered) (hlease : ev ≠ .lease)
    (hrebuild : s.rebuild? e ev ≠ some world) (hs : s.studio.db.LeasedUpTo world m) :
    (s.step e ev).studio.db.LeasedUpTo world m := by
  intro r' hr' n hn
  obtain ⟨hmem, hworld⟩ := Database.mem_queueOf.1 hr'
  rcases h.sound.row_step h.staged e ev r' hmem with ⟨r, hr, hsame, hmoves⟩ | hqueued
  · rw [hmoves.attempts_eq hlease]
    exact hs r (Database.mem_queueOf.2 ⟨hr, hsame.world.symm.trans hworld⟩) n
      ((h.sound.sequence_step e ev hr hmem hsame.id).symm.trans hn)
  · obtain ⟨v, hv, hrworld⟩ := rebuild?_of_queued h.sound hmem hqueued
    rw [hworld, Cell.text.injEq] at hrworld
    exact absurd (WorldId.eq_of_text hrworld ▸ hv) hrebuild

/-- An event that rebuilds no queue of the world leases none of its jobs for the first time, or the
first of those that were never leased. -/
theorem leasedUpTo_step (h : s.Ordered) (hrebuild : s.rebuild? e ev ≠ some world)
    (hs : s.studio.db.LeasedUpTo world m) :
    (s.firstLease? world ev = none ∧ (s.step e ev).studio.db.LeasedUpTo world m) ∨
      (s.firstLease? world ev = some (m + 1) ∧
        (s.step e ev).studio.db.LeasedUpTo world (m + 1)) := by
  by_cases hlease : ev = .lease
  · subst hlease
    rcases lease_cases h e with ⟨hdb, hnone⟩ | ⟨row, now, job, hnext, hdecode, hjobs, hfirst⟩
    · rw [hdb]
      exact Or.inl ⟨hnone world, hs⟩
    · obtain ⟨n, hn, hlt⟩ := h.sound.db.attempts row hnext.stored
      obtain ⟨hworld, hsequence, hattempts⟩ := names_of_leased hdecode hn hlt
      rw [hfirst world, hattempts]
      by_cases hnew : job.world = world ∧ n = 0
      · obtain ⟨rfl, rfl⟩ := hnew
        have hnumber := hs.sequence_of_isNext h.staged h.numbered hnext hworld hn
        have hjob : job.sequence = m + 1 :=
          Int.ofNat.inj (Cell.int.inj (hsequence.symm.trans hnumber))
        refine Or.inr ⟨by rw [if_pos ⟨rfl, rfl⟩, hjob], ?_⟩
        exact (hs.withLeased_succ h.sequenced hnext.stored hworld hn hnumber now).of_jobs_eq hjobs
      · refine Or.inl ⟨if_neg fun hfirst => hnew ⟨hfirst.1, by omega⟩, ?_⟩
        refine (hs.withLeased hnext.stored hn hlt now fun hsame hzero => ?_).of_jobs_eq hjobs
        rw [hworld, Cell.text.injEq] at hsame
        exact hnew ⟨WorldId.eq_of_text hsame, hzero⟩
  · exact Or.inl ⟨firstLease?_of_ne hlease, leasedUpTo_kept h hlease hrebuild hs⟩

/-- The first leases of the jobs of a world since so many of them were leased, while its queue is
not rebuilt. -/
theorem firstLeases_foldl (e : Engine) {before : List Event}
    (hbefore : (run e before).studio.db.LeasedUpTo world 0) (during : List Event)
    (hkept : world ∉ (run e before).notes (rebuild? e) e during) :
    ∃ m, (run e before).notes (firstLease? world) e during = List.range' 1 m ∧
      (run e (before ++ during)).studio.db.LeasedUpTo world m := by
  induction during using List.reverseRecOn with
  | nil =>
    refine ⟨0, rfl, ?_⟩
    rw [List.append_nil]
    exact hbefore
  | append_singleton during ev ih =>
    rw [notes_append, List.mem_append, not_or] at hkept
    obtain ⟨m, hnotes, hleased⟩ := ih hkept.1
    have hstate : during.foldl (step e) (run e before) = run e (before ++ during) := by
      rw [run, run, List.foldl_append]
    have hrebuild : (run e (before ++ during)).rebuild? e ev ≠ some world := by
      intro heq
      refine hkept.2 ?_
      rw [hstate, notes, heq]
      exact List.mem_cons_self
    rw [notes_append, hnotes, hstate, notes, notes, List.append_nil, ← List.append_assoc,
      run_append]
    rcases leasedUpTo_step (ordered_run e _) hrebuild hleased with ⟨hnone, hafter⟩ | ⟨hsome, hafter⟩
    · refine ⟨m, ?_, hafter⟩
      rw [hnone]
      exact List.append_nil _
    · refine ⟨m + 1, ?_, hafter⟩
      rw [hsome, List.range'_concat]
      simp [Nat.add_comm]

/-- After a rebuild no job of the world was leased. -/
theorem leasedUpTo_of_rebuild? (h : s.Sound) (hnumbered : (s.step e ev).studio.db.Numbered)
    (hrebuild : s.rebuild? e ev = some world) : (s.step e ev).studio.db.LeasedUpTo world 0 := by
  intro r hr n hn
  have hpos := ((hnumbered world).exists_iff.1 ⟨r, hr, hn⟩).1
  exact iff_of_true (untried_of_rebuild? h hrebuild r hr).1 hpos

/-- The attempts of a row go from 0 to 1 in its first lease. -/
theorem attempts_of_firstLease? (h : s.Ordered) (e : Engine) {n : Nat}
    (hfirst : s.firstLease? world ev = some n) :
    ∃ r ∈ s.studio.db.queueOf world, ∃ r' ∈ (s.step e ev).studio.db.queueOf world,
      r'.id = r.id ∧ r.sequence = .int n ∧ r.attempts = .int 0 ∧ r'.attempts = .int 1 := by
  by_cases hlease : ev = .lease
  · subst hlease
    rcases lease_cases h e with ⟨_, hnone⟩ | ⟨row, now, job, hnext, hdecode, hjobs, hnumber⟩
    · rw [hnone] at hfirst
      cases hfirst
    · obtain ⟨k, hk, hlt⟩ := h.sound.db.attempts row hnext.stored
      obtain ⟨hworld, hsequence, hattempts⟩ := names_of_leased hdecode hk hlt
      rw [hnumber world] at hfirst
      split at hfirst
      · rename_i hnew
        obtain ⟨rfl, hone⟩ := hnew
        obtain rfl : k = 0 := by omega
        refine ⟨row, Database.mem_queueOf.2 ⟨hnext.stored, hworld⟩,
          Jobs.leased (.text (Rfc3339.stored now)) row, Database.mem_queueOf.2 ⟨?_, hworld⟩, rfl,
          ?_, hk, Jobs.attempts_leased hk hlt⟩
        · rw [hjobs]
          exact (Database.mem_withLeased hnext.stored).2 (Or.inl rfl)
        · rw [hsequence, Option.some.inj hfirst]
      · cases hfirst
  · rw [firstLease?_of_ne hlease] at hfirst
    cases hfirst

/-- A row whose attempts go from 0 to 1 is leased for the first time. -/
theorem firstLease?_of_attempts (h : s.Ordered) (e : Engine) {r r' : JobRow}
    (hr : r ∈ s.studio.db.queueOf world) (hr' : r' ∈ (s.step e ev).studio.db.queueOf world)
    (hid : r'.id = r.id) {n : Nat} (hn : r.sequence = .int n) (huntried : r.attempts = .int 0)
    (htried : r'.attempts = .int 1) : s.firstLease? world ev = some n := by
  have hchanged : r'.attempts ≠ r.attempts := by
    rw [huntried, htried]
    decide
  obtain ⟨hstored, hrworld⟩ := Database.mem_queueOf.1 hr
  have hmem := (Database.mem_queueOf.1 hr').1
  by_cases hlease : ev = .lease
  · subst hlease
    rcases lease_cases h e with ⟨hdb, _⟩ | ⟨row, now, job, hnext, hdecode, hjobs, hnumber⟩
    · rw [hdb] at hmem
      exact absurd (congrArg _ (eq_of_jobId h.sound.db.jobIds hmem hstored hid)) hchanged
    · rw [hjobs] at hmem
      rcases (Database.mem_withLeased hnext.stored).1 hmem with rfl | ⟨hkept, _⟩
      · obtain rfl := eq_of_jobId h.sound.db.jobIds hnext.stored hstored hid
        obtain ⟨hworld, hsequence, hattempts⟩ :=
          names_of_leased hdecode huntried (by decide : 0 < twoPow 32)
        have hjob : job.world = world :=
          WorldId.eq_of_text (Cell.text.inj (hworld.symm.trans hrworld))
        rw [hnumber world, if_pos ⟨hjob, hattempts⟩,
          Int.ofNat.inj (Cell.int.inj (hsequence.symm.trans hn))]
      · exact absurd (congrArg _ (eq_of_jobId h.sound.db.jobIds hkept hstored hid)) hchanged
  · have hmoves := (h.sound.moves_step h.staged e ev hstored hmem hid).2
    exact absurd (hmoves.attempts_eq hlease) hchanged

/-- A world whose queue was not built yet has no jobs, and none of it is leased. -/
theorem firstLeases_unbuilt (e : Engine) (events : List Event)
    (hkept : world ∉ initial.notes (rebuild? e) e events) :
    initial.notes (firstLease? world) e events = [] ∧
      (run e events).studio.db.queueOf world = [] := by
  induction events using List.reverseRecOn with
  | nil => exact ⟨rfl, rfl⟩
  | append_singleton events ev ih =>
    rw [notes_append, List.mem_append, not_or] at hkept
    obtain ⟨hnotes, hempty⟩ := ih hkept.1
    have hordered := ordered_run e events
    have hnone : (run e events).firstLease? world ev = none := by
      rw [Option.eq_none_iff_forall_ne_some]
      intro n hsome
      obtain ⟨r, hr, _⟩ := attempts_of_firstLease? hordered e hsome
      rw [hempty] at hr
      cases hr
    refine ⟨?_, ?_⟩
    · rw [notes_append, hnotes, notes, notes, List.append_nil]
      show ((run e events).firstLease? world ev).toList = []
      rw [hnone]
      rfl
    · rw [run_append, List.eq_nil_iff_forall_not_mem]
      intro r' hr'
      obtain ⟨hmem, hworld⟩ := Database.mem_queueOf.1 hr'
      rcases hordered.sound.row_step hordered.staged e ev r' hmem with ⟨r, hr, hsame, _⟩ | hqueued
      · have hr : r ∈ (run e events).studio.db.queueOf world :=
          Database.mem_queueOf.2 ⟨hr, hsame.world.symm.trans hworld⟩
        rw [hempty] at hr
        cases hr
      · obtain ⟨v, hv, hrworld⟩ := rebuild?_of_queued hordered.sound hmem hqueued
        rw [hworld, Cell.text.injEq] at hrworld
        refine hkept.2 ?_
        show world ∈ ((run e events).rebuild? e ev).toList ++ []
        rw [hv, WorldId.eq_of_text hrworld]
        exact List.mem_cons_self

end System

/-! ## Runs -/

/-- The order in which the jobs of a world are leased in the runs of an engine. -/
structure Engine.LeaseOrder (e : Engine) : Prop where
  /-- A lease takes the least of the waiting jobs of live worlds. -/
  next : ∀ (db : Database) (now : Instant), db.Keyed → db.Readable → db.Sequenced →
    db.LeasesNext now
  /-- From a rebuild of the queue of a world on, as long as it is not rebuilt again, its jobs are
  leased for the first time in the order of their numbers, from 1 on and without a gap. -/
  ascending : ∀ before ev during world, (System.run e before).rebuild? e ev = some world →
    world ∉ (System.run e (before ++ [ev])).notes (System.rebuild? e) e during →
    ∃ m, (System.run e (before ++ [ev])).notes (System.firstLease? world) e during =
      List.range' 1 m
  /-- Before the first rebuild, none is. -/
  unbuilt : ∀ events world, world ∉ System.initial.notes (System.rebuild? e) e events →
    System.initial.notes (System.firstLease? world) e events = []
  /-- The first leases are those that count attempts from 0 to 1. -/
  counted : ∀ events ev world n, (System.run e events).firstLease? world ev = some n ↔
    ∃ r ∈ (System.run e events).studio.db.queueOf world,
      ∃ r' ∈ ((System.run e events).step e ev).studio.db.queueOf world,
        r'.id = r.id ∧ r.sequence = .int n ∧ r.attempts = .int 0 ∧ r'.attempts = .int 1
  /-- A rebuild leaves none but new jobs in the queue. -/
  rebuilt : ∀ events ev world, (System.run e events).rebuild? e ev = some world →
    ∀ r' ∈ ((System.run e events).step e ev).studio.db.queueOf world,
      r'.attempts = .int 0 ∧ ∀ r ∈ (System.run e events).studio.db.jobs, r'.id ≠ r.id
  /-- Jobs come into a queue by a rebuild only. -/
  queued : ∀ events ev, ∀ r' ∈ ((System.run e events).step e ev).studio.db.jobs,
    (∀ r ∈ (System.run e events).studio.db.jobs, r'.id ≠ r.id) →
      ∃ world, (System.run e events).rebuild? e ev = some world ∧ r'.world = .text world.text

/-- Whatever happens in whatever order, a lease takes the least waiting job, and jobs of a queue are
leased for the first time in the order of their numbers. -/
theorem Engine.leaseOrder (e : Engine) : e.LeaseOrder where
  next _ now hkeyed hrows hsequenced := Database.leasesNext hkeyed hrows hsequenced now
  ascending before ev during world hrebuild hkept := by
    have hfresh : (System.run e (before ++ [ev])).studio.db.LeasedUpTo world 0 := by
      have hnumbered := System.numbered e (before ++ [ev])
      rw [System.run_append] at hnumbered ⊢
      exact System.leasedUpTo_of_rebuild? (.run e before) hnumbered hrebuild
    obtain ⟨m, hnotes, _⟩ := System.firstLeases_foldl e hfresh during hkept
    exact ⟨m, hnotes⟩
  unbuilt events _ hkept := (System.firstLeases_unbuilt e events hkept).1
  counted events _ _ _ := by
    have hordered := System.ordered_run e events
    constructor
    · exact System.attempts_of_firstLease? hordered e
    · rintro ⟨r, hr, r', hr', hid, hn, huntried, htried⟩
      exact System.firstLease?_of_attempts hordered e hr hr' hid hn huntried htried
  rebuilt events _ _ hrebuild := System.untried_of_rebuild? (.run e events) hrebuild
  queued events ev r' hr' hnew := by
    have hsound := System.Sound.run e events
    rcases hsound.row_step (System.staged e events) e ev r' hr' with ⟨r, hr, hsame, _⟩ | hqueued
    · exact absurd hsame.id (hnew r hr)
    · exact System.rebuild?_of_queued hsound hr' hqueued

/-- A run in which a world is published and its one job is leased. -/
example : (System.run .minimal [.createFirst]).rebuild? .minimal .publishFirst = some (.mint 0) ∧
    (System.run .minimal [.createFirst, .publishFirst]).notes (System.firstLease? (.mint 0))
      .minimal [.lease, .lease] = [1] := by
  decide +kernel

end Lorebook
