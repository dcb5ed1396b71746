import Lorebook.Proofs.QueueOrder

set_option autoImplicit false

/-! # The life of a job

What a job row says about attempts, errors and times goes with its status, and the jobs of a world
are numbered from 1 on. A row moves from waiting to running by a lease, from there to succeeded or
failed by a transaction that settles it, and back to waiting only when its module is retried; the
attempts count the leases. Every event moves rows in this way (`System.Sound.row_step`), so a job
that failed does not run again unless its module is retried or its queue replaced
(`System.lifeCycle_run`). -/

namespace Lorebook

open Engine

/-! ## Stages -/

/-- The cell holds a stored instant. -/
def Cell.IsTime (c : Cell) : Prop :=
  ∃ t : Instant, c = .text (Rfc3339.stored t)

/-- The job was leased at least once. -/
def JobRow.Tried (r : JobRow) : Prop :=
  ∃ n : Nat, r.attempts = .int n ∧ 1 ≤ n

/-- What goes with each status of a job. -/
inductive JobRow.Stage (r : JobRow) : JobStatus → Prop where
  | waiting (error : r.lastError = .null) (started : r.startedAt = .null)
      (finished : r.finishedAt = .null) : Stage r .waiting
  | running (tried : r.Tried) (error : r.lastError = .null) (started : r.startedAt.IsTime)
      (finished : r.finishedAt = .null) : Stage r .running
  | succeeded (tried : r.Tried) (error : r.lastError = .null) (started : r.startedAt.IsTime)
      (finished : r.finishedAt.IsTime) : Stage r .succeeded
  | failed (tried : r.Tried) (error : ∃ message, r.lastError = .text message)
      (started : r.startedAt.IsTime) (finished : r.finishedAt.IsTime) : Stage r .failed

/-- The row has a status, and what goes with it. -/
def JobRow.Staged (r : JobRow) : Prop :=
  ∃ status, r.hasStatus status = true ∧ r.Stage status

/-- A staged row is at the stage of its status. -/
theorem JobRow.Staged.stage {r : JobRow} (h : r.Staged) {status : JobStatus}
    (hstatus : r.hasStatus status = true) : r.Stage status := by
  obtain ⟨status', hstatus', hstage⟩ := h
  rwa [JobRow.hasStatus_unique hstatus hstatus']

theorem JobRow.staged_ofJob {j : Job} (h : j.IsNew) : (JobRow.ofJob j).Staged := by
  rw [h]
  exact ⟨.waiting, (holds_ofJob _).hasStatus_iff _ |>.2 rfl, .waiting rfl rfl rfl⟩

section

variable {r : JobRow} {time : Cell} {message : String}

theorem Jobs.hasStatus_leased : (leased time r).hasStatus .running = true :=
  JobRow.hasStatus_iff.2 rfl

theorem Jobs.hasStatus_succeeded : (succeeded time r).hasStatus .succeeded = true :=
  JobRow.hasStatus_iff.2 rfl

theorem Jobs.hasStatus_failed : (failed message time r).hasStatus .failed = true :=
  JobRow.hasStatus_iff.2 rfl

theorem Jobs.hasStatus_requeued : (requeued time r).hasStatus .waiting = true :=
  JobRow.hasStatus_iff.2 rfl

/-- A lease counts the attempts up by one. -/
theorem Jobs.attempts_leased {n : Nat} (hn : r.attempts = .int n) (hlt : n < twoPow 32) :
    (leased time r).attempts = .int (n + 1 : Nat) := by
  show r.attempts.successor = _
  rw [hn, Cell.successor_of_attempts hlt]
  rfl

end

/-- What a write makes of a staged row is staged. -/
theorem JobChange.staged {w : Write} {r r' : JobRow} (h : JobChange w r r') (hr : r.Staged)
    {n : Nat} (hn : r.attempts = .int n) (hlt : n < twoPow 32) : r'.Staged := by
  cases h with
  | kept => exact hr
  | leased now hwaiting _ =>
    cases hr.stage hwaiting with
    | waiting error _ _ =>
      exact ⟨.running, Jobs.hasStatus_leased, .running
        ⟨n + 1, Jobs.attempts_leased hn hlt, Nat.le_add_left 1 n⟩ error ⟨now, rfl⟩ rfl⟩
  | succeeded id now _ hrunning _ =>
    cases hr.stage hrunning with
    | running tried _ started _ =>
      exact ⟨.succeeded, Jobs.hasStatus_succeeded, .succeeded tried rfl started ⟨now, rfl⟩⟩
  | failed id message now _ hrunning _ =>
    cases hr.stage hrunning with
    | running tried _ started _ =>
      exact ⟨.failed, Jobs.hasStatus_failed, .failed tried ⟨message, rfl⟩ started ⟨now, rfl⟩⟩
  | requeued id now _ _ _ =>
    exact ⟨.waiting, Jobs.hasStatus_requeued, .waiting rfl rfl rfl⟩

/-- Every row of a job is staged. -/
def Database.Staged (db : Database) : Prop :=
  ∀ r ∈ db.jobs, r.Staged

theorem Database.staged_empty : Database.empty.Staged := by
  intro r hr
  cases hr

theorem Database.Staged.apply {db : Database} (h : db.Staged) (hdb : db.Sound) {w : Write}
    (hw : w.Allowed db) : (w.apply db).Staged := by
  intro r hr
  rcases Write.mem_onJobs hr with ⟨r₀, hr₀, rfl⟩ | ⟨j, rfl, rfl⟩
  · obtain ⟨n, hn, hlt⟩ := hdb.attempts r₀ hr₀
    exact (Write.jobChange hw hdb.jobIds hr₀).staged (h r₀ hr₀) hn hlt
  · exact JobRow.staged_ofJob hw.1

theorem Journal.staged {db db' : Database} {ws : List Write} (hjournal : Journal db ws db')
    (hdb : db.Sound) (h : db.Staged) : db'.Staged :=
  (hjournal.invariant (I := fun d => d.Sound ∧ d.Staged)
    (fun _ _ _ hw hd => ⟨hd.1.apply hw, hd.2.apply hd.1 hw⟩) ⟨hdb, h⟩).2

theorem System.staged_step {s : System} (h : s.Sound) (e : Engine) (ev : Event)
    (hs : s.studio.db.Staged) : (s.step e ev).studio.db.Staged := by
  obtain ⟨_, _, _, hcommit, _⟩ := s.step_effect e ev
  exact hcommit.journal.staged h.db hs

/-- In every run, the rows of jobs are staged. -/
theorem System.staged (e : Engine) (events : List Event) : (run e events).studio.db.Staged :=
  Sound.induction_of (P := fun s => s.studio.db.Staged) Database.staged_empty
    fun _ ev _ h hs => staged_step h e ev hs

/-! ## Numbers -/

/-- The rows of the jobs of a world. -/
def Database.queueOf (db : Database) (world : WorldId) : List JobRow :=
  db.jobs.filter fun r => r.world.isText world.text

/-- The rows are numbered from 1 on. -/
def JobRow.Numbered (rows : List JobRow) : Prop :=
  rows.map (·.sequence) = (List.range' 1 rows.length).map fun n : Nat => Cell.int n

/-- The jobs of every world are numbered from 1 on. -/
def Database.Numbered (db : Database) : Prop :=
  ∀ world, JobRow.Numbered (db.queueOf world)

/-- Rows with the numbers of others are numbered as these are. -/
theorem JobRow.Numbered.of_map_eq {rows rows' : List JobRow} (h : JobRow.Numbered rows)
    (hmap : rows'.map (·.sequence) = rows.map (·.sequence)) : JobRow.Numbered rows' := by
  have hlength : rows'.length = rows.length := by
    have hlengths := congrArg List.length hmap
    rwa [List.length_map, List.length_map] at hlengths
  rw [JobRow.Numbered, hmap, hlength]
  exact h

/-- Dropping the queue of a world drops no other job. -/
theorem Jobs.filter_drop (rows : List JobRow) (dropped world : WorldId) :
    (rows.filter fun r => !r.world.isText dropped.text).filter
        (fun r => r.world.isText world.text) =
      if world = dropped then [] else rows.filter fun r => r.world.isText world.text := by
  rw [List.filter_filter]
  split
  · rename_i heq
    subst heq
    simp
  · rename_i hne
    refine List.filter_congr fun r _ => ?_
    cases hworld : r.world.isText world.text with
    | false => rfl
    | true =>
      rw [Cell.isText_iff] at hworld
      simp only [hworld, Cell.isText, Cell.text.injEq, Bool.true_and, Bool.not_eq_true',
        decide_eq_false_iff_not]
      exact fun heq => hne (WorldId.eq_of_text heq)

/-- A write that adds no job keeps the numbers of a queue, or drops the queue. -/
theorem Write.queueOf_cases {w : Write} {db : Database} (hw : w.Allowed db)
    (hids : (db.jobs.map (·.id)).Nodup) (hadd : ∀ j, w ≠ .addJob j) (world : WorldId) :
    (w.apply db).queueOf world = [] ∨
      ((w.apply db).queueOf world).map (·.sequence) = (db.queueOf world).map (·.sequence) := by
  unfold Database.queueOf
  rw [apply_jobs]
  rcases w.onJobs_cases db.jobs with ⟨j, rfl⟩ | ⟨dropped, _, heq⟩ | heq
  · exact absurd rfl (hadd j)
  · rw [heq, Jobs.filter_drop]
    split
    · exact Or.inl rfl
    · exact Or.inr rfl
  · refine Or.inr ?_
    have hnames : ∀ r ∈ db.jobs, (w.onJob r).world = r.world ∧ (w.onJob r).sequence = r.sequence :=
      fun r hr => ⟨(jobChange hw hids hr).names_eq.2.1, (jobChange hw hids hr).names_eq.2.2.2⟩
    rw [heq, List.filter_map, List.map_map]
    have hfilter : db.jobs.filter ((fun r => r.world.isText world.text) ∘ w.onJob) =
        db.jobs.filter fun r => r.world.isText world.text :=
      List.filter_congr fun r hr => by rw [Function.comp_apply, (hnames r hr).1]
    rw [hfilter]
    exact List.map_congr_left fun r hr => (hnames r (List.mem_filter.1 hr).1).2

theorem Journal.numbered {db db' : Database} {ws : List Write} (hjournal : Journal db ws db')
    (hdb : db.Sound) (hadd : ∀ j, .addJob j ∉ ws) (h : db.Numbered) : db'.Numbered := by
  refine (hjournal.invariant (I := fun d => d.Sound ∧ d.Numbered) (fun w hw d hallowed hd =>
    ⟨hd.1.apply hallowed, fun world => ?_⟩) ⟨hdb, h⟩).2
  rcases Write.queueOf_cases hallowed hd.1.jobIds (fun j heq => hadd j (heq ▸ hw)) world with
    hnil | hmap
  · rw [hnil]
    rfl
  · exact (hd.2 world).of_map_eq hmap

/-- A new queue is numbered, and the queues of other worlds stay as they are. -/
theorem Journal.numbered_of_queue {db db' : Database} {world : WorldId} {keys : List String}
    {js : List Job} (hjournal : Journal db (.clearQueue world :: js.map .addJob) db')
    (hqueue : NewQueue world 1 keys js) (h : db.Numbered) : db'.Numbered := by
  have hjobs : db'.jobs = (Write.clearQueue world).onJobs db.jobs ++ js.map JobRow.ofJob :=
    Database.Consistent.jobs_of_addJobs (cons_iff.1 hjournal).2
  have hnew : ∀ r ∈ js.map JobRow.ofJob, r.world = .text world.text := by
    intro r hr
    obtain ⟨j, hj, rfl⟩ := List.mem_map.1 hr
    show Cell.text j.world.text = _
    rw [hqueue.world_eq j hj]
  intro id
  have hqueueOf : db'.queueOf id = (if id = world then [] else db.queueOf id) ++
      (js.map JobRow.ofJob).filter fun r => r.world.isText id.text := by
    rw [Database.queueOf, hjobs, List.filter_append, Write.onJobs, Jobs.filter_drop]
    rfl
  by_cases hsame : id = world
  · subst hsame
    have hkept : (js.map JobRow.ofJob).filter (fun r => r.world.isText id.text) =
        js.map JobRow.ofJob :=
      List.filter_eq_self.2 fun r hr => Cell.isText_iff.2 (hnew r hr)
    have hlength : js.length = keys.length := by rw [← hqueue.keys_eq, List.length_map]
    rw [hqueueOf, if_pos rfl, hkept, List.nil_append, JobRow.Numbered, List.length_map,
      List.map_map, hlength, ← hqueue.sequence_eq, List.map_map]
    rfl
  · have hnone : (js.map JobRow.ofJob).filter (fun r => r.world.isText id.text) = [] := by
      refine List.filter_eq_nil_iff.2 fun r hr hid => hsame ?_
      rw [Cell.isText_iff, hnew r hr] at hid
      exact (WorldId.eq_of_text (Cell.text.inj hid)).symm
    rw [hqueueOf, if_neg hsame, hnone, List.append_nil]
    exact h id

theorem System.numbered_step {s : System} (h : s.Sound) (e : Engine) (ev : Event)
    (hs : s.studio.db.Numbered) : (s.step e ev).studio.db.Numbered := by
  obtain ⟨opened, ws, heffect, hcommit, _⟩ := s.step_effect e ev
  rcases heffect.adds_queue with hadd | ⟨vs, world, keys, js, _, rfl, hadd, hqueue⟩
  · exact hcommit.journal.numbered h.db hadd hs
  · obtain ⟨db, hfirst, hrest⟩ := Journal.append_iff.1 hcommit.journal
    exact hrest.numbered_of_queue hqueue (hfirst.numbered h.db hadd hs)

/-- In every run, the jobs of a world are numbered from 1 on. -/
theorem System.numbered (e : Engine) (events : List Event) : (run e events).studio.db.Numbered :=
  Sound.induction_of (P := fun s => s.studio.db.Numbered) (fun _ => rfl)
    fun _ ev _ h hs => numbered_step h e ev hs

/-! ## Moves -/

/-- Whether an event may settle jobs: the settling transactions of calls, and looking at stale
leases. -/
def Event.settlesJobs : Event → Bool
  | .settle _ _ => true
  | .release _ => true
  | .command (.recoverStaleLeases _) => true
  | _ => false

/-- What an event may make of the row of a job. -/
inductive JobRow.Moves (r r' : JobRow) : Event → Prop where
  /-- The status stays, and so do the attempts. -/
  | stays (ev : Event) (status : r'.status = r.status) (attempts : r'.attempts = r.attempts) :
      Moves r r' ev
  | leased {n : Nat} (before : r.hasStatus .waiting = true) (after : r'.hasStatus .running = true)
      (attempts : r.attempts = .int n) (counted : r'.attempts = .int (n + 1 : Nat)) :
      Moves r r' .lease
  | settled {ev : Event} (hev : ev.settlesJobs = true) (before : r.hasStatus .running = true)
      (after : r'.hasStatus .succeeded = true ∨ r'.hasStatus .failed = true)
      (attempts : r'.attempts = r.attempts) : Moves r r' ev
  | retried {world : WorldId} {module : String} {owner : OwnerId}
      (ofWorld : r.world = .text world.text) (ofModule : r.moduleKey = .text module)
      (before : r.hasStatus .succeeded = true ∨ r.hasStatus .failed = true)
      (after : r'.hasStatus .waiting = true) (attempts : r'.attempts = r.attempts) :
      Moves r r' (.command (.retryModule world module owner))

/-- The rows are of the same job, and the later one has the status of the earlier one or is settled,
which ran. -/
structure JobRow.Settles (r r' : JobRow) : Prop where
  id : r'.id = r.id
  world : r'.world = r.world
  moduleKey : r'.moduleKey = r.moduleKey
  attempts : r'.attempts = r.attempts
  status : r'.status = r.status ∨ r.hasStatus .running = true ∧
    (r'.hasStatus .succeeded = true ∨ r'.hasStatus .failed = true)

instance : Chain JobRow.Settles where
  refl r := ⟨rfl, rfl, rfl, rfl, Or.inl rfl⟩
  trans {a b c} h h' := by
    refine ⟨h'.id.trans h.id, h'.world.trans h.world, h'.moduleKey.trans h.moduleKey,
      h'.attempts.trans h.attempts, ?_⟩
    rcases h.status, h'.status with ⟨hab | ⟨hrunning, hsettled⟩, hbc | ⟨hrunning', hsettled'⟩⟩
    · exact Or.inl (hbc.trans hab)
    · rw [JobRow.hasStatus_iff, hab, ← JobRow.hasStatus_iff] at hrunning'
      exact Or.inr ⟨hrunning', hsettled'⟩
    · simp only [JobRow.hasStatus_iff, ← hbc] at hsettled
      simp only [← JobRow.hasStatus_iff] at hsettled
      exact Or.inr ⟨hrunning, hsettled⟩
    · exact Or.inr ⟨hrunning, hsettled'⟩

/-- Whether a write puts jobs to work: leasing one, and putting one back in the queue. -/
def Write.takesUp : Write → Bool
  | lease _ _ => true
  | requeue _ _ => true
  | _ => false

theorem JobChange.settles {w : Write} {r r' : JobRow} (h : JobChange w r r')
    (hw : w.takesUp = false) : r.Settles r' := by
  cases h with
  | kept => exact Chain.refl r
  | leased now _ heq => rw [heq] at hw; cases hw
  | succeeded id now _ hrunning _ =>
    exact ⟨rfl, rfl, rfl, rfl, Or.inr ⟨hrunning, Or.inl Jobs.hasStatus_succeeded⟩⟩
  | failed id message now _ hrunning _ =>
    exact ⟨rfl, rfl, rfl, rfl, Or.inr ⟨hrunning, Or.inr Jobs.hasStatus_failed⟩⟩
  | requeued id now _ _ heq => rw [heq] at hw; cases hw

/-- A row after writes goes back to one before them, or to that of a job that they add, by what each
of them makes of rows. -/
theorem Journal.origin {R : JobRow → JobRow → Prop} [Chain R] {db db' : Database}
    {ws : List Write} (h : Journal db ws db') (hdb : db.Sound)
    (hws : ∀ w ∈ ws, ∀ d : Database, d.Sound → w.Allowed d → ∀ r ∈ d.jobs, R r (w.onJob r)) :
    ∀ r' ∈ db'.jobs, (∃ r ∈ db.jobs, R r r') ∨
      ∃ j, .addJob j ∈ ws ∧ j.IsNew ∧ R (JobRow.ofJob j) r' := by
  refine (h.invariant (I := fun d => d.Sound ∧ ∀ r' ∈ d.jobs, (∃ r ∈ db.jobs, R r r') ∨
    ∃ j, .addJob j ∈ ws ∧ j.IsNew ∧ R (JobRow.ofJob j) r') (fun w hmem d hw hd =>
      ⟨hd.1.apply hw, fun r' hr' => ?_⟩) ⟨hdb, fun r hr => Or.inl ⟨r, hr, Chain.refl r⟩⟩).2
  rcases Write.mem_onJobs hr' with ⟨r₀, hr₀, rfl⟩ | ⟨j, rfl, rfl⟩
  · have hstep := hws w hmem d hd.1 hw r₀ hr₀
    rcases hd.2 r₀ hr₀ with ⟨r, hr, hR⟩ | ⟨j, hj, hnew, hR⟩
    · exact Or.inl ⟨r, hr, Chain.trans hR hstep⟩
    · exact Or.inr ⟨j, hj, hnew, Chain.trans hR hstep⟩
  · exact Or.inr ⟨j, hmem, hw.1, Chain.refl _⟩

/-! ## What an event makes of rows -/

/-- The rows are of the same job. -/
structure JobRow.SameJob (r r' : JobRow) : Prop where
  id : r'.id = r.id
  world : r'.world = r.world
  moduleKey : r'.moduleKey = r.moduleKey

/-- The row of a job that an event puts in a queue in place of others: it waits, was never leased,
and has a new name. -/
structure JobRow.Queued (s : System) (ev : Event) (r : JobRow) : Prop where
  waiting : r.hasStatus .waiting = true
  attempts : r.attempts = .int 0
  rebuilt : ∃ world, ev.rebuilds? = some world ∧ r.world = .text world.text
  named : ∃ n, s.studio.minted ≤ n ∧ r.id = .text (JobId.mint n).text

/-- A job that is queued has none of the names given out before. -/
theorem JobRow.Queued.id_ne {s : System} {ev : Event} {r r' : JobRow} (h : r'.Queued s ev)
    (hr : ∃ n < s.studio.minted, r.id = .text (JobId.mint n).text) : r'.id ≠ r.id := by
  obtain ⟨n, hlt, hid⟩ := hr
  obtain ⟨k, hle, hid'⟩ := h.named
  intro heq
  have hnk : n = k := by
    refine JobId.mint_inj (JobId.eq_of_text (Cell.text.inj ?_))
    rw [← hid, ← hid', heq]
  omega

namespace Effect

variable {e : Engine} {s : System} {ev : Event} {opened : List Job} {ws : List Write}

/-- The jobs that an event adds are those of the queue that it replaces. -/
theorem rebuilds_of_addJob (h : Effect e s ev opened ws) {j : Job} (hj : .addJob j ∈ ws) :
    ev.rebuilds? = some j.world := by
  rcases h.adds_queue with hadd | ⟨vs, world, keys, js, hev, rfl, hadd, hqueue⟩
  · exact absurd hj (hadd j)
  · rcases List.mem_append.1 hj with hj | hj
    · exact absurd hj (hadd j)
    · simp only [List.mem_cons, reduceCtorEq, List.mem_map, Write.addJob.injEq, exists_eq_right,
        false_or] at hj
      rw [hqueue.world_eq j hj, hev]

/-- What settles jobs takes none up. -/
theorem takesUp_eq_false (h : Effect e s ev opened ws) (hev : ev.settlesJobs = true) :
    ∀ w ∈ ws, w.takesUp = false := by
  have hmarks {db : Database} {job : Job} {status : ModuleStatus} {t : Instant} {vs : List Write}
      (hm : Engine.Marks db job status t vs) : ∀ w ∈ vs, w.takesUp = false := by
    intro w hw
    obtain ⟨m, rfl, _⟩ := hm.eq_saveModule hw
    rfl
  cases h with
  | nothing ev => simp
  | sweep hws =>
    intro w hw
    cases hws w hw <;> rfl
  | complete _ _ _ _ _ _ _ => split <;> simp [Write.takesUp]
  | fail _ hm => exact List.forall_mem_cons.2 ⟨rfl, hmarks hm⟩
  | release _ hm => exact List.forall_mem_cons.2 ⟨rfl, hmarks hm⟩
  | _ => cases hev

/-- What neither settles jobs nor takes them up leaves their rows. -/
theorem onJob_eq (h : Effect e s ev opened ws) (hev : ev.settlesJobs = false) (hlease : ev ≠ .lease)
    (hretry : ∀ world module owner, ev ≠ .command (.retryModule world module owner)) :
    ∀ w ∈ ws, ∀ r, w.onJob r = r := by
  cases h with
  | retry _ _ _ _ _ _ => exact absurd rfl (hretry _ _ _)
  | lease _ _ => exact absurd rfl hlease
  | sweep _ => cases hev
  | complete _ _ _ _ _ _ _ => cases hev
  | fail _ _ => cases hev
  | release _ _ => cases hev
  | _ => simp [Write.onJob, or_imp, forall_and]

end Effect

/-- What is queued is new. -/
theorem JobRow.queued_of_addJob {e : Engine} {s s' : System} {ev : Event} {opened : List Job}
    {ws : List Write} (heffect : Effect e s ev opened ws)
    (hcommit : Commit s.studio s'.studio ws) {j : Job} (hj : .addJob j ∈ ws) (hnew : j.IsNew) :
    (JobRow.ofJob j).Queued s ev where
  waiting := ((holds_ofJob j).hasStatus_iff _).2 (by rw [hnew]; rfl)
  attempts := by
    rw [hnew]
    rfl
  rebuilt := ⟨j.world, heffect.rebuilds_of_addJob hj, rfl⟩
  named := by
    obtain ⟨n, hle, _, hid⟩ := hcommit.fresh j hj
    exact ⟨n, hle, by rw [← hid]; rfl⟩

/-- What a single write that takes a job up makes of the rows. -/
theorem JobRow.moves_of_takesUp {db db' : Database} {w : Write} {vs : List Write}
    (hjournal : Journal db (w :: vs) db') (hdb : db.Sound) (hw : w.takesUp = true)
    (hvs : ∀ v ∈ vs, ∀ rows, v.onJobs rows = rows) :
    ∀ r' ∈ db'.jobs, ∃ r ∈ db.jobs, JobChange w r r' := by
  obtain ⟨hallowed, hrest⟩ := Journal.cons_iff.1 hjournal
  intro r' hr'
  rw [hrest.jobs_eq hvs] at hr'
  rcases Write.mem_onJobs hr' with ⟨r, hr, rfl⟩ | ⟨j, rfl, _⟩
  · exact ⟨r, hr, Write.jobChange hallowed hdb.jobIds hr⟩
  · cases hw

namespace System.Sound

variable {s : System}

/-- What a lease makes of rows: the one that it takes runs, and the others stay. -/
theorem row_lease (h : s.Sound) {row : JobRow} {now : Instant} {job : Job}
    {ws : List Write} (hmarks : Engine.Marks s.studio.db job .generating now ws) {db : Database}
    (hjournal : Journal s.studio.db (.lease row now :: ws) db) :
    ∀ r' ∈ db.jobs, ∃ r ∈ s.studio.db.jobs, r.SameJob r' ∧ r.Moves r' .lease := by
  intro r' hr'
  obtain ⟨r, hr, hchange⟩ :=
    JobRow.moves_of_takesUp hjournal h.db rfl hmarks.onJobs_eq r' hr'
  obtain ⟨hid, hworld, hkey, _⟩ := hchange.names_eq
  refine ⟨r, hr, ⟨hid, hworld, hkey⟩, ?_⟩
  cases hchange with
  | kept => exact .stays _ rfl rfl
  | leased t hwaiting _ =>
    obtain ⟨n, hn, hlt⟩ := h.db.attempts r hr
    exact .leased hwaiting Jobs.hasStatus_leased hn (Jobs.attempts_leased hn hlt)
  | succeeded id t _ _ heq => cases heq
  | failed id message t _ _ heq => cases heq
  | requeued id t _ _ heq => cases heq

/-- What a retry makes of rows: that of the module waits, and the others stay. -/
theorem row_retry (h : s.Sound) (hstaged : s.studio.db.Staged) {world : WorldId} {module : String}
    {owner : OwnerId} {q : JobRow} {job : Job} {now : Instant} {ws : List Write}
    (hq : q ∈ s.studio.db.jobs) (hworld : q.world = .text world.text)
    (hkey : q.moduleKey = .text module) (hdecode : q.decode = .ok job)
    (hws : ∀ w ∈ ws, ∀ rows, w.onJobs rows = rows) {db : Database}
    (hjournal : Journal s.studio.db (.requeue job.id now :: ws) db) :
    ∀ r' ∈ db.jobs, ∃ r ∈ s.studio.db.jobs, r.SameJob r' ∧
      r.Moves r' (.command (.retryModule world module owner)) := by
  intro r' hr'
  obtain ⟨r, hr, hchange⟩ := JobRow.moves_of_takesUp hjournal h.db rfl hws r' hr'
  obtain ⟨hid, hworld', hkey', _⟩ := hchange.names_eq
  refine ⟨r, hr, ⟨hid, hworld', hkey'⟩, ?_⟩
  cases hchange with
  | kept => exact .stays _ rfl rfl
  | leased t _ heq => cases heq
  | succeeded id t _ _ heq => cases heq
  | failed id message t _ _ heq => cases heq
  | requeued id t hname hidle heq =>
    -- The row that is put back is the one that the retry found.
    have hsame : r = q := by
      rw [Write.requeue.injEq] at heq
      rw [← heq.1] at hname
      exact eq_of_jobId h.db.jobIds hr hq
        (hname.trans (JobRow.holds_of_decode hdecode).id.symm)
    obtain ⟨status, hstatus, hstage⟩ := hstaged r hr
    rw [← hsame] at hworld hkey
    cases hstage with
    | waiting _ _ _ => exact .stays _ (JobRow.hasStatus_iff.1 hstatus).symm rfl
    | running _ _ _ _ =>
      rw [hstatus] at hidle
      cases hidle
    | succeeded _ _ _ _ =>
      exact .retried hworld hkey (Or.inl hstatus) Jobs.hasStatus_requeued rfl
    | failed _ _ _ _ =>
      exact .retried hworld hkey (Or.inr hstatus) Jobs.hasStatus_requeued rfl

/-- What settling transactions make of rows: some that run are settled, and the others stay. -/
theorem row_settle (h : s.Sound) {e : Engine} {ev : Event} {opened : List Job} {ws : List Write}
    (heffect : Effect e s ev opened ws) (hev : ev.settlesJobs = true) {db : Database}
    (hjournal : Journal s.studio.db ws db) :
    ∀ r' ∈ db.jobs, ∃ r ∈ s.studio.db.jobs, r.SameJob r' ∧ r.Moves r' ev := by
  intro r' hr'
  have hws := heffect.takesUp_eq_false hev
  rcases hjournal.origin (R := JobRow.Settles) h.db (fun w hw d hd hallowed r hr =>
    (Write.jobChange hallowed hd.jobIds hr).settles (hws w hw)) r' hr' with
    ⟨r, hr, hsettles⟩ | ⟨j, hj, _, _⟩
  · refine ⟨r, hr, ⟨hsettles.id, hsettles.world, hsettles.moduleKey⟩, ?_⟩
    rcases hsettles.status with hstatus | ⟨hrunning, hsettled⟩
    · exact .stays _ hstatus hsettles.attempts
    · exact .settled hev hrunning hsettled hsettles.attempts
  · -- A settling transaction queues nothing.
    have hrebuilds := heffect.rebuilds_of_addJob hj
    cases ev with
    | command c => cases c <;> cases hrebuilds <;> cases hev
    | _ => cases hrebuilds

/-- What writes that touch no row of a job make of rows: they stay, and new ones may be queued. -/
theorem row_kept (h : s.Sound) {s' : System} {e : Engine} {ev : Event} {opened : List Job}
    {ws : List Write} (heffect : Effect e s ev opened ws) (hcommit : Commit s.studio s'.studio ws)
    (hws : ∀ w ∈ ws, ∀ r, w.onJob r = r) :
    ∀ r' ∈ s'.studio.db.jobs, (∃ r ∈ s.studio.db.jobs, r.SameJob r' ∧ r.Moves r' ev) ∨
      r'.Queued s ev := by
  intro r' hr'
  rcases hcommit.journal.origin (R := (· = ·)) h.db (fun w hw d _ _ r _ => (hws w hw r).symm) r'
    hr' with ⟨r, hr, rfl⟩ | ⟨j, hj, hnew, rfl⟩
  · exact Or.inl ⟨r, hr, ⟨rfl, rfl, rfl⟩, .stays _ rfl rfl⟩
  · exact Or.inr (JobRow.queued_of_addJob heffect hcommit hj hnew)

/-- A row of a job after an event is that of a job before it, which moved as the event moves jobs,
or the event has queued it. -/
theorem row_step (h : s.Sound) (hstaged : s.studio.db.Staged) (e : Engine) (ev : Event) :
    ∀ r' ∈ (s.step e ev).studio.db.jobs,
      (∃ r ∈ s.studio.db.jobs, r.SameJob r' ∧ r.Moves r' ev) ∨ r'.Queued s ev := by
  obtain ⟨opened, ws, heffect, hcommit, _⟩ := s.step_effect e ev
  intro r' hr'
  by_cases hnone : ws = []
  · subst hnone
    exact h.row_kept heffect hcommit (fun w hw => by cases hw) r' hr'
  by_cases hev : ev.settlesJobs = true
  · exact Or.inl (h.row_settle heffect hev hcommit.journal r' hr')
  rw [Bool.not_eq_true] at hev
  by_cases hlease : ev = .lease
  · subst hlease
    cases heffect with
    | nothing ev => exact absurd rfl hnone
    | lease _ hmarks => exact Or.inl (h.row_lease hmarks hcommit.journal r' hr')
  by_cases hretry : ∃ world module owner, ev = .command (.retryModule world module owner)
  · obtain ⟨world, module, owner, rfl⟩ := hretry
    cases heffect with
    | nothing ev => exact absurd rfl hnone
    | retry _ hq hworld hkey hdecode _ =>
      refine Or.inl (h.row_retry hstaged hq hworld hkey hdecode ?_ hcommit.journal r' hr')
      intro w hw rows
      split at hw <;> simp at hw
      · rw [hw]
        rfl
      · rcases hw with rfl | rfl <;> rfl
  exact h.row_kept heffect hcommit (heffect.onJob_eq hev hlease fun world module owner heq =>
    hretry ⟨world, module, owner, heq⟩) r' hr'

/-- The row of a job that was there before an event moved as the event moves jobs. -/
theorem moves_step (h : s.Sound) (hstaged : s.studio.db.Staged) (e : Engine) (ev : Event)
    {r r' : JobRow} (hr : r ∈ s.studio.db.jobs) (hr' : r' ∈ (s.step e ev).studio.db.jobs)
    (hid : r'.id = r.id) : r.SameJob r' ∧ r.Moves r' ev := by
  rcases h.row_step hstaged e ev r' hr' with ⟨q, hq, hsame, hmoves⟩ | hqueued
  · rw [eq_of_jobId h.db.jobIds hr hq (hid.symm.trans hsame.id)]
    exact ⟨hsame, hmoves⟩
  · exact absurd hid (hqueued.id_ne (h.named r hr))

end System.Sound

/-! ## Jobs that failed -/

/-- The event retries the module of a job. -/
def Event.Retries (ev : Event) (r : JobRow) : Prop :=
  ∃ world module owner, ev = .command (.retryModule world module owner) ∧
    r.world = .text world.text ∧ r.moduleKey = .text module

/-- The event may replace the queue that a job is in. -/
def Event.Rebuilds (ev : Event) (r : JobRow) : Prop :=
  ∃ world, ev.rebuilds? = some world ∧ r.world = .text world.text

/-- A failed job stays failed unless its module is retried. -/
theorem JobRow.Moves.failed {r r' : JobRow} {ev : Event} (h : r.Moves r' ev)
    (hfailed : r.hasStatus .failed = true) (hev : ¬ ev.Retries r) :
    r'.hasStatus .failed = true ∧ r'.attempts = r.attempts := by
  cases h with
  | stays ev status attempts =>
    rw [JobRow.hasStatus_iff] at hfailed ⊢
    exact ⟨status.trans hfailed, attempts⟩
  | leased before _ _ _ => cases JobRow.hasStatus_unique hfailed before
  | settled _ before _ _ => cases JobRow.hasStatus_unique hfailed before
  | retried ofWorld ofModule _ _ _ => exact absurd ⟨_, _, _, rfl, ofWorld, ofModule⟩ hev

/-- The row of a failed job, if it is still there, is as failed as it was, and its name is not given
out again. -/
structure System.KeepsFailed (s : System) (r : JobRow) : Prop where
  sound : s.Sound
  staged : s.studio.db.Staged
  named : ∃ n < s.studio.minted, r.id = .text (JobId.mint n).text
  failed : ∀ r' ∈ s.studio.db.jobs, r'.id = r.id →
    r.SameJob r' ∧ r'.hasStatus .failed = true ∧ r'.attempts = r.attempts

/-- The jobs of the module of a job are this one. -/
def System.OnlyJob (s : System) (r : JobRow) : Prop :=
  ∀ r' ∈ s.studio.db.jobs, r'.world = r.world → r'.moduleKey = r.moduleKey → r'.id = r.id

section

variable {s : System} {r : JobRow} {later : List Event}

theorem System.KeepsFailed.step (h : s.KeepsFailed r) (e : Engine) {ev : Event}
    (hev : ¬ ev.Retries r) : (s.step e ev).KeepsFailed r where
  sound := h.sound.step e ev
  staged := System.staged_step h.sound e ev h.staged
  named := by
    obtain ⟨n, hlt, hid⟩ := h.named
    obtain ⟨_, _, _, hcommit, _⟩ := s.step_effect e ev
    exact ⟨n, Nat.lt_of_lt_of_le hlt hcommit.names, hid⟩
  failed := by
    intro r' hr' hid
    rcases h.sound.row_step h.staged e ev r' hr' with ⟨q, hq, hsame, hmoves⟩ | hqueued
    · obtain ⟨hsameq, hfailed, hattempts⟩ := h.failed q hq (hsame.id.symm.trans hid)
      have hevq : ¬ ev.Retries q := by
        rintro ⟨world, module, owner, rfl, hworld, hkey⟩
        exact hev ⟨world, module, owner, rfl, hsameq.world.symm.trans hworld,
          hsameq.moduleKey.symm.trans hkey⟩
      obtain ⟨hfailed', hattempts'⟩ := hmoves.failed hfailed hevq
      exact ⟨⟨hid, hsame.world.trans hsameq.world, hsame.moduleKey.trans hsameq.moduleKey⟩,
        hfailed', hattempts'.trans hattempts⟩
    · exact absurd hid (hqueued.id_ne h.named)

theorem System.KeepsFailed.foldl (h : s.KeepsFailed r) (e : Engine)
    (hlater : ∀ ev ∈ later, ¬ ev.Retries r) : (later.foldl (System.step e) s).KeepsFailed r := by
  induction later generalizing s with
  | nil => exact h
  | cons ev later ih =>
    exact ih (h.step e (hlater ev List.mem_cons_self)) fun v hv =>
      hlater v (List.mem_cons_of_mem ev hv)

theorem System.Sound.keepsFailed (h : s.Sound) (hstaged : s.studio.db.Staged)
    (hr : r ∈ s.studio.db.jobs) (hfailed : r.hasStatus .failed = true) : s.KeepsFailed r where
  sound := h
  staged := hstaged
  named := h.named r hr
  failed r' hr' hid := by
    rw [eq_of_jobId h.db.jobIds hr' hr hid]
    exact ⟨⟨rfl, rfl, rfl⟩, hfailed, rfl⟩

/-- No other job takes the place of one whose queue is not replaced. -/
theorem System.OnlyJob.step (h : s.OnlyJob r) (hsound : s.Sound) (hstaged : s.studio.db.Staged)
    (e : Engine) {ev : Event} (hev : ¬ ev.Rebuilds r) : (s.step e ev).OnlyJob r := by
  intro r' hr' hworld hkey
  rcases hsound.row_step hstaged e ev r' hr' with ⟨q, hq, hsame, _⟩ | hqueued
  · exact hsame.id.trans (h q hq (hsame.world.symm.trans hworld)
      (hsame.moduleKey.symm.trans hkey))
  · obtain ⟨world, hrebuilds, hworld'⟩ := hqueued.rebuilt
    exact absurd ⟨world, hrebuilds, hworld.symm.trans hworld'⟩ hev

theorem System.OnlyJob.foldl (h : s.OnlyJob r) (hsound : s.Sound) (hstaged : s.studio.db.Staged)
    (e : Engine) (hlater : ∀ ev ∈ later, ¬ ev.Rebuilds r) :
    (later.foldl (System.step e) s).OnlyJob r := by
  induction later generalizing s with
  | nil => exact h
  | cons ev later ih =>
    exact ih (h.step hsound hstaged e (hlater ev List.mem_cons_self)) (hsound.step e ev)
      (System.staged_step hsound e ev hstaged) fun v hv => hlater v (List.mem_cons_of_mem ev hv)

end

/-! ## The life of jobs -/

/-- The life of jobs. -/
structure System.LifeCycle (e : Engine) (s : System) : Prop where
  staged : ∀ r ∈ s.studio.db.jobs, r.Staged
  /-- Within a world, module keys are distinct and the numbers go from 1 on. -/
  keys : ∀ world, ((s.studio.db.queueOf world).map (·.moduleKey)).Nodup
  numbered : ∀ world, JobRow.Numbered (s.studio.db.queueOf world)
  /-- As long as its row exists, a job moves only as events move jobs. -/
  moves : ∀ ev, ∀ r ∈ s.studio.db.jobs, ∀ r' ∈ (s.step e ev).studio.db.jobs, r'.id = r.id →
    r.SameJob r' ∧ r.Moves r' ev
  /-- A row that did not exist was queued. -/
  queued : ∀ ev, ∀ r' ∈ (s.step e ev).studio.db.jobs, (∀ r ∈ s.studio.db.jobs, r'.id ≠ r.id) →
    r'.Queued s ev
  /-- A job that failed does not run as long as its module is not retried, whatever else happens. -/
  failed : ∀ r ∈ s.studio.db.jobs, r.hasStatus .failed = true → ∀ later : List Event,
    (∀ ev ∈ later, ¬ ev.Retries r) → ∀ r' ∈ (later.foldl (System.step e) s).studio.db.jobs,
      r'.id = r.id → r'.hasStatus .failed = true ∧ r'.attempts = r.attempts
  /-- Its module has no other job either, as long as its queue is not replaced. -/
  unreplaced : ∀ r ∈ s.studio.db.jobs, r.hasStatus .failed = true → ∀ later : List Event,
    (∀ ev ∈ later, ¬ ev.Retries r ∧ ¬ ev.Rebuilds r) →
    ∀ r' ∈ (later.foldl (System.step e) s).studio.db.jobs, r'.world = r.world →
      r'.moduleKey = r.moduleKey →
      r'.id = r.id ∧ r'.hasStatus .failed = true ∧ r'.attempts = r.attempts

theorem System.Sound.lifeCycle {s : System} (h : s.Sound) (hstaged : s.studio.db.Staged)
    (hnumbered : s.studio.db.Numbered) (e : Engine) : s.LifeCycle e where
  staged := hstaged
  keys world := by
    have hpairs := nodup_filter (fun r => r.world.isText world.text) h.db.jobKeys
    refine List.Nodup.of_map (f := fun key => (Cell.text world.text, key)) ?_
    rw [List.map_map]
    refine (List.map_congr_left fun r hr => ?_) ▸ hpairs
    rw [Cell.isText_iff.1 (List.mem_filter.1 hr).2]
    rfl
  numbered := hnumbered
  moves ev r hr r' hr' hid := h.moves_step hstaged e ev hr hr' hid
  queued ev r' hr' hnew := by
    rcases h.row_step hstaged e ev r' hr' with ⟨q, hq, hsame, _⟩ | hqueued
    · exact absurd hsame.id (hnew q hq)
    · exact hqueued
  failed r hr hfailed later hlater r' hr' hid := (((h.keepsFailed hstaged hr hfailed).foldl e
    hlater).failed r' hr' hid).2
  unreplaced r hr hfailed later hlater r' hr' hworld hkey := by
    have honly : s.OnlyJob r := fun q hq hqworld hqkey => by
      rw [List.inj_on_of_nodup_map h.db.jobKeys hq hr (by rw [hqworld, hqkey])]
    have hid := honly.foldl h hstaged e (fun ev hev => (hlater ev hev).2) r' hr' hworld hkey
    exact ⟨hid, (((h.keepsFailed hstaged hr hfailed).foldl e
      fun ev hev => (hlater ev hev).1).failed r' hr' hid).2⟩

/-- Whatever happens in whatever order, jobs live in this way. -/
theorem System.lifeCycle_run (e : Engine) (events : List Event) :
    (System.run e events).LifeCycle e :=
  (Sound.run e events).lifeCycle (staged e events) (numbered e events) e

end Lorebook
