import Lorebook.Proofs.ExactPublication
import Lorebook.Proofs.Provenance
import Lorebook.Proofs.QueueOrder

set_option autoImplicit false

/-! # A round of the queue

A round leases the first eligible job, asks the generator and settles the job, while nothing else
touches the database. It always settles the job that it took (`Engine.round_of_eligible`): with the
content that the generator's reply gives, or as failed. Whatever it does, it changes the row of that
job, of its module and of its world only, and the world only when nothing else of it is left to
do. -/

namespace Lorebook

open Studio Operation Engine

/-- A generator leaves the database. -/
def Generator.Quiet (g : Generator (StateM Studio)) : Prop :=
  ∀ limit request s, (g limit request s).2.db = s.db

namespace Engine

/-! ## Marking a module -/

/-- Marking changes what is found of the module of the job only. -/
theorem Marks.find?_of_ne {db db' : Database} {job : Job} {status : ModuleStatus} {now : Instant}
    {ws : List Write} (h : Marks db job status now ws) (hjournal : Journal db ws db')
    {world : WorldId} {key : String} (hne : ¬ (job.world = world ∧ job.moduleKey = key)) :
    db'.modules.find? (Modules.isOf world key) = db.modules.find? (Modules.isOf world key) := by
  cases h with
  | absent _ => rw [Journal.nil_iff.1 hjournal]
  | @stored m hm =>
    rw [Journal.nil_iff.1 (Journal.cons_iff.1 hjournal).2]
    refine Write.find?_saveModule_of_ne fun heq => hne ?_
    rw [← hm.world_eq, ← hm.key_eq]
    exact heq

/-- A module that was marked at a time that can be read back is stored with its field values. -/
theorem Marks.stored_of_stored {db db' : Database} {job : Job} {status : ModuleStatus}
    {now u : Instant} {ws : List Write} (h : Marks db job status now ws)
    (hjournal : Journal db ws db') (hu : Rfc3339.parse? (Rfc3339.stored now) = some u)
    {m : WorldModule} (hm : db.StoredModule job.world job.moduleKey m) :
    ∃ m', db'.StoredModule job.world job.moduleKey m' ∧ m'.fields = m.fields := by
  cases h with
  | absent _ => exact ⟨m, Journal.nil_iff.1 hjournal ▸ hm, rfl⟩
  | @stored m₀ hm₀ =>
    obtain rfl : m₀ = m := Option.some.inj (hm₀.module?_eq.symm.trans hm.module?_eq)
    rw [Journal.nil_iff.1 (Journal.cons_iff.1 hjournal).2]
    have hnow : ({ m₀ with status := status }.touch none now).updatedAt = now := rfl
    have hsaved := hm.saved (n := { m₀ with status := status }.touch none now) hm.world_eq hm.key_eq
      hnow hu
    exact ⟨_, hsaved, rfl⟩

/-- A module that is not stored is not marked. -/
theorem Marks.absent_of_absent {db db' : Database} {job : Job} {status : ModuleStatus}
    {now : Instant} {ws : List Write} (h : Marks db job status now ws)
    (hjournal : Journal db ws db')
    (habsent : ∀ r ∈ db.modules, Modules.isOf job.world job.moduleKey r = false) :
    ∀ r ∈ db'.modules, Modules.isOf job.world job.moduleKey r = false := by
  cases h with
  | absent _ =>
    rw [Journal.nil_iff.1 hjournal]
    exact habsent
  | stored hm =>
    obtain ⟨row, hfind, _⟩ := hm
    have hof := List.find?_some hfind
    rw [habsent row (List.mem_of_find?_eq_some hfind)] at hof
    cases hof

/-! ## Taking a job -/

/-- A studio whose next job was taken: its row is leased and its module is marked. -/
structure Taken (s : Studio) (row : JobRow) (job : Job) (t : Studio) : Prop where
  holds : ∃ now, (Jobs.leased (.text (Rfc3339.stored now)) row).Holds job ∧
    t.db.jobs = (Write.lease row now).onJobs s.db.jobs
  attempts : ∃ n : Nat, row.attempts = .int n ∧ job.attempts = n + 1
  sound : t.db.Sound
  worlds : t.db.worlds = s.db.worlds
  others : ∀ world key, ¬ (job.world = world ∧ job.moduleKey = key) →
    t.db.modules.find? (Modules.isOf world key) = s.db.modules.find? (Modules.isOf world key)
  marked : ∀ m, s.db.StoredModule job.world job.moduleKey m →
    ∃ m', t.db.StoredModule job.world job.moduleKey m' ∧ m'.fields = m.fields
  unmarked : (∀ r ∈ s.db.modules, Modules.isOf job.world job.moduleKey r = false) →
    ∀ r ∈ t.db.modules, Modules.isOf job.world job.moduleKey r = false

theorem taken_of_commit {s t : Studio} (hdb : s.db.Sound) {row : JobRow} {job : Job}
    {now : Instant} {ws : List Write}
    (hdecode : (Jobs.leased (.text (Rfc3339.stored now)) row).decode = .ok job)
    (hmarks : Marks s.db job .generating now ws)
    (hcommit : Commit s t (.lease row now :: ws)) : Taken s row job t := by
  have hreads := JobRow.decode_eq_ok.1 hdecode
  obtain ⟨hallowed, hrest⟩ := Journal.cons_iff.1 hcommit.journal
  have hmarks' : Marks ((Write.lease row now).apply s.db) job .generating now ws :=
    hmarks.of_modules_eq rfl
  have hsaves : ∀ w ∈ ws, ∃ m, w = .saveModule m := fun w hw => by
    obtain ⟨m, hm, _⟩ := hmarks.eq_saveModule hw
    exact ⟨m, hm⟩
  -- The row was leased at a time that can be read back.
  obtain ⟨u, hu⟩ : ∃ u, Rfc3339.parse? (Rfc3339.stored now) = some u := by
    have hstarted := hreads.startedAt
    generalize job.startedAt = start at hstarted
    cases start with
    | none => cases hstarted
    | some u =>
      obtain ⟨raw, hraw, hu⟩ := hstarted
      exact ⟨u, Cell.text.inj hraw ▸ hu⟩
  obtain ⟨n, hn, hlt⟩ := hdb.attempts row (mem_of_lease hallowed).1
  refine ⟨⟨now, hreads.toHolds, ?_⟩, ⟨n, hn, attempts_of_leased hn hlt hdecode⟩,
    hdb.journal hcommit.journal, ?_, fun world key => hmarks'.find?_of_ne hrest,
    fun m => hmarks'.stored_of_stored hrest hu, hmarks'.absent_of_absent hrest⟩
  · refine hrest.jobs_eq fun w hw rows => ?_
    obtain ⟨m, rfl⟩ := hsaves w hw
    rfl
  · refine hrest.worlds_eq fun w hw rows => ?_
    obtain ⟨m, rfl⟩ := hsaves w hw
    rfl

/-- While no job runs, the first eligible job is taken. -/
theorem takeJob_of_eligible {s : Studio} (hdb : s.db.Sound) (hread : s.Readable)
    (hidle : ∀ r ∈ s.db.jobs, r.hasStatus .running = false) {row : JobRow} {rest : List JobRow}
    (heligible : s.db.eligible = row :: rest) :
    ∃ job t, (takeJob : StateM Studio _) s = (.ok (some job), t) ∧ Taken s row job t := by
  have hnext : Jobs.nextRow? s.db = some row := by
    rw [Database.nextRow?_eq_head? hidle, heligible]
    rfl
  obtain ⟨job, t, hlease⟩ := yields_leaseNext_some hdb.complete hread hnext
  rcases commit_leaseNext hlease with ⟨hnone, _⟩ |
    ⟨job', row', now, ws, hjob, hdecode, hmarks, hcommit⟩
  · cases hnone
  · obtain rfl := Option.some.inj hjob
    have hrow : row' = row := by
      have hallowed := (Journal.cons_iff.1 hcommit.journal).1
      exact Option.some.inj (hallowed.1.symm.trans hnext)
    subst hrow
    refine ⟨job, t.told ⟨.info, .queue, "job leased",
      jobFields job ++ [("world_id", .str job.world.text), ("attempt", .nat job.attempts)]⟩, ?_,
      taken_of_commit hdb hdecode hmarks (hcommit.trans_sameDb (StudioChain.told t _))⟩
    rw [takeJob_run, show leaseNext s = (.ok (some job), t) from hlease]

/-- When there is nothing to take, nothing is taken. -/
theorem takeJob_of_nil {s : Studio} (hdb : s.db.Sound)
    (hidle : ∀ r ∈ s.db.jobs, r.hasStatus .running = false) (heligible : s.db.eligible = []) :
    (takeJob : StateM Studio _) s = (.ok none, s.ticked) := by
  have hnext : Jobs.nextRow? s.db = none := by
    rw [Database.nextRow?_eq_head? hidle, heligible]
    rfl
  have hlease := yields_leaseNext_none hdb.complete hnext
  rw [takeJob_run, show leaseNext s = (.ok none, s.ticked) from hlease]

namespace Taken

variable {s t : Studio} {row : JobRow} {job : Job}

/-- The row is of the job that was taken. -/
theorem names (h : Taken s row job t) : row.id = .text job.id.text ∧
    row.world = .text job.world.text ∧ row.moduleKey = .text job.moduleKey := by
  obtain ⟨now, hholds, _⟩ := h.holds
  exact ⟨hholds.id, hholds.world, hholds.moduleKey⟩

/-- The job that was taken runs. -/
theorem running (h : Taken s row job t) (hrow : row ∈ s.db.jobs) :
    ∃ r ∈ t.db.jobs, r.id = .text job.id.text ∧ r.hasStatus .running = true := by
  obtain ⟨now, hholds, hjobs⟩ := h.holds
  refine ⟨Jobs.leased (.text (Rfc3339.stored now)) row, ?_, hholds.id, by
    simp [JobRow.hasStatus, Jobs.leased, Cell.isText]⟩
  rw [hjobs]
  exact List.mem_map.2 ⟨row, hrow, if_pos rfl⟩

/-- The module of the job can still be read. -/
theorem moduleReadable (h : Taken s row job t) (hrows : s.db.Readable) :
    t.db.ModuleReadable job := by
  intro q hfind
  rcases Modules.stored_or_absent hrows job.world job.moduleKey with ⟨m, hm⟩ | habsent
  · obtain ⟨m', ⟨r, hr, hdecode⟩, _⟩ := h.marked m hm
    obtain rfl := Option.some.inj (hfind.symm.trans hr)
    exact ⟨m', hdecode⟩
  · have hof := List.find?_some hfind
    rw [h.unmarked habsent q (List.mem_of_find?_eq_some hfind)] at hof
    cases hof

end Taken

/-! ## Asking the generator -/

/-- What a call for a job comes to before it is recorded: its content, or why there is none. -/
def answerFor (e : Engine) (g : Generator (StateM Studio)) (job : Job) (s : Studio) :
    Except EngineError String × Studio :=
  match (e.askFor job : StateM Studio _) s with
  | (.error cause, t) => (.error cause, t)
  | (.ok request, t) => (contentOf (g.call e.timeout request t).1, (g.call e.timeout request t).2)

/-- Running a job settles it with what its call comes to. -/
theorem runJob_run (e : Engine) (g : Generator (StateM Studio)) (job : Job) (s : Studio) :
    (e.runJob g job : StateM Studio _) s =
      (settle job (e.answerFor g job s).1 : StateM Studio _) (e.answerFor g job s).2 := by
  unfold runJob answerFor
  rw [StateM.bind_run]
  rcases (e.askFor job : StateM Studio _) s with ⟨cause | request, t⟩ <;> rfl

theorem askFor_run (e : Engine) (job : Job) (s : Studio) :
    (e.askFor job : StateM Studio _) s =
      match e.requestFor job s with
      | (.error cause, t) => (.error cause, t)
      | (.ok request, t) => (.ok request, t.told ⟨.debug, .queue, "calling generator",
          [("job_id", .str job.id.text), ("prompt_chars", .nat request.prompt.utf8ByteSize)]⟩) := by
  unfold askFor
  rw [StateM.bind_run, perform_run]
  rcases e.requestFor job s with ⟨cause | request, t⟩ <;> rfl

theorem db_answerFor {g : Generator (StateM Studio)} (hg : g.Quiet) (e : Engine) (job : Job)
    (s : Studio) : (e.answerFor g job s).2.db = s.db := by
  have hrequest := respects_requestFor (R := SameDb) e job s
  unfold answerFor
  rw [askFor_run]
  rcases hrun : e.requestFor job s with ⟨cause | request, t⟩
  · rw [hrun] at hrequest
    exact hrequest.1
  · rw [hrun] at hrequest
    exact (hg e.timeout request _).trans hrequest.1

/-- Content comes from a prompt that was rendered from the module of the job. -/
theorem prompted_of_answerFor {e : Engine} {g : Generator (StateM Studio)} {job : Job} {s : Studio}
    {content : String} (h : (e.answerFor g job s).1 = .ok content) :
    ∃ m prompt, e.PromptedFrom s.db job m prompt := by
  unfold answerFor at h
  rw [askFor_run] at h
  rcases hrun : e.requestFor job s with ⟨cause | request, t⟩
  · rw [hrun] at h
    cases h
  · obtain ⟨m, hm⟩ := promptedFrom_of_requestFor hrun
    exact ⟨m, request.prompt, hm⟩

/-! ## Settling a job that runs -/

/-- Settling gives what was recorded. -/
theorem settle_of_record {job : Job} {content : Except EngineError String} {s t : Studio}
    {outcome : QueueOutcome}
    (h : (record job content : StateM Studio _) s = (.ok outcome, t)) :
    (settle job content : StateM Studio _) s = (outcome, t) := by
  unfold settle
  rw [StateM.bind_run, h]
  rfl

/-- Settling records a completion that succeeds. -/
theorem settle_of_complete {job : Job} {content : String} {s t : Studio} {activated : Bool}
    (h : Yields (complete job content) s activated t) :
    (settle job (.ok content) : StateM Studio _) s =
      (.succeeded job.id job.world job.moduleKey activated,
        t.told ⟨.info, .queue, "job succeeded", jobFields job⟩) := by
  refine settle_of_record ?_
  show (recordSuccess job content : StateM Studio _) s = _
  rw [recordSuccess_run, show complete job content s = (.ok activated, t) from h]

/-- Settling records a failure that succeeds. -/
theorem settle_of_fail {job : Job} {cause : EngineError} {s t : Studio}
    (h : Yields (fail job cause.message) (s.told ⟨.warn, .queue, "job failed",
      jobFields job ++ [("kind", .str cause.kind), ("error", .str cause.message)]⟩) () t) :
    (settle job (.error cause) : StateM Studio _) s =
      (.failed job.id job.world job.moduleKey cause.message, t) := by
  refine settle_of_record ?_
  show (recordFailure job cause : StateM Studio _) s = _
  rw [recordFailure_run, show fail job cause.message _ = (.ok (), t) from h]

/-! ## What a round does -/

end Engine

/-- The row of a job that was leased once more and settled with what its call came to. -/
inductive JobRow.SettledAs (row : JobRow) : Except EngineError String → JobRow → Prop where
  | succeeded (content : String) (start finish : Instant) : row.SettledAs (.ok content)
      (Jobs.succeeded (.text (Rfc3339.stored finish))
        (Jobs.leased (.text (Rfc3339.stored start)) row))
  | failed (cause : EngineError) (start finish : Instant) : row.SettledAs (.error cause)
      (Jobs.failed cause.message (.text (Rfc3339.stored finish))
        (Jobs.leased (.text (Rfc3339.stored start)) row))

namespace JobRow.SettledAs

variable {row r : JobRow} {answer : Except EngineError String}

theorem names_eq (h : row.SettledAs answer r) : r.id = row.id ∧ r.world = row.world ∧
    r.moduleKey = row.moduleKey ∧ r.sequence = row.sequence := by
  cases h <;> exact ⟨rfl, rfl, rfl, rfl⟩

theorem attempts_eq (h : row.SettledAs answer r) : r.attempts = row.attempts.successor := by
  cases h <;> rfl

theorem isOutstanding_eq (h : row.SettledAs answer r) : r.isOutstanding = false := by
  cases h with
  | succeeded content start finish => exact Jobs.isOutstanding_succeeded _ _
  | failed cause start finish => exact Jobs.isOutstanding_failed _ _ _

theorem hasStatus_succeeded (h : row.SettledAs answer r) :
    r.hasStatus .succeeded = true ↔ ∃ content, answer = .ok content := by
  cases h with
  | succeeded content start finish =>
    exact ⟨fun _ => ⟨content, rfl⟩, fun _ => JobRow.hasStatus_iff.2 rfl⟩
  | failed cause start finish =>
    constructor
    · intro hsucceeded
      exact absurd (JobRow.hasStatus_unique hsucceeded (JobRow.hasStatus_iff.2 rfl)) (by decide)
    · rintro ⟨content, h⟩
      cases h

theorem terminal (h : row.SettledAs answer r) :
    r.hasStatus .succeeded = true ∨ r.hasStatus .failed = true := by
  cases h with
  | succeeded content start finish => exact Or.inl (JobRow.hasStatus_iff.2 rfl)
  | failed cause start finish => exact Or.inr (JobRow.hasStatus_iff.2 rfl)

end JobRow.SettledAs

/-- What a settled job makes of the worlds: its world is activated when the job succeeded and
nothing of the world is left to do. -/
inductive Database.WorldsAfter (db db' : Database) (id : WorldId)
    (answer : Except EngineError String) : Prop where
  | activated {w : World} {content : String} (now : Instant) (hok : answer = .ok content)
      (hdone : ∀ r ∈ db'.jobs, r.world = .text id.text → r.isOutstanding = false)
      (hlive : db.LiveWorld id w)
      (h : db'.worlds = (Write.changeWorld (w.activate now)).onWorlds db.worlds)
  | kept (hopen : (∃ cause, answer = .error cause) ∨
        ∃ r ∈ db'.jobs, r.world = .text id.text ∧ r.isOutstanding = true)
      (h : db'.worlds = db.worlds)

/-- The row of a module with new content, and the fingerprint of the field values that it has. -/
structure ModuleRow.HasContent (r : ModuleRow) (content : String) (fields : FieldMap) : Prop where
  status : r.status = .text ModuleStatus.completed.text
  content : r.content = .text content
  hash : r.hash = .text (contentHash fields)
  fields : r.fieldValues? = some fields

/-- The outcome says what the call for a job came to. -/
inductive QueueOutcome.Reports (job : Job) : Except EngineError String → QueueOutcome → Prop where
  | succeeded (content : String) (activated : Bool) :
      Reports job (.ok content) (.succeeded job.id job.world job.moduleKey activated)
  | failed (cause : EngineError) :
      Reports job (.error cause) (.failed job.id job.world job.moduleKey cause.message)

namespace Engine

/-- A round took the job of a row and settled it with what its call came to. -/
structure Round (s : Studio) (row : JobRow) (job : Job) (answer : Except EngineError String)
    (s' : Studio) : Prop where
  sound : s'.db.Sound
  settled : ∃ r, row.SettledAs answer r ∧
    s'.db.jobs = s.db.jobs.map fun q => if q.id = row.id then r else q
  worlds : s.db.WorldsAfter s'.db job.world answer
  others : ∀ world key, ¬ (job.world = world ∧ job.moduleKey = key) →
    s'.db.modules.find? (Modules.isOf world key) = s.db.modules.find? (Modules.isOf world key)
  completed : ∀ content, answer = .ok content →
    ∃ m r, s.db.StoredModule job.world job.moduleKey m ∧
      s'.db.modules.find? (Modules.isOf job.world job.moduleKey) = some r ∧
      r.HasContent content m.fields

namespace Taken

variable {s t u s' : Studio} {row : JobRow} {job : Job}

/-- Settling the job that was taken settles its row. -/
theorem jobs_of_settling (h : Taken s row job t) {w : Write} {f : JobRow → JobRow}
    (hw : ∀ r, w.onJob r = if r.id.isText job.id.text && r.hasStatus .running then f r else r)
    (hmap : w.onJobs t.db.jobs = t.db.jobs.map w.onJob) :
    ∃ start : Instant, w.onJobs t.db.jobs = s.db.jobs.map fun q =>
      if q.id = row.id then f (Jobs.leased (.text (Rfc3339.stored start)) row) else q := by
  obtain ⟨start, hholds, hjobs⟩ := h.holds
  refine ⟨start, ?_⟩
  have hid : row.id = .text job.id.text := hholds.id
  rw [hmap, hjobs]
  show (s.db.jobs.map (Write.lease row start).onJob).map w.onJob = _
  rw [List.map_map]
  refine List.map_congr_left fun q _ => ?_
  rw [Function.comp_apply]
  by_cases hq : q.id = row.id
  · have hleased : (Write.lease row start).onJob q =
        Jobs.leased (.text (Rfc3339.stored start)) row := if_pos hq
    rw [hleased, hw, if_pos hq, if_pos]
    rw [Bool.and_eq_true, Cell.isText_iff, JobRow.hasStatus_iff]
    exact ⟨hid, rfl⟩
  · have hkept : (Write.lease row start).onJob q = q := if_neg hq
    rw [hkept, hw, if_neg hq, if_neg]
    rw [Bool.and_eq_true, Cell.isText_iff]
    exact fun hhit => hq (hhit.1.trans hid.symm)

/-- A module of the job with a row in the table is stored. -/
theorem storedOf (h : Taken s row job t) (hrows : s.db.Readable) {m : WorldModule}
    (hm : ∃ r ∈ t.db.modules, Modules.isOf job.world job.moduleKey r = true ∧ r.decode = .ok m) :
    ∃ m', t.db.StoredModule job.world job.moduleKey m' := by
  obtain ⟨r, hr, hof, _⟩ := hm
  cases hfind : t.db.modules.find? (Modules.isOf job.world job.moduleKey) with
  | none => exact absurd hof (List.find?_eq_none.1 hfind r hr)
  | some q =>
    obtain ⟨m', hdecode⟩ := h.moduleReadable hrows q hfind
    exact ⟨m', q, hfind, hdecode⟩

/-- What is stored under the names of the job was stored before, with the same field values. -/
theorem stored_before (h : Taken s row job t) (hrows : s.db.Readable) {m' : WorldModule}
    (hm' : t.db.StoredModule job.world job.moduleKey m') :
    ∃ m, s.db.StoredModule job.world job.moduleKey m ∧ m'.fields = m.fields := by
  rcases Modules.stored_or_absent hrows job.world job.moduleKey with ⟨m, hm⟩ | habsent
  · obtain ⟨n, hn, hfields⟩ := h.marked m hm
    obtain rfl : n = m' := Option.some.inj (hn.module?_eq.symm.trans hm'.module?_eq)
    exact ⟨m, hm, hfields⟩
  · obtain ⟨r, hfind, _⟩ := hm'
    have hof := List.find?_some hfind
    rw [h.unmarked habsent r (List.mem_of_find?_eq_some hfind)] at hof
    cases hof

end Taken

/-- A stored module that is completed has new content. -/
theorem hasContent_of_saved {db : Database} {world : WorldId} {key : String} {m : WorldModule}
    (h : db.StoredModule world key m) (content : String) (now : Instant) :
    ∃ r, ((Write.saveModule (completed content now m)).apply db).modules.find?
        (Modules.isOf world key) = some r ∧ r.HasContent content m.fields := by
  obtain ⟨row, hfind, _⟩ := id h
  have hself : ((Write.saveModule (completed content now m)).onModules db.modules).find?
      (Modules.isOf (completed content now m).world (completed content now m).key) = _ :=
    Write.find?_saveModule_self
  rw [show (completed content now m).world = world from h.world_eq,
    show (completed content now m).key = key from h.key_eq, hfind] at hself
  exact ⟨_, hself, rfl, rfl, rfl, FieldMap.decode_compact m.fields⟩

/-- A job that was taken is completed with its content. -/
theorem round_of_content {s t u : Studio} {row : JobRow} {job : Job} {content : String}
    (h : Taken s row job t) (hrow : row ∈ s.db.jobs) (hrows : s.db.Readable) (hdb : u.db = t.db)
    {w : World} (hlive : t.db.LiveWorld job.world w) {m : WorldModule}
    (hm : t.db.StoredModule job.world job.moduleKey m) :
    ∃ outcome s', (settle job (.ok content) : StateM Studio _) u = (outcome, s') ∧
      outcome.Reports job (.ok content) ∧ Round s row job (.ok content) s' := by
  have hworld : u.db.LiveWorld job.world w := by rwa [hdb]
  have hrunning : ∃ r ∈ u.db.jobs, r.id = .text job.id.text ∧ r.hasStatus .running = true := by
    rw [hdb]
    exact h.running hrow
  have hmodule : u.db.StoredModule job.world job.moduleKey m := by rwa [hdb]
  obtain ⟨activated, s', hcomplete⟩ := succeeds_complete (by rw [hdb]; exact h.sound.complete)
    hworld hrunning hmodule content
  refine ⟨_, _, settle_of_complete hcomplete, .succeeded content activated, ?_⟩
  obtain ⟨w', m', now, hlive', hm', hactivated, hcommit⟩ := commit_complete hcomplete
  have hjournal := hcommit.journal
  rw [hdb] at hlive' hm' hjournal
  obtain ⟨hsettled, hrest⟩ := Journal.cons_iff.1 hjournal
  obtain ⟨hsaved, hend⟩ := Journal.cons_iff.1 hrest
  have hchange : ∀ v ∈ (if activated then [Write.changeWorld (w'.activate now)] else []),
      v = .changeWorld (w'.activate now) := by
    cases activated <;> simp
  have hmodules : s'.db.modules = ((Write.saveModule (completed content now m')).apply
      ((Write.succeed job.id now).apply t.db)).modules := by
    refine hend.modules_eq fun v hv rows => ?_
    rw [hchange v hv]
    rfl
  have hjobs : s'.db.jobs = (Write.succeed job.id now).onJobs t.db.jobs := by
    refine hrest.jobs_eq fun v hv rows => ?_
    rcases List.mem_cons.1 hv with rfl | hv
    · rfl
    · rw [hchange v hv]
      rfl
  obtain ⟨start, hmap⟩ := h.jobs_of_settling (w := .succeed job.id now) (fun _ => rfl) rfl
  refine ⟨h.sound.journal hjournal, ⟨_, .succeeded content start now, hjobs.trans hmap⟩, ?_,
    fun world key hne => ?_, fun c hc => ?_⟩
  · cases activated with
    | false =>
      obtain ⟨r, hr, hworld, hstatus⟩ := hactivated.1 rfl
      refine .kept (Or.inr ⟨r, hr, hworld, JobRow.isOutstanding_iff.2 hstatus⟩) ?_
      rw [told_db, Journal.nil_iff.1 hend, ← h.worlds]
      rfl
    | true =>
      obtain ⟨row', hfind, hdecode⟩ := hlive'
      refine .activated now rfl (fun r hr hworld => ?_)
        ⟨row', by rwa [← h.worlds], hdecode⟩ ?_
      · cases hstatus : r.isOutstanding with
        | false => rfl
        | true =>
          exact absurd (hactivated.2 ⟨r, hr, hworld, JobRow.isOutstanding_iff.1 hstatus⟩) (by simp)
      · rw [told_db, Journal.nil_iff.1 (Journal.cons_iff.1 hend).2, ← h.worlds]
        rfl
  · rw [told_db, hmodules, ← h.others world key hne]
    refine Write.find?_saveModule_of_ne fun heq => hne ?_
    rw [← hm'.world_eq, ← hm'.key_eq]
    exact heq
  · obtain rfl := Except.ok.inj hc
    obtain ⟨n, hn, hfields⟩ := h.stored_before hrows hm'
    have hstored :
        ((Write.succeed job.id now).apply t.db).StoredModule job.world job.moduleKey m' := hm'
    obtain ⟨r, hr, hcontent⟩ := hasContent_of_saved hstored content now
    rw [told_db, hmodules]
    exact ⟨n, r, hn, hr, hfields ▸ hcontent⟩

/-- A job that was taken is failed for a cause. -/
theorem round_of_cause {s t u : Studio} {row : JobRow} {job : Job} {cause : EngineError}
    (h : Taken s row job t) (hrow : row ∈ s.db.jobs) (hrows : s.db.Readable)
    (hdb : u.db = t.db) :
    ∃ outcome s', (settle job (.error cause) : StateM Studio _) u = (outcome, s') ∧
      outcome.Reports job (.error cause) ∧ Round s row job (.error cause) s' := by
  let v := u.told ⟨.warn, .queue, "job failed",
    jobFields job ++ [("kind", .str cause.kind), ("error", .str cause.message)]⟩
  have hv : v.db = t.db := hdb
  have hrunning : ∃ r ∈ v.db.jobs, r.id = .text job.id.text ∧ r.hasStatus .running = true := by
    rw [hv]
    exact h.running hrow
  have hmodule : v.db.ModuleReadable job := by
    rw [hv]
    exact h.moduleReadable hrows
  obtain ⟨s', hfail⟩ := yields_fail (by rw [hv]; exact h.sound.complete) hrunning hmodule
    cause.message
  refine ⟨_, _, settle_of_fail hfail, .failed cause, ?_⟩
  obtain ⟨now, ws, hmarks, hcommit⟩ := commit_fail hfail
  have hjournal := hcommit.journal
  rw [hv] at hmarks hjournal
  obtain ⟨hsettled, hrest⟩ := Journal.cons_iff.1 hjournal
  have hsaves : ∀ x ∈ ws, ∃ m, x = .saveModule m := fun x hx => by
    obtain ⟨m, hm, _⟩ := hmarks.eq_saveModule hx
    exact ⟨m, hm⟩
  have hjobs : s'.db.jobs = (Write.fail job.id cause.message now).onJobs t.db.jobs := by
    refine hrest.jobs_eq fun x hx rows => ?_
    obtain ⟨m, rfl⟩ := hsaves x hx
    rfl
  have hworlds : s'.db.worlds = s.db.worlds := by
    rw [← h.worlds]
    refine hrest.worlds_eq fun x hx rows => ?_
    obtain ⟨m, rfl⟩ := hsaves x hx
    rfl
  obtain ⟨start, hmap⟩ := h.jobs_of_settling (w := .fail job.id cause.message now)
    (fun _ => rfl) rfl
  have hmarks' : Marks ((Write.fail job.id cause.message now).apply t.db) job .failed now ws :=
    hmarks.of_modules_eq rfl
  refine ⟨h.sound.journal hjournal, ⟨_, .failed cause start now, hjobs.trans hmap⟩,
    .kept (Or.inl ⟨cause, rfl⟩) hworlds, fun world key hne => ?_, fun c hc => by cases hc⟩
  rw [hmarks'.find?_of_ne hrest hne, ← h.others world key hne]
  rfl

/-- While no job runs, a round takes the first eligible job and settles it with what its call comes
to. -/
theorem round_of_eligible (e : Engine) {g : Generator (StateM Studio)} (hg : g.Quiet) {s : Studio}
    (hdb : s.db.Sound) (hread : s.Readable)
    (hidle : ∀ r ∈ s.db.jobs, r.hasStatus .running = false) {row : JobRow} {rest : List JobRow}
    (heligible : s.db.eligible = row :: rest) :
    ∃ job t outcome s', (takeJob : StateM Studio _) s = (.ok (some job), t) ∧
      Taken s row job t ∧ (e.processQueue g : StateM Studio _) s = (outcome, s') ∧
      outcome.Reports job (e.answerFor g job t).1 ∧
      Round s row job (e.answerFor g job t).1 s' := by
  obtain ⟨job, t, htake, htaken⟩ := takeJob_of_eligible hdb hread hidle heligible
  have hrow : row ∈ s.db.jobs :=
    (Database.mem_eligible.1 (heligible ▸ List.mem_cons_self)).1
  have hquiet := db_answerFor hg e job t
  have hrun : (e.processQueue g : StateM Studio _) s =
      (settle job (e.answerFor g job t).1 : StateM Studio _) (e.answerFor g job t).2 := by
    unfold processQueue
    rw [StateM.bind_run, htake]
    exact e.runJob_run g job t
  have hsettle : ∃ outcome s', (settle job (e.answerFor g job t).1 : StateM Studio _)
      (e.answerFor g job t).2 = (outcome, s') ∧
      outcome.Reports job (e.answerFor g job t).1 ∧
      Round s row job (e.answerFor g job t).1 s' := by
    cases hanswer : (e.answerFor g job t).1 with
    | error cause => exact round_of_cause htaken hrow hread.rows hquiet
    | ok content =>
      obtain ⟨m, prompt, hprompted⟩ := prompted_of_answerFor hanswer
      obtain ⟨input, hlive, _⟩ := hprompted.rendered
      obtain ⟨m', hm'⟩ := htaken.storedOf hread.rows hprompted.stored
      exact round_of_content htaken hrow hread.rows hquiet hlive hm'
  obtain ⟨outcome, s', hsettle, hreports, hround⟩ := hsettle
  exact ⟨job, t, outcome, s', htake, htaken, hrun.trans hsettle, hreports, hround⟩

end Engine

end Lorebook
