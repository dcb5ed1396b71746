import Lorebook.Engine.Worker
import Lorebook.Proofs.Rounds

set_option autoImplicit false

/-! # Draining the queue

Draining repeats rounds until one finds nothing to lease. From a studio where no job runs, the k-th
round takes the k-th eligible row, and what is eligible after it are the rows that follow
(`Engine.Round.atRest`). So draining stops one round after the last of them, whatever the calls for
them came to (`Engine.drains`), and a world is activated exactly when the last of its jobs
succeeds. -/

namespace Lorebook

open Studio Operation Engine Worker

/-! ## Rows of one world -/

/-- The row has the highest number in the queue of a world among some rows. -/
def JobRow.IsLastOf (last : JobRow) (id : WorldId) (rows : List JobRow) : Prop :=
  last ∈ rows ∧ last.world = .text id.text ∧
    ∀ r ∈ rows, r.world = .text id.text → r.place ≤ last.place

/-- The job of a row succeeded, as the table has it now. -/
def Database.HasSucceeded (db : Database) (row : JobRow) : Prop :=
  ∃ r ∈ db.jobs, r.id = row.id ∧ r.hasStatus .succeeded = true

/-- The two databases have the same rows of a world. -/
def Database.SameWorld (db db' : Database) (id : WorldId) : Prop :=
  ∀ r : WorldRow, r.id = .text id.text → (r ∈ db'.worlds ↔ r ∈ db.worlds)

namespace JobRow.IsLastOf

variable {last row : JobRow} {id : WorldId} {rows : List JobRow}

theorem unique (hrows : rows.Pairwise fun a b => a.place < b.place) {last' : JobRow}
    (h : last.IsLastOf id rows) (h' : last'.IsLastOf id rows) : last = last' := by
  have hplace : last.place = last'.place :=
    le_antisymm (h'.2.2 last h.1 h.2.1) (h.2.2 last' h'.1 h'.2.1)
  have hdistinct : (rows.map JobRow.place).Nodup := List.pairwise_map.2 (hrows.imp ne_of_lt)
  exact List.inj_on_of_nodup_map hdistinct h.1 h'.1 hplace

/-- The last row of a world stays the last one when a row is put before all others. -/
theorem cons (hrow : ∀ r ∈ rows, row.place < r.place) (h : last.IsLastOf id rows) :
    last.IsLastOf id (row :: rows) := by
  refine ⟨List.mem_cons_of_mem row h.1, h.2.1, fun r hr hworld => ?_⟩
  rcases List.mem_cons.1 hr with rfl | hr
  · exact (hrow last h.1).le
  · exact h.2.2 r hr hworld

theorem of_cons (h : last.IsLastOf id (row :: rows)) (hmem : last ∈ rows) :
    last.IsLastOf id rows :=
  ⟨hmem, h.2.1, fun r hr => h.2.2 r (List.mem_cons_of_mem row hr)⟩

/-- A row that is the last one of its world, but stands before all others, is the only one. -/
theorem only (hrow : ∀ r ∈ rows, row.place < r.place) (h : row.IsLastOf id (row :: rows)) :
    ∀ r ∈ rows, r.world ≠ .text id.text := fun r hr hworld =>
  absurd (hrow r hr) (not_lt_of_ge (h.2.2 r (List.mem_cons_of_mem row hr) hworld))

theorem of_only (hworld : row.world = .text id.text)
    (h : ∀ r ∈ rows, r.world ≠ .text id.text) : row.IsLastOf id (row :: rows) := by
  refine ⟨List.mem_cons_self, hworld, fun r hr hr' => ?_⟩
  rcases List.mem_cons.1 hr with rfl | hr
  · exact le_rfl
  · exact absurd hr' (h r hr)

end JobRow.IsLastOf

namespace Database

variable {db db' : Database} {id : WorldId} {w v : World}

/-- A world is live where its rows are those of a database in which it is live. -/
theorem LiveWorld.of_sameWorld (hids : (db'.worlds.map (·.id)).Nodup) (hsame : db.SameWorld db' id)
    (h : db.LiveWorld id w) : db'.LiveWorld id w := by
  obtain ⟨row, hfind, hdecode⟩ := h
  have hlive := List.find?_some hfind
  have hrow := (hsame row (Worlds.isLive_iff.1 hlive).1).2 (List.mem_of_find?_eq_some hfind)
  exact ⟨row, Worlds.find?_isLive hids hrow hlive, hdecode⟩

theorem HasWorld.of_sameWorld {status : WorldStatus} {version : Int} (hsame : db.SameWorld db' id)
    (h : db.HasWorld id status version) : db'.HasWorld id status version := by
  obtain ⟨r, hr, hlive, hstatus, hversion⟩ := h
  exact ⟨r, (hsame r (Worlds.isLive_iff.1 hlive).1).2 hr, hlive, hstatus, hversion⟩

/-- A live world has one version. -/
theorem LiveWorld.version_eq (hids : (db.worlds.map (·.id)).Nodup) (h : db.LiveWorld id w)
    {status : WorldStatus} {version : Int} (hhas : db.HasWorld id status version) :
    w.version = version := by
  obtain ⟨row, hfind, hdecode⟩ := h
  obtain ⟨r, hr, hlive, _, hversion⟩ := hhas
  obtain rfl := Option.some.inj (hfind.symm.trans (Worlds.find?_isLive hids hr hlive))
  rw [(WorldRow.holds_of_decode hdecode).version, Cell.int.injEq] at hversion
  exact hversion

/-- Writing a world back leaves which worlds are live. -/
theorem hasLive_changeWorld (h : db'.worlds = (Write.changeWorld v).onWorlds db.worlds)
    (world : Cell) : db'.hasLive world = db.hasLive world := by
  rw [hasLive, hasLive, h]
  show (db.worlds.map _).any _ = _
  rw [List.any_map]
  congr 1
  funext r
  rw [Function.comp_apply]
  split <;> rfl

end Database

namespace Database.WorldsAfter

variable {db db' : Database} {id : WorldId} {answer : Except EngineError String}

theorem hasLive_eq (h : db.WorldsAfter db' id answer) (world : Cell) :
    db'.hasLive world = db.hasLive world := by
  cases h with
  | activated now hok hdone hlive h => exact hasLive_changeWorld h world
  | kept hopen h => rw [hasLive, hasLive, h]

theorem sameWorld_of_ne (h : db.WorldsAfter db' id answer) {other : WorldId} (hne : other ≠ id) :
    db.SameWorld db' other := by
  intro r hr
  cases h with
  | activated now hok hdone hlive h =>
    rw [h]
    refine Write.mem_changeWorld_of_other fun heq => hne (WorldId.eq_of_text ?_)
    have hid : id = _ := hlive.id_eq.symm
    rw [hid]
    exact Cell.text.inj (hr.symm.trans heq)
  | kept hopen h => rw [h]

end Database.WorldsAfter

/-! ## From one round to the next -/

/-- A studio where no job runs. -/
structure Studio.AtRest (s : Studio) : Prop where
  sound : s.db.Sound
  sequenced : s.db.Sequenced
  idle : ∀ r ∈ s.db.jobs, r.hasStatus .running = false

namespace Engine.Round

variable {s s' : Studio} {row : JobRow} {job : Job} {answer : Except EngineError String}
  {rest : List JobRow}

theorem placed (hread : s.db.Readable) : ∀ r ∈ s.db.jobs, r.Placed := fun r hr => by
  obtain ⟨j, hj⟩ := hread.jobs r hr
  exact (JobRow.holds_of_decode hj).placed

/-- After a round no job runs again, and what is eligible are the rows that followed. -/
theorem atRest (h : Round s row job answer s') (hs : s.AtRest) (hread : s.db.Readable)
    (heligible : s.db.eligible = row :: rest) : s'.AtRest ∧ s'.db.eligible = rest := by
  obtain ⟨r, hsettled, hjobs⟩ := h.settled
  obtain ⟨hid, hworld, _, hsequence⟩ := hsettled.names_eq
  have hrow : row ∈ s.db.jobs :=
    (Database.mem_eligible.1 (heligible ▸ List.mem_cons_self)).1
  have hdone := hsettled.isOutstanding_eq
  rw [JobRow.isOutstanding, Bool.or_eq_false_iff] at hdone
  refine ⟨⟨h.sound, ?_, fun q hq => ?_⟩, Database.eligible_of_settled hs.sound.jobIds hs.sequenced
    (placed hread) heligible hid hworld hsequence hdone.1 hjobs h.worlds.hasLive_eq⟩
  · rw [Database.Sequenced, hjobs]
    refine nodup_map (fun q hq => ?_) hs.sequenced
    split
    · rename_i heq
      rw [hworld, hsequence, eq_of_jobId hs.sound.jobIds hq hrow heq]
    · rfl
  · rw [hjobs] at hq
    obtain ⟨p, hp, rfl⟩ := List.mem_map.1 hq
    split
    · exact hdone.2
    · exact hs.idle p hp

end Engine.Round

/-! ## What the rounds leave -/

/-- The row of a job that was leased once more and ended. -/
structure JobRow.Ended (row r : JobRow) : Prop where
  names : r.id = row.id ∧ r.world = row.world ∧ r.moduleKey = row.moduleKey ∧
    r.sequence = row.sequence
  attempts : ∃ n : Nat, row.attempts = .int n ∧ r.attempts = .int (n + 1 : Nat)
  terminal : r.hasStatus .succeeded = true ∨ r.hasStatus .failed = true

/-- What settling the jobs of some rows leaves: each of them is leased once more and ended, other
rows are as they were, and a world is activated when the last of its jobs succeeded. -/
structure Drained (rows : List JobRow) (db db' : Database) : Prop where
  jobs : ∃ settle : JobRow → JobRow, db'.jobs = db.jobs.map settle ∧
    (∀ q ∈ rows, q.Ended (settle q)) ∧ ∀ q ∈ db.jobs, q ∉ rows → settle q = q
  activated : ∀ id w last, db.LiveWorld id w → last.IsLastOf id rows → db'.HasSucceeded last →
    db'.HasWorld id .active (w.version + 1)
  kept : ∀ id, (∀ last, last.IsLastOf id rows → ¬ db'.HasSucceeded last) → db.SameWorld db' id

namespace Drained

theorem nil (db : Database) : Drained [] db db where
  jobs := ⟨id, (List.map_id _).symm, by simp, fun _ _ _ => rfl⟩
  activated id w last _ hlast := absurd hlast.1 List.not_mem_nil
  kept id _ r _ := Iff.rfl

variable {s s₁ : Studio} {row : JobRow} {rest : List JobRow} {job : Job}
  {answer : Except EngineError String} {db' : Database}

/-- The jobs after a round and those that follow it. -/
theorem cons_jobs (hs : s.AtRest) (hread : s.db.Readable) (heligible : s.db.eligible = row :: rest)
    (hround : Round s row job answer s₁) (h : Drained rest s₁.db db') :
    ∃ settle : JobRow → JobRow, db'.jobs = s.db.jobs.map settle ∧
      (∀ q ∈ row :: rest, q.Ended (settle q)) ∧
      (∀ q ∈ s.db.jobs, q ∉ row :: rest → settle q = q) ∧ row.SettledAs answer (settle row) := by
  obtain ⟨r, hsettled, hjobs⟩ := hround.settled
  obtain ⟨settle, hrest, hended, hkept⟩ := h.jobs
  obtain ⟨_, heligible'⟩ := hround.atRest hs hread heligible
  have hmem : ∀ q ∈ row :: rest, q ∈ s.db.jobs := fun q hq =>
    (Database.mem_eligible.1 (heligible ▸ hq)).1
  have hrow := hmem row List.mem_cons_self
  have hdistinct := List.nodup_cons.1 (heligible ▸ Database.nodup_eligible hs.sound.jobIds)
  obtain ⟨first, hfirst, hself, hother⟩ : ∃ first : JobRow → JobRow,
      s₁.db.jobs = s.db.jobs.map first ∧ first row = r ∧
        ∀ q ∈ s.db.jobs, q ≠ row → first q = q :=
    ⟨_, hjobs, if_pos rfl, fun q hq hne => if_neg fun heq =>
      hne (eq_of_jobId hs.sound.jobIds hq hrow heq)⟩
  have hafter : ∀ q ∈ s.db.jobs, first q ∈ s₁.db.jobs := fun q hq => by
    rw [hfirst]
    exact List.mem_map_of_mem hq
  -- The settled row does not wait, so no later round takes it.
  have hsettle : settle (first row) = r := by
    rw [hself]
    refine hkept r (hself ▸ hafter row hrow) fun hr => ?_
    have hwaiting := (Database.mem_eligible.1 (heligible'.symm ▸ hr)).2.1
    have hdone := hsettled.isOutstanding_eq
    rw [JobRow.isOutstanding, hwaiting] at hdone
    cases hdone
  refine ⟨settle ∘ first, by rw [hrest, hfirst, List.map_map], fun q hq => ?_,
    fun q hq hq' => ?_, ?_⟩
  · rw [Function.comp_apply]
    rcases List.mem_cons.1 hq with rfl | hq'
    · obtain ⟨n, hn, hlt⟩ := hs.sound.attempts q hrow
      rw [hsettle]
      refine ⟨hsettled.names_eq, ⟨n, hn, ?_⟩, hsettled.terminal⟩
      rw [hsettled.attempts_eq, hn, Cell.successor_of_attempts hlt]
      rfl
    · rw [hother q (hmem q hq) fun heq => hdistinct.1 (heq ▸ hq')]
      exact hended q hq'
  · rw [List.mem_cons, not_or] at hq'
    have hsame := hother q hq hq'.1
    rw [Function.comp_apply, hsame]
    exact hkept q (hsame ▸ hafter q hq) hq'.2
  · rw [Function.comp_apply, hsettle]
    exact hsettled

/-- The job of the first row succeeded exactly if its call gave content. -/
theorem hasSucceeded_cons (hs : s.AtRest) (hread : s.db.Readable)
    (heligible : s.db.eligible = row :: rest) (hround : Round s row job answer s₁)
    (h : Drained rest s₁.db db') :
    db'.HasSucceeded row ↔ ∃ content, answer = .ok content := by
  obtain ⟨settle, hjobs, hended, hkept, hsettled⟩ := cons_jobs hs hread heligible hround h
  have hrow : row ∈ s.db.jobs :=
    (Database.mem_eligible.1 (heligible ▸ List.mem_cons_self)).1
  rw [← hsettled.hasStatus_succeeded]
  constructor
  · rintro ⟨r, hr, hid, hsucceeded⟩
    rw [hjobs] at hr
    obtain ⟨q, hq, rfl⟩ := List.mem_map.1 hr
    -- Settling keeps names, so this is the row.
    have hname : (settle q).id = q.id := by
      by_cases hq' : q ∈ row :: rest
      · exact (hended q hq').names.1
      · rw [hkept q hq hq']
    rwa [eq_of_jobId hs.sound.jobIds hq hrow (hname.symm.trans hid)] at hsucceeded
  · intro hsucceeded
    refine ⟨settle row, ?_, hsettled.names_eq.1, hsucceeded⟩
    rw [hjobs]
    exact List.mem_map_of_mem hrow

/-- While a row of a live world follows, the world has something left to do. -/
theorem outstanding_iff (hs : s₁.AtRest) (heligible : s₁.db.eligible = rest) {id : WorldId}
    (hlive : s₁.db.hasLive (.text id.text) = true) :
    (∃ r ∈ s₁.db.jobs, r.world = .text id.text ∧ r.isOutstanding = true) ↔
      ∃ r ∈ rest, r.world = .text id.text := by
  rw [← heligible]
  constructor
  · rintro ⟨r, hr, hworld, houtstanding⟩
    have hwaiting := (JobRow.isOutstanding_iff.1 houtstanding).resolve_right
      (by rw [hs.idle r hr]; simp)
    exact ⟨r, Database.mem_eligible.2 ⟨hr, hwaiting, hworld ▸ hlive⟩, hworld⟩
  · rintro ⟨r, hr, hworld⟩
    obtain ⟨hmem, hwaiting, _⟩ := Database.mem_eligible.1 hr
    exact ⟨r, hmem, hworld, JobRow.isOutstanding_iff.2 (Or.inl hwaiting)⟩

/-- A round and those that follow it leave what settling all their rows leaves. -/
theorem cons (hs : s.AtRest) (hread : s.db.Readable) (heligible : s.db.eligible = row :: rest)
    (hnames : row.world = .text job.world.text) (hround : Round s row job answer s₁)
    (h : Drained rest s₁.db db') : Drained (row :: rest) s.db db' := by
  obtain ⟨hs₁, heligible'⟩ := hround.atRest hs hread heligible
  have hsucceeded := hasSucceeded_cons hs hread heligible hround h
  have hbefore := (List.pairwise_cons.1 (heligible ▸ Database.pairwise_eligible hs.sound.jobIds
    hs.sequenced (Round.placed hread))).1
  have hlive : s₁.db.hasLive (.text job.world.text) = true := by
    rw [hround.worlds.hasLive_eq, ← hnames]
    exact (Database.mem_eligible.1 (heligible ▸ List.mem_cons_self)).2.2
  have hopen := outstanding_iff hs₁ heligible' hlive
  have hworld {id : WorldId} (hrow : row.world = .text id.text) : id = job.world :=
    WorldId.eq_of_text (Cell.text.inj (hrow.symm.trans hnames))
  -- Only the round of the last row of a world, if it succeeds, changes the world.
  have hsame {id : WorldId} (hid : row.IsLastOf id (row :: rest) → ¬ ∃ content,
      answer = .ok content) : s.db.SameWorld s₁.db id := by
    by_cases heq : id = job.world
    · subst heq
      intro r _
      cases hround.worlds with
      | kept _ hkept => rw [hkept]
      | activated now hok hdone _ _ =>
        have hnone : ∀ r ∈ rest, r.world ≠ .text job.world.text := fun r hr hrow => by
          obtain ⟨q, hq, hqworld, hqopen⟩ := hopen.2 ⟨r, hr, hrow⟩
          rw [hdone q hq hqworld] at hqopen
          cases hqopen
        exact absurd ⟨_, hok⟩ (hid (.of_only hnames hnone))
    · exact hround.worlds.sameWorld_of_ne heq
  refine ⟨?_, fun id w last hlive' hlast hlastSucceeded => ?_, fun id hnone => ?_⟩
  · obtain ⟨settle, hjobs, hended, hkept, _⟩ := cons_jobs hs hread heligible hround h
    exact ⟨settle, hjobs, hended, hkept⟩
  · by_cases hmem : last ∈ rest
    · have hkept : s.db.SameWorld s₁.db id := hsame fun hrow =>
        absurd hlast.2.1 (hrow.only hbefore last hmem)
      exact h.activated id w last (hlive'.of_sameWorld hs₁.sound.worldIds hkept)
        (hlast.of_cons hmem) hlastSucceeded
    · obtain rfl : last = row := (List.mem_cons.1 hlast.1).resolve_right hmem
      have honly := hlast.only hbefore
      obtain rfl := hworld hlast.2.1
      have hafter : s₁.db.SameWorld db' job.world :=
        h.kept job.world fun last' hlast' => absurd hlast'.2.1 (honly last' hlast'.1)
      obtain ⟨content, hok⟩ := hsucceeded.1 hlastSucceeded
      cases hround.worlds with
      | kept hkept _ =>
        rcases hkept with ⟨cause, hcause⟩ | hkept
        · rw [hok] at hcause
          cases hcause
        · obtain ⟨r, hr, hrow⟩ := hopen.1 hkept
          exact absurd hrow (honly r hr)
      | @activated v _ now _ _ hfound hactive =>
        obtain rfl : v = w := hfound.unique hlive'
        have hactivated : s₁.db.HasWorld job.world .active (v.version + 1) :=
          hlive'.hasWorld (v := v.activate now) hlive'.id_eq hactive
        exact hactivated.of_sameWorld hafter
  · have hfirst : s.db.SameWorld s₁.db id := hsame fun hrow hok =>
      hnone row hrow (hsucceeded.2 hok)
    have hrest : s₁.db.SameWorld db' id := h.kept id fun last hlast =>
      hnone last (hlast.cons hbefore)
    exact fun r hr => (hrest r hr).trans (hfirst r hr)

end Drained

/-! ## Rounds one after the other -/

/-- What a worker counted between two moments in which it settled so many jobs and then found
nothing to do once. -/
structure WorkerStats.Counted (before : WorkerStats) (jobs : Nat) (after : WorkerStats) : Prop where
  settled : after.succeeded + after.failed = before.succeeded + before.failed + jobs
  idlePolls : after.idlePolls = before.idlePolls + 1
  leaseLost : after.leaseLost = before.leaseLost
  storeErrors : after.storeErrors = before.storeErrors
  recovered : after.recovered = before.recovered

theorem WorkerStats.Counted.of_record {before after : WorkerStats} {jobs : Nat} {job : Job}
    {answer : Except EngineError String} {outcome : QueueOutcome} (ho : outcome.Reports job answer)
    (h : (before.record outcome).Counted jobs after) : before.Counted (jobs + 1) after := by
  have hsettled := h.settled
  cases ho with
  | succeeded content activated =>
    refine ⟨?_, h.idlePolls, h.leaseLost, h.storeErrors, h.recovered⟩
    simp only [WorkerStats.record] at hsettled
    omega
  | failed cause =>
    refine ⟨?_, h.idlePolls, h.leaseLost, h.storeErrors, h.recovered⟩
    simp only [WorkerStats.record] at hsettled
    omega

theorem QueueOutcome.Reports.settled {job : Job} {answer : Except EngineError String}
    {outcome : QueueOutcome} (h : outcome.Reports job answer) : outcome.Settled job := by
  cases h with
  | succeeded content activated => exact .succeeded activated
  | failed cause => exact .failed cause.message

theorem QueueOutcome.Reports.isPause_eq {job : Job} {answer : Except EngineError String}
    {outcome : QueueOutcome} (h : outcome.Reports job answer) : outcome.isPause = false := by
  cases h <;> rfl

namespace Engine

/-- The studio after so many rounds of the queue. -/
def afterRounds (e : Engine) (g : Generator (StateM Studio)) : Nat → Studio → Studio
  | 0, s => s
  | k + 1, s => afterRounds e g k ((e.processQueue g : StateM Studio _) s).2

theorem afterRounds_succ (e : Engine) (g : Generator (StateM Studio)) (k : Nat) (s : Studio) :
    e.afterRounds g (k + 1) s = ((e.processQueue g : StateM Studio _) (e.afterRounds g k s)).2 := by
  induction k generalizing s with
  | zero => rfl
  | succ k ih => exact ih ((e.processQueue g : StateM Studio _) s).2

/-- A round leases the job of a row, which counts one attempt more, and settles it. -/
def TakesNext (e : Engine) (g : Generator (StateM Studio)) (s : Studio) (row : JobRow) : Prop :=
  ∃ job t, (takeJob : StateM Studio _) s = (.ok (some job), t) ∧ row.id = .text job.id.text ∧
    (∃ n : Nat, row.attempts = .int n ∧ job.attempts = n + 1) ∧
    ((e.processQueue g : StateM Studio _) s).1.Settled job

/-- A round that finds nothing to lease is idle. -/
theorem processQueue_of_nil (e : Engine) (g : Generator (StateM Studio)) {s : Studio}
    (hs : s.AtRest) (heligible : s.db.eligible = []) :
    (e.processQueue g : StateM Studio _) s = (.idle, s.ticked) := by
  unfold processQueue
  rw [StateM.bind_run, takeJob_of_nil hs.sound hs.idle heligible]
  rfl

/-- The rounds take the eligible rows in order. -/
theorem rounds_of_eligible (e : Engine) {g : Generator (StateM Studio)} (hg : g.Quiet)
    {rows : List JobRow} {s : Studio} (hs : s.AtRest) (heligible : s.db.eligible = rows)
    (hread : ∀ k < rows.length, (e.afterRounds g k s).Readable) :
    (∀ k row, rows[k]? = some row → e.TakesNext g (e.afterRounds g k s) row) ∧
      (e.afterRounds g rows.length s).AtRest ∧ (e.afterRounds g rows.length s).db.eligible = [] ∧
      Drained rows s.db (e.afterRounds g rows.length s).db := by
  induction rows generalizing s with
  | nil => exact ⟨by simp, hs, heligible, .nil s.db⟩
  | cons row rest ih =>
    have hfirst : s.Readable := hread 0 (by simp)
    obtain ⟨job, t, outcome, s₁, htake, htaken, hrun, hreports, hround⟩ :=
      e.round_of_eligible hg hs.sound hfirst hs.idle heligible
    have hafter : ((e.processQueue g : StateM Studio _) s).2 = s₁ := congrArg Prod.snd hrun
    obtain ⟨hs₁, hrest⟩ := hround.atRest hs hfirst.rows heligible
    obtain ⟨htakes, hend, hnil, hdrained⟩ := ih hs₁ hrest fun k hk => by
      have hk' := hread (k + 1) (by simpa using hk)
      rwa [afterRounds, hafter] at hk'
    rw [List.length_cons, afterRounds, hafter]
    refine ⟨fun k q hq => ?_, hend, hnil,
      .cons hs hfirst.rows heligible htaken.names.2.1 hround hdrained⟩
    cases k with
    | zero =>
      obtain rfl := Option.some.inj hq
      refine ⟨job, t, htake, htaken.names.1, htaken.attempts, ?_⟩
      rw [afterRounds, hrun]
      exact hreports.settled
    | succ k =>
      rw [afterRounds, hafter]
      exact htakes k q hq

theorem drainFrom_succ {e : Engine} {g : Generator (StateM Studio)} {s s' : Studio}
    {outcome : QueueOutcome} (hrun : (e.processQueue g : StateM Studio _) s = (outcome, s'))
    (stats : WorkerStats) (limit : Nat) :
    drainFrom e g stats (limit + 1) s =
      if outcome.isPause then ((stats.record outcome, true), s')
      else drainFrom e g (stats.record outcome) limit s' := by
  rw [drainFrom, StateM.bind_run, hrun]
  split <;> rfl

/-- Draining with room for one round more than there are eligible rows ends after that round, and
with less it does not end. -/
theorem drainFrom_of_eligible (e : Engine) {g : Generator (StateM Studio)} (hg : g.Quiet)
    {rows : List JobRow} {s : Studio} (hs : s.AtRest) (heligible : s.db.eligible = rows)
    (hread : ∀ k < rows.length, (e.afterRounds g k s).Readable) (stats : WorkerStats)
    (limit : Nat) :
    (limit ≤ rows.length → (drainFrom e g stats limit s).1.2 = false) ∧
      (rows.length < limit → ∃ after, stats.Counted rows.length after ∧
        drainFrom e g stats limit s = ((after, true), e.afterRounds g (rows.length + 1) s)) := by
  induction limit generalizing rows s stats with
  | zero => exact ⟨fun _ => rfl, fun h => absurd h (by omega)⟩
  | succ limit ih =>
    cases rows with
    | nil =>
      have hidle := e.processQueue_of_nil g hs heligible
      refine ⟨fun h => absurd h (by simp), fun _ => ⟨stats.record .idle, ⟨rfl, rfl, rfl, rfl, rfl⟩,
        ?_⟩⟩
      rw [drainFrom_succ hidle, if_pos (show QueueOutcome.idle.isPause = true from rfl),
        List.length_nil, afterRounds_succ, afterRounds, hidle]
    | cons row rest =>
      have hfirst : s.Readable := hread 0 (by simp)
      obtain ⟨job, t, outcome, s₁, _, _, hrun, hreports, hround⟩ :=
        e.round_of_eligible hg hs.sound hfirst hs.idle heligible
      obtain ⟨hs₁, hrest⟩ := hround.atRest hs hfirst.rows heligible
      have hnext : ∀ k, e.afterRounds g (k + 1) s = e.afterRounds g k s₁ := fun k => by
        rw [afterRounds, hrun]
      obtain ⟨hshort, hlong⟩ := ih hs₁ hrest
        (fun k hk => hnext k ▸ hread (k + 1) (by simpa using hk)) (stats.record outcome)
      rw [drainFrom_succ hrun, hreports.isPause_eq, if_neg (by simp), List.length_cons, hnext]
      refine ⟨fun h => hshort (by omega), fun h => ?_⟩
      obtain ⟨after, hcounted, hdrain⟩ := hlong (by omega)
      exact ⟨after, hcounted.of_record hreports, hdrain⟩

/-! ## Draining -/

/-- Draining accounts for every job that can be leased. -/
structure Drains (e : Engine) (g : Generator (StateM Studio)) (s : Studio) : Prop where
  ascending : s.db.eligible.Pairwise fun a b => a.place < b.place
  /-- Each round but the last one leases one of the jobs. -/
  leases : ∀ k row, s.db.eligible[k]? = some row → e.TakesNext g (e.afterRounds g k s) row
  /-- It stops after one round more than there are jobs, and not before. -/
  stops : ∀ limit, s.db.eligible.length < limit → ∃ stats : WorkerStats,
    WorkerStats.Counted {} s.db.eligible.length stats ∧
      drain e g limit s = ((stats, true), e.afterRounds g (s.db.eligible.length + 1) s)
  continues : ∀ limit ≤ s.db.eligible.length, (drain e g limit s).1.2 = false
  drained : Drained s.db.eligible s.db (e.afterRounds g (s.db.eligible.length + 1) s).db
  /-- A world is activated exactly when its last job succeeded. -/
  activates : ∀ id w last, s.db.LiveWorld id w → last.IsLastOf id s.db.eligible →
    ((e.afterRounds g (s.db.eligible.length + 1) s).db.HasWorld id .active (w.version + 1) ↔
      (e.afterRounds g (s.db.eligible.length + 1) s).db.HasSucceeded last)

theorem drains_of_atRest (e : Engine) {g : Generator (StateM Studio)} (hg : g.Quiet) {s : Studio}
    (hs : s.AtRest) (hread : ∀ k < s.db.eligible.length, (e.afterRounds g k s).Readable) :
    e.Drains g s := by
  obtain ⟨htakes, hend, hnil, hdrained⟩ := e.rounds_of_eligible hg hs rfl hread
  have hascending : s.db.eligible.Pairwise fun a b => a.place < b.place := by
    cases heligible : s.db.eligible with
    | nil => exact .nil
    | cons row rest =>
      have hfirst : s.Readable := hread 0 (by simp [heligible])
      rw [← heligible]
      exact Database.pairwise_eligible hs.sound.jobIds hs.sequenced (Round.placed hfirst.rows)
  have hdb : (e.afterRounds g (s.db.eligible.length + 1) s).db =
      (e.afterRounds g s.db.eligible.length s).db := by
    rw [afterRounds_succ, e.processQueue_of_nil g hend hnil]
    rfl
  have hdrain := e.drainFrom_of_eligible hg hs rfl hread {}
  rw [← hdb] at hdrained
  refine ⟨hascending, htakes, fun limit => (hdrain limit).2, fun limit => (hdrain limit).1,
    hdrained, fun id w last hlive hlast =>
      ⟨fun hactive => ?_, hdrained.activated id w last hlive hlast⟩⟩
  -- A world whose last job did not succeed has the version that it had.
  by_contra hfailed
  have hsame := hdrained.kept id fun last' hlast' => hlast.unique hascending hlast' ▸ hfailed
  have hsound : (e.afterRounds g (s.db.eligible.length + 1) s).db.Sound := hdb ▸ hend.sound
  have hversion := (hlive.of_sameWorld hsound.worldIds hsame).version_eq hsound.worldIds hactive
  omega

/-- Whatever happened before, draining accounts for every job that can be leased, as long as no job
runs and the rows can be read. -/
theorem drains (past : Engine) (events : List Event) (e : Engine) {g : Generator (StateM Studio)}
    (hg : g.Quiet) (hidle : ∀ r ∈ (System.run past events).studio.db.jobs,
      r.hasStatus .running = false)
    (hread : ∀ k < (System.run past events).studio.db.eligible.length,
      (e.afterRounds g k (System.run past events).studio).Readable) :
    e.Drains g (System.run past events).studio :=
  e.drains_of_atRest hg ⟨(System.Sound.run past events).db, System.sequenced past events, hidle⟩
    hread

/-- Draining the queue of a world that was just published. -/
theorem drains_published :
    let s := (System.run .minimal [.createFirst, .publishFirst]).studio
    s.db.eligible.length = 1 ∧
      Engine.minimal.Drains (fun _ _ => pure (some (.ok "prose"))) s :=
  ⟨by decide +kernel, drains .minimal [.createFirst, .publishFirst] .minimal
    (fun _ _ _ => rfl) (by decide +kernel) (by decide +kernel)⟩

end Engine

end Lorebook
