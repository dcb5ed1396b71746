import Lorebook.Proofs.ExactPublication
import Lorebook.Proofs.Legibility
import Lorebook.Proofs.QueueOrder
import Lorebook.Proofs.Readability
import Lorebook.Proofs.TextBytes

set_option autoImplicit false

/-! # What a lease takes

A lease takes the waiting job of a live world that is least by the bytes of its world's name and
then by its number, while no job runs anywhere, and the row of that job is the only one that it
changes (`Database.leasesNext`). It gives the job back only if the row can be read with one attempt
more: the attempts of a job end at 32 bits, and a waiting job that was leased as often as it can be
stands in the way of all the others. -/

namespace Lorebook

/-! ## The least row -/

/-- The row comes before another in the queue of all worlds: the name of its world has the lesser
bytes, or the world is the same and the number is less. -/
def JobRow.Precedes (a b : JobRow) : Prop :=
  ∃ (v w : String) (m n : Int), a.world = .text v ∧ b.world = .text w ∧ a.sequence = .int m ∧
    b.sequence = .int n ∧ (Text.bytes v < Text.bytes w ∨ v = w ∧ m < n)

theorem JobRow.Placed.precedes {a b : JobRow} (ha : a.Placed) (hb : b.Placed)
    (h : a.place < b.place) : a.Precedes b := by
  obtain ⟨v, m, hv, hm⟩ := ha
  obtain ⟨w, n, hw, hn⟩ := hb
  simp only [place, hv, hw, hm, hn, Prod.Lex.toLex_lt_toLex] at h
  exact ⟨v, w, m, n, hv, hw, hm, hn, h.imp_left Text.bytes_lt⟩

theorem JobRow.Precedes.asymm {a b : JobRow} (h : a.Precedes b) : ¬ b.Precedes a := by
  rintro ⟨w', v', n', m', hw', hv', hn', hm', hba⟩
  obtain ⟨v, w, m, n, hv, hw, hm, hn, hab⟩ := h
  obtain rfl := Cell.text.inj (hv.symm.trans hv')
  obtain rfl := Cell.text.inj (hw.symm.trans hw')
  obtain rfl := Cell.int.inj (hm.symm.trans hm')
  obtain rfl := Cell.int.inj (hn.symm.trans hn')
  rcases hab, hba with ⟨hlt | ⟨rfl, hlt⟩, hlt' | ⟨hworld, hlt'⟩⟩
  · exact List.lt_asymm hlt hlt'
  · exact List.lt_irrefl _ (hworld ▸ hlt)
  · exact List.lt_irrefl _ hlt'
  · exact lt_asymm hlt hlt'

namespace Database

variable {db : Database}

/-- The row is the least of the waiting rows of live worlds. -/
structure IsNext (db : Database) (row : JobRow) : Prop where
  stored : row ∈ db.jobs
  waiting : row.hasStatus .waiting = true
  live : db.hasLive row.world = true
  least : ∀ r ∈ db.jobs, r.hasStatus .waiting = true → db.hasLive r.world = true → r ≠ row →
    row.Precedes r

theorem IsNext.unique {a b : JobRow} (ha : db.IsNext a) (hb : db.IsNext b) : a = b := by
  by_contra hne
  exact (ha.least b hb.stored hb.waiting hb.live (Ne.symm hne)).asymm
    (hb.least a ha.stored ha.waiting ha.live hne)

theorem isNext_of_head? (hids : (db.jobs.map (·.id)).Nodup) (hsequenced : db.Sequenced)
    (hplaced : ∀ r ∈ db.jobs, r.Placed) {row : JobRow} (h : db.eligible.head? = some row) :
    db.IsNext row := by
  obtain ⟨rest, heligible⟩ := List.head?_eq_some_iff.1 h
  obtain ⟨hstored, hwaiting, hlive⟩ := mem_eligible.1 (heligible ▸ List.mem_cons_self)
  have hordered := pairwise_eligible hids hsequenced hplaced
  rw [heligible, List.pairwise_cons] at hordered
  refine ⟨hstored, hwaiting, hlive, fun r hr hrwaiting hrlive hne => ?_⟩
  have hmem : r ∈ row :: rest := heligible ▸ mem_eligible.2 ⟨hr, hrwaiting, hrlive⟩
  exact (hplaced row hstored).precedes (hplaced r hr)
    (hordered.1 r ((List.mem_cons.1 hmem).resolve_left hne))

/-- Some row is next where one is eligible. -/
theorem exists_isNext (hids : (db.jobs.map (·.id)).Nodup) (hsequenced : db.Sequenced)
    (hplaced : ∀ r ∈ db.jobs, r.Placed) {r : JobRow} (hr : r ∈ db.jobs)
    (hwaiting : r.hasStatus .waiting = true) (hlive : db.hasLive r.world = true) :
    ∃ row, db.IsNext row := by
  have hmem : r ∈ db.eligible := mem_eligible.2 ⟨hr, hwaiting, hlive⟩
  cases hhead : db.eligible.head? with
  | none =>
    rw [List.head?_eq_none_iff.1 hhead] at hmem
    cases hmem
  | some row => exact ⟨row, isNext_of_head? hids hsequenced hplaced hhead⟩

/-- What a lease takes is the least row, while no job runs. -/
theorem nextRow?_eq_some_iff (hids : (db.jobs.map (·.id)).Nodup) (hsequenced : db.Sequenced)
    (hplaced : ∀ r ∈ db.jobs, r.Placed) {row : JobRow} : Jobs.nextRow? db = some row ↔
      (∀ r ∈ db.jobs, r.hasStatus .running = false) ∧ db.IsNext row := by
  by_cases hidle : ∀ r ∈ db.jobs, r.hasStatus .running = false
  · rw [nextRow?_eq_head? hidle, and_iff_right hidle]
    refine ⟨isNext_of_head? hids hsequenced hplaced, fun hnext => ?_⟩
    cases hhead : db.eligible.head? with
    | none =>
      have hmem := mem_eligible.2 ⟨hnext.stored, hnext.waiting, hnext.live⟩
      rw [List.head?_eq_none_iff.1 hhead] at hmem
      cases hmem
    | some r =>
      rw [(isNext_of_head? hids hsequenced hplaced hhead).unique hnext]
  · have hrunning : db.jobs.any (·.hasStatus .running) = true := by
      simp only [not_forall, Bool.not_eq_false] at hidle
      obtain ⟨r, hr, hrunning⟩ := hidle
      exact List.any_eq_true.2 ⟨r, hr, hrunning⟩
    rw [Jobs.nextRow?_of_running hrunning]
    exact ⟨fun h => (nomatch h), fun h => absurd h.1 hidle⟩

/-- A lease takes nothing while a job runs or none of a live world waits. -/
theorem nextRow?_eq_none_iff (hids : (db.jobs.map (·.id)).Nodup) (hsequenced : db.Sequenced)
    (hplaced : ∀ r ∈ db.jobs, r.Placed) : Jobs.nextRow? db = none ↔
      (∃ r ∈ db.jobs, r.hasStatus .running = true) ∨
        ∀ r ∈ db.jobs, r.hasStatus .waiting = true → db.hasLive r.world = false := by
  constructor
  · intro hnone
    by_contra hsome
    simp only [not_or, not_exists, not_and, Bool.not_eq_true, not_forall, Bool.not_eq_false]
      at hsome
    obtain ⟨hidle, r, hr, hwaiting, hlive⟩ := hsome
    obtain ⟨row, hleast⟩ := exists_isNext hids hsequenced hplaced hr hwaiting hlive
    rw [(nextRow?_eq_some_iff hids hsequenced hplaced).2 ⟨hidle, hleast⟩] at hnone
    cases hnone
  · intro h
    cases hrow : Jobs.nextRow? db with
    | none => rfl
    | some row =>
      obtain ⟨hidle, hleast⟩ := (nextRow?_eq_some_iff hids hsequenced hplaced).1 hrow
      rcases h with ⟨r, hr, hrunning⟩ | hnone
      · rw [hidle r hr] at hrunning
        cases hrunning
      · have hlive := hleast.live
        rw [hnone row hleast.stored hleast.waiting] at hlive
        cases hlive

/-! ## Leasing -/

/-- The database once a row of it was leased; all else stays. -/
def withLeased (db : Database) (now : Instant) (row : JobRow) : Database :=
  { db with
    jobs := db.jobs.map fun r =>
      if r = row then Jobs.leased (.text (Rfc3339.stored now)) row else r }

/-- What a lease takes and what it gives. -/
structure LeasesNext (db : Database) (now : Instant) : Prop where
  /-- A job is given back exactly where no job runs and the least row can be read once it is leased;
  the row of that job is leased, and no other is changed. -/
  returns : ∀ job db', Yields (Jobs.leaseNext now) db (some job) db' ↔
    (∀ r ∈ db.jobs, r.hasStatus .running = false) ∧
      ∃ row, db.IsNext row ∧ (Jobs.leased (.text (Rfc3339.stored now)) row).decode = .ok job ∧
        db' = db.withLeased now row
  /-- There is a least row where a job of a live world waits. -/
  next : (∃ row, db.IsNext row) ↔
    ∃ r ∈ db.jobs, r.hasStatus .waiting = true ∧ db.hasLive r.world = true
  /-- A row can be read once it is leased if there is room for one attempt more. -/
  readable : now.InEra → ∀ row ∈ db.jobs,
    ((∃ job, (Jobs.leased (.text (Rfc3339.stored now)) row).decode = .ok job) ↔
      ∃ n : Nat, row.attempts = .int n ∧ n + 1 < twoPow 32)
  /-- Nothing is given back, and nothing is changed, where a job runs or none of a live world
  waits. -/
  idle : ∀ db', Yields (Jobs.leaseNext now) db none db' ↔
    ((∃ r ∈ db.jobs, r.hasStatus .running = true) ∨
      ∀ r ∈ db.jobs, r.hasStatus .waiting = true → db.hasLive r.world = false) ∧ db' = db

theorem readable_leased_iff (hrows : db.Readable) {now : Instant} (hnow : now.InEra)
    {row : JobRow} (hrow : row ∈ db.jobs) :
    (∃ job, (Jobs.leased (.text (Rfc3339.stored now)) row).decode = .ok job) ↔
      ∃ n : Nat, row.attempts = .int n ∧ n + 1 < twoPow 32 := by
  obtain ⟨j, hj⟩ := hrows.jobs row hrow
  have hreads := JobRow.decode_eq_ok.1 hj
  constructor
  · rintro ⟨job, hjob⟩
    refine ⟨j.attempts, hreads.attempts, ?_⟩
    have hleased := JobRow.decode_eq_ok.1 hjob
    rw [← attempts_of_leased hreads.attempts hreads.attempts_lt hjob]
    exact hleased.attempts_lt
  · rintro ⟨n, hn, hlt⟩
    obtain rfl : j.attempts = n := by
      have heq := hreads.attempts.symm.trans hn
      exact Int.ofNat.inj (Cell.int.inj heq)
    exact ⟨_, JobRow.decode_eq_ok.2 (hreads.leased hlt hnow)⟩

theorem apply_lease (hids : (db.jobs.map (·.id)).Nodup) {row : JobRow} (hrow : row ∈ db.jobs)
    (now : Instant) : (Write.lease row now).apply db = db.withLeased now row := by
  have hjobs : (Write.lease row now).onJobs db.jobs = (db.withLeased now row).jobs := by
    refine List.map_congr_left fun r hr => ?_
    by_cases hsame : r = row
    · rw [hsame, if_pos rfl]
      exact if_pos rfl
    · rw [if_neg hsame]
      exact if_neg fun hid => hsame (eq_of_jobId hids hr hrow hid)
  rw [Write.apply, hjobs]
  rfl

/-- Nothing is given back only where there is no next row. -/
theorem nextRow?_of_leaseNext_none (hrows : db.Readable) {now : Instant} {db' : Database}
    (h : Yields (Jobs.leaseNext now) db none db') : Jobs.nextRow? db = none := by
  simp only [Jobs.leaseNext, yields_bind, Statement.yields_needs, yields_get] at h
  obtain ⟨_, _, ⟨_, rfl⟩, _, _, ⟨_, rfl⟩, _, db, ⟨rfl, rfl⟩, h⟩ := h
  cases hnext : Jobs.nextRow? db with
  | none => rfl
  | some row =>
    obtain ⟨j, hj⟩ := hrows.jobs row (Jobs.mem_of_nextRow? hnext).1
    have hnull : ¬ row.id.isNull = true := by
      rw [(JobRow.holds_of_decode hj).id]
      simp [Cell.isNull]
    simp only [hnext, if_neg hnull, yields_bind, yields_modify, yields_pure] at h
    obtain ⟨_, _, _, _, _, _, hjob, _⟩ := h
    cases hjob

/-- A lease takes the least of the waiting rows of live worlds. -/
theorem leasesNext (hkeyed : db.Keyed) (hrows : db.Readable) (hsequenced : db.Sequenced)
    (now : Instant) : db.LeasesNext now := by
  have hplaced : ∀ r ∈ db.jobs, r.Placed := fun r hr => by
    obtain ⟨j, hj⟩ := hrows.jobs r hr
    exact (JobRow.holds_of_decode hj).placed
  have hnext (row : JobRow) : Jobs.nextRow? db = some row ↔
      (∀ r ∈ db.jobs, r.hasStatus .running = false) ∧ db.IsNext row :=
    nextRow?_eq_some_iff hkeyed.jobIds hsequenced hplaced
  refine ⟨fun job db' => ⟨fun h => ?_, ?_⟩, ⟨?_, ?_⟩, fun hnow _ => readable_leased_iff hrows hnow,
    fun db' => ⟨fun h => ?_, ?_⟩⟩
  · rcases Jobs.journal_leaseNext h with ⟨hnone, _⟩ | ⟨row, j, hjob, hjournal, hdecode⟩
    · cases hnone
    · obtain ⟨⟨hrow, _⟩, hdb⟩ := Journal.cons_iff.1 hjournal
      obtain ⟨hidle, hleast⟩ := (hnext row).1 hrow
      obtain rfl := Option.some.inj hjob
      refine ⟨hidle, row, hleast, hdecode, ?_⟩
      rw [Journal.nil_iff.1 hdb, apply_lease hkeyed.jobIds hleast.stored]
  · rintro ⟨hidle, row, hleast, hdecode, rfl⟩
    rw [← apply_lease hkeyed.jobIds hleast.stored]
    exact Jobs.yields_leaseNext_some hkeyed.complete ((hnext row).2 ⟨hidle, hleast⟩) hdecode
  · rintro ⟨row, hleast⟩
    exact ⟨row, hleast.stored, hleast.waiting, hleast.live⟩
  · rintro ⟨r, hr, hwaiting, hlive⟩
    exact exists_isNext hkeyed.jobIds hsequenced hplaced hr hwaiting hlive
  · refine ⟨(nextRow?_eq_none_iff hkeyed.jobIds hsequenced hplaced).1
      (nextRow?_of_leaseNext_none hrows h), ?_⟩
    rcases Jobs.journal_leaseNext h with ⟨_, hsame⟩ | ⟨_, _, hjob, _⟩
    · exact hsame
    · cases hjob
  · rintro ⟨hidle, rfl⟩
    exact Jobs.yields_leaseNext_none hkeyed.complete
      ((nextRow?_eq_none_iff hkeyed.jobIds hsequenced hplaced).2 hidle) now

/-- A database whose one job waits and was leased as often as a job can be. -/
def exhausted : Database :=
  { empty with
    worlds := [.ofWorld (.new (.mint 0) ⟨"u"⟩ "Aster" (.ofDay 0))]
    jobs := [{ JobRow.ofJob (.newWaiting (.mint 1) (.mint 0) "lore" 1 (.ofDay 0)) with
      attempts := .int (twoPow 32 - 1) }] }

/-- Though the rows can be read, no job runs and one of a live world waits, no job is given back:
one attempt more cannot be read. -/
theorem leaseNext_exhausted : exhausted.Keyed ∧ exhausted.Readable ∧ exhausted.Sequenced ∧
    (∀ r ∈ exhausted.jobs, r.hasStatus .running = false) ∧
    (∃ r ∈ exhausted.jobs, r.hasStatus .waiting = true ∧ exhausted.hasLive r.world = true) ∧
    ∀ job db', ¬ Yields (Jobs.leaseNext (.ofDay 0)) exhausted (some job) db' := by
  have hkeyed : exhausted.Keyed := by decide +kernel
  have hrows : exhausted.Readable := by decide +kernel
  have hsequenced : exhausted.Sequenced := List.nodup_singleton _
  refine ⟨hkeyed, hrows, hsequenced, by decide +kernel, by decide +kernel, fun job db' h => ?_⟩
  have hleases := leasesNext hkeyed hrows hsequenced (.ofDay 0)
  obtain ⟨_, row, hnext, hdecode, _⟩ := (hleases.returns job db').1 h
  obtain ⟨n, hn, hlt⟩ := (hleases.readable (by decide) row hnext.stored).1 ⟨job, hdecode⟩
  rw [List.mem_singleton.1 hnext.stored, Cell.int.injEq] at hn
  have hpow : twoPow 32 = 4294967296 := rfl
  omega

end Database

end Lorebook
