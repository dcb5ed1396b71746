import Lorebook.Proofs.ExactPublication
import Lorebook.Proofs.Timestamps

set_option autoImplicit false

/-! # Rows that stay legible

Everything that the engine writes it can read again, while the times that it writes lie in years of
four digits: lists and maps survive their JSON text, statuses their words and instants their
timestamps. `Database.Legible` says that the rows can be read and that what is written back from
them can be too; every write that is itself legible keeps it (`Database.Legible.journal`). -/

namespace Lorebook

/-! ## Cells -/

theorem Cell.holdsTime_stored {t : Instant} (h : t.InEra) :
    (Cell.text (Rfc3339.stored t)).HoldsTime t :=
  ⟨_, rfl, Rfc3339.parse?_stored h⟩

theorem Cell.holdsTime?_ofTime {t : Option Instant} (h : ∀ u ∈ t, u.InEra) :
    (Cell.ofTime t).HoldsTime? t := by
  cases t with
  | none => rfl
  | some u => exact holdsTime_stored (h u rfl)

/-! ## Legible rows -/

/-- The row can be read, and so can the time of publication when it is written back. -/
def WorldRow.Legible (r : WorldRow) : Prop :=
  ∃ w, r.Reads w ∧ ∀ t ∈ w.publishedAt, t.InEra

/-- The module was made in the era under one of the first names. -/
structure WorldModule.Legible (names : Nat) (m : WorldModule) : Prop where
  createdAt : m.createdAt.InEra
  named : ∃ n < names, m.id = .mint n

/-- The row can be read as a module of the era under one of the first names. -/
def ModuleRow.Legible (names : Nat) (r : ModuleRow) : Prop :=
  ∃ m, r.Reads m ∧ m.Legible names

/-- The row can be read. -/
def JobRow.Legible (r : JobRow) : Prop :=
  ∃ j, r.Reads j

/-- The rows can be read, and what is written back from them can be read again. Names of modules are
among the first ones that were given out. -/
structure Database.Legible (names : Nat) (db : Database) : Prop where
  worlds : ∀ r ∈ db.worlds, r.Legible
  modules : ∀ r ∈ db.modules, r.Legible names
  jobs : ∀ r ∈ db.jobs, r.Legible

theorem Database.legible_empty : Database.empty.Legible 0 where
  worlds r hr := by cases hr
  modules r hr := by cases hr
  jobs r hr := by cases hr

theorem WorldModule.Legible.mono {n k : Nat} {m : WorldModule} (h : m.Legible n) (hle : n ≤ k) :
    m.Legible k := by
  obtain ⟨i, hi, hid⟩ := h.named
  exact ⟨h.createdAt, i, Nat.lt_of_lt_of_le hi hle, hid⟩

namespace Database.Legible

variable {n k : Nat} {db : Database}

theorem mono (h : db.Legible n) (hle : n ≤ k) : db.Legible k :=
  ⟨h.worlds, fun r hr => (h.modules r hr).imp fun _ hm => ⟨hm.1, hm.2.mono hle⟩, h.jobs⟩

theorem readable (h : db.Legible n) : db.Readable where
  worlds r hr := (h.worlds r hr).imp fun _ hw => WorldRow.decode_eq_ok.2 hw.1
  modules r hr := (h.modules r hr).imp fun _ hm => ModuleRow.decode_eq_ok.2 hm.1
  jobs r hr := (h.jobs r hr).imp fun _ hj => JobRow.decode_eq_ok.2 hj

/-- A live world of a legible database was published in the era, if it was. -/
theorem publishedAt (h : db.Legible n) {id : WorldId} {w : World} (hlive : db.LiveWorld id w) :
    ∀ t ∈ w.publishedAt, t.InEra := by
  obtain ⟨row, hfind, hdecode⟩ := hlive
  obtain ⟨v, hreads, hpublished⟩ := h.worlds row (List.mem_of_find?_eq_some hfind)
  obtain rfl := Except.ok.inj (hdecode.symm.trans (WorldRow.decode_eq_ok.2 hreads))
  exact hpublished

theorem stored (h : db.Legible n) {world : WorldId} {key : String} {m : WorldModule}
    (hm : db.StoredModule world key m) : m.Legible n := by
  obtain ⟨row, hfind, hdecode⟩ := hm
  obtain ⟨m', hreads, hlegible⟩ := h.modules row (List.mem_of_find?_eq_some hfind)
  obtain rfl := Except.ok.inj (hdecode.symm.trans (ModuleRow.decode_eq_ok.2 hreads))
  exact hlegible

end Database.Legible

/-! ## Rows that are written -/

/-- The row of a world that was made in the era and never published or deleted. -/
theorem WorldRow.reads_ofWorld {w : World} (hcreated : w.createdAt.InEra)
    (hupdated : w.updatedAt.InEra) (hpublished : ∀ t ∈ w.publishedAt, t.InEra)
    (hdeleted : ∀ t ∈ w.deletedAt, t.InEra) : (ofWorld w).Reads w where
  toHolds := holds_ofWorld w
  themes := ⟨_, rfl, Json.decode_strings w.themes⟩
  publishedAt := Cell.holdsTime?_ofTime hpublished
  createdAt := Cell.holdsTime_stored hcreated
  updatedAt := Cell.holdsTime_stored hupdated
  deletedAt := Cell.holdsTime?_ofTime hdeleted

/-- A row that a world was written over can be read as the world, under the name, the owner and the
time of creation that it had. -/
theorem WorldRow.Reads.overwritten {r : WorldRow} {w v : World} (h : r.Reads w)
    (hupdated : v.updatedAt.InEra) (hpublished : ∀ t ∈ v.publishedAt, t.InEra) :
    (Worlds.overwritten v r).Reads
      { v with
        id := w.id
        owner := w.owner
        createdAt := w.createdAt
        deletedAt := w.deletedAt } where
  id := h.id
  owner := h.owner
  name := rfl
  tagline := rfl
  status := rfl
  version := rfl
  themes := ⟨_, rfl, Json.decode_strings v.themes⟩
  publishedAt := Cell.holdsTime?_ofTime hpublished
  createdAt := h.createdAt
  updatedAt := Cell.holdsTime_stored hupdated
  deletedAt := h.deletedAt

theorem WorldRow.Reads.hidden {r : WorldRow} {w : World} (h : r.Reads w) {now : Instant}
    (hnow : now.InEra) :
    { r with
      deletedAt := .text (Rfc3339.stored now)
      updatedAt := .text (Rfc3339.stored now) }.Reads
      { w with deletedAt := some now, updatedAt := now } where
  toHolds := ⟨h.id, h.owner, h.name, h.tagline, h.status, h.version⟩
  themes := h.themes
  publishedAt := h.publishedAt
  createdAt := h.createdAt
  updatedAt := Cell.holdsTime_stored hnow
  deletedAt := Cell.holdsTime_stored hnow

theorem ModuleRow.reads_ofModule {m : WorldModule} (hcreated : m.createdAt.InEra)
    (hupdated : m.updatedAt.InEra) : (ofModule m).Reads m where
  toHolds := holds_ofModule m
  lastEditor := rfl
  createdAt := Cell.holdsTime_stored hcreated
  updatedAt := Cell.holdsTime_stored hupdated

theorem JobRow.reads_ofJob {j : Job} (hnew : j.IsNew) (hsequence : j.sequence < twoPow 32)
    (hcreated : j.createdAt.InEra) : (ofJob j).Reads j := by
  rw [hnew]
  exact {
    toHolds := holds_ofJob _
    type := rfl
    sequence_lt := hsequence
    attempts_lt := (by decide : 0 < twoPow 32)
    startedAt := rfl
    finishedAt := rfl
    createdAt := Cell.holdsTime_stored hcreated
    updatedAt := Cell.holdsTime_stored hcreated }

namespace JobRow.Reads

variable {r : JobRow} {j : Job} {now : Instant}

theorem succeeded (h : r.Reads j) (hnow : now.InEra) :
    (Jobs.succeeded (.text (Rfc3339.stored now)) r).Reads
      { j with status := .succeeded, lastError := none, finishedAt := some now, updatedAt := now }
    where
  toHolds := ⟨h.id, h.world, h.moduleKey, h.sequence, rfl, h.attempts, rfl⟩
  type := h.type
  sequence_lt := h.sequence_lt
  attempts_lt := h.attempts_lt
  startedAt := h.startedAt
  finishedAt := Cell.holdsTime_stored hnow
  createdAt := h.createdAt
  updatedAt := Cell.holdsTime_stored hnow

theorem failed (h : r.Reads j) (message : String) (hnow : now.InEra) :
    (Jobs.failed message (.text (Rfc3339.stored now)) r).Reads
      { j with
        status := .failed
        lastError := some message
        finishedAt := some now
        updatedAt := now } where
  toHolds := ⟨h.id, h.world, h.moduleKey, h.sequence, rfl, h.attempts, rfl⟩
  type := h.type
  sequence_lt := h.sequence_lt
  attempts_lt := h.attempts_lt
  startedAt := h.startedAt
  finishedAt := Cell.holdsTime_stored hnow
  createdAt := h.createdAt
  updatedAt := Cell.holdsTime_stored hnow

theorem requeued (h : r.Reads j) (hnow : now.InEra) :
    (Jobs.requeued (.text (Rfc3339.stored now)) r).Reads
      { j with
        status := .waiting
        lastError := none
        startedAt := none
        finishedAt := none
        updatedAt := now } where
  toHolds := ⟨h.id, h.world, h.moduleKey, h.sequence, rfl, h.attempts, rfl⟩
  type := h.type
  sequence_lt := h.sequence_lt
  attempts_lt := h.attempts_lt
  startedAt := rfl
  finishedAt := rfl
  createdAt := h.createdAt
  updatedAt := Cell.holdsTime_stored hnow

/-- A row can be read once it is leased in the era, if it was leased fewer times than a job can
be. -/
theorem leased (h : r.Reads j) (hattempts : j.attempts + 1 < twoPow 32) (hnow : now.InEra) :
    (Jobs.leased (.text (Rfc3339.stored now)) r).Reads
      { j with
        status := .running
        attempts := j.attempts + 1
        startedAt := some now
        finishedAt := none
        updatedAt := now } where
  toHolds := by
    refine ⟨h.id, h.world, h.moduleKey, h.sequence, rfl, ?_, h.lastError⟩
    show r.attempts.successor = _
    rw [h.attempts, Cell.successor_of_attempts h.attempts_lt]
    rfl
  type := h.type
  sequence_lt := h.sequence_lt
  attempts_lt := hattempts
  startedAt := Cell.holdsTime_stored hnow
  finishedAt := rfl
  createdAt := h.createdAt
  updatedAt := Cell.holdsTime_stored hnow

end JobRow.Reads

/-! ## Legible writes -/

namespace Write

/-- What the write stores can be read again: its times lie in the era, a module has one of the first
names, and a new job has its place. -/
def Legible (names : Nat) : Write → Prop
  | addWorld w => w.createdAt.InEra ∧ w.updatedAt.InEra ∧ (∀ t ∈ w.publishedAt, t.InEra) ∧
      ∀ t ∈ w.deletedAt, t.InEra
  | changeWorld w => w.updatedAt.InEra ∧ ∀ t ∈ w.publishedAt, t.InEra
  | hideWorld _ now => now.InEra
  | saveModule m => m.Legible names ∧ m.updatedAt.InEra
  | addJob j => j.sequence < twoPow 32 ∧ j.createdAt.InEra
  | succeed _ now => now.InEra
  | fail _ _ now => now.InEra
  | requeue _ now => now.InEra
  | _ => True

variable {w : Write} {db : Database} {n : Nat}

theorem legible_worlds (hw : w.Legible n) (h : ∀ r ∈ db.worlds, r.Legible) :
    ∀ r ∈ w.onWorlds db.worlds, r.Legible := by
  cases w with
  | addWorld v =>
    intro r hr
    rcases List.mem_append.1 hr with hr | hr
    · exact h r hr
    · obtain ⟨hcreated, hupdated, hpublished, hdeleted⟩ := hw
      rw [List.mem_singleton.1 hr]
      exact ⟨v, WorldRow.reads_ofWorld hcreated hupdated hpublished hdeleted, hpublished⟩
  | changeWorld v =>
    intro r hr
    obtain ⟨q, hq, rfl⟩ := List.mem_map.1 hr
    split
    · obtain ⟨u, hreads, _⟩ := h q hq
      exact ⟨_, hreads.overwritten hw.1 hw.2, hw.2⟩
    · exact h q hq
  | hideWorld id now =>
    intro r hr
    obtain ⟨q, hq, rfl⟩ := List.mem_map.1 hr
    split
    · obtain ⟨u, hreads, hpublished⟩ := h q hq
      exact ⟨_, hreads.hidden hw, hpublished⟩
    · exact h q hq
  | removeWorld id => exact fun r hr => h r (List.mem_filter.1 hr).1
  | _ => exact h

theorem legible_modules (hw : w.Legible n) (h : ∀ r ∈ db.modules, r.Legible n) :
    ∀ r ∈ w.onModules db.modules, r.Legible n := by
  cases w with
  | saveModule m =>
    intro r hr
    simp only [onModules] at hr
    split at hr
    · obtain ⟨q, hq, rfl⟩ := List.mem_map.1 hr
      split
      · obtain ⟨u, hreads, hu⟩ := h q hq
        exact ⟨_, hreads.overwritten (Rfc3339.parse?_stored hw.2), ⟨hu.createdAt, hu.named⟩⟩
      · exact h q hq
    · rcases List.mem_append.1 hr with hr | hr
      · exact h r hr
      · rw [List.mem_singleton.1 hr]
        exact ⟨m, ModuleRow.reads_ofModule hw.1.createdAt hw.2, hw.1⟩
  | removeWorld id => exact fun r hr => h r (List.mem_filter.1 hr).1
  | _ => exact h

theorem legible_jobs (hallowed : w.Allowed db) (hw : w.Legible n) (h : ∀ r ∈ db.jobs, r.Legible) :
    ∀ r ∈ w.onJobs db.jobs, r.Legible := by
  intro r hr
  rcases mem_onJobs hr with ⟨q, hq, rfl⟩ | ⟨j, rfl, rfl⟩
  · obtain ⟨j, hreads⟩ := h q hq
    cases w with
    | lease row now =>
      simp only [onJob]
      split
      · obtain ⟨_, k, hk⟩ := hallowed
        exact ⟨k, JobRow.decode_eq_ok.1 hk⟩
      · exact ⟨j, hreads⟩
    | succeed id now =>
      simp only [onJob]
      split
      · exact ⟨_, hreads.succeeded hw⟩
      · exact ⟨j, hreads⟩
    | fail id message now =>
      simp only [onJob]
      split
      · exact ⟨_, hreads.failed message hw⟩
      · exact ⟨j, hreads⟩
    | requeue id now =>
      simp only [onJob]
      split
      · exact ⟨_, hreads.requeued hw⟩
      · exact ⟨j, hreads⟩
    | _ => exact ⟨j, hreads⟩
  · exact ⟨j, JobRow.reads_ofJob hallowed.1 hw.1 hw.2⟩

end Write

namespace Database.Legible

variable {n : Nat} {db db' : Database}

theorem apply (h : db.Legible n) {w : Write} (hallowed : w.Allowed db) (hw : w.Legible n) :
    (w.apply db).Legible n where
  worlds := Write.legible_worlds hw h.worlds
  modules := Write.legible_modules hw h.modules
  jobs := Write.legible_jobs hallowed hw h.jobs

/-- Legible writes keep a database legible. -/
theorem journal (h : db.Legible n) {ws : List Write} (hws : ∀ w ∈ ws, w.Legible n)
    (hjournal : Journal db ws db') : db'.Legible n :=
  hjournal.invariant (fun w hw _ hallowed hd => hd.apply hallowed (hws w hw)) h

end Database.Legible

end Lorebook
