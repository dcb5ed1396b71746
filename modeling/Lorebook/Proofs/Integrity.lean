import Lorebook.Proofs.Effects
import Mathlib.Algebra.Group.Nat.Defs
import Mathlib.Data.List.Nodup

set_option autoImplicit false

/-! # What every write keeps

The tables have no two rows of one name, at most one job runs, and what runs can be read. Each
write that a database allows keeps this (`Database.Sound.apply`), so it holds in every system that
is reached from an empty database, together with what ties the calls in flight to the rows of their
jobs (`System.Sound`). -/

namespace Lorebook

/-! ## Job rows -/

/-- A write replaces, drops or adds rows of jobs. -/
theorem Write.onJobs_cases (w : Write) (rows : List JobRow) :
    (∃ j, w = .addJob j) ∨
      (∃ world, (w = .clearQueue world ∨ w = .removeWorld world) ∧
        w.onJobs rows = rows.filter fun r => !r.world.isText world.text) ∨
      w.onJobs rows = rows.map w.onJob := by
  cases w with
  | addJob j => exact Or.inl ⟨j, rfl⟩
  | clearQueue world => exact Or.inr (Or.inl ⟨world, Or.inl rfl, rfl⟩)
  | removeWorld world => exact Or.inr (Or.inl ⟨world, Or.inr rfl, rfl⟩)
  | lease row now => exact Or.inr (Or.inr rfl)
  | succeed id now => exact Or.inr (Or.inr rfl)
  | fail id message now => exact Or.inr (Or.inr rfl)
  | requeue id now => exact Or.inr (Or.inr rfl)
  | _ => exact Or.inr (Or.inr (List.map_id' rows).symm)

/-- A row after a write is a row before it, as the write leaves it, or that of a new job. -/
theorem Write.mem_onJobs {w : Write} {rows : List JobRow} {r : JobRow} (h : r ∈ w.onJobs rows) :
    (∃ r₀ ∈ rows, r = w.onJob r₀) ∨ ∃ j, w = .addJob j ∧ r = JobRow.ofJob j := by
  rcases w.onJobs_cases rows with ⟨j, rfl⟩ | ⟨world, hw, heq⟩ | heq
  · rcases List.mem_append.1 h with h | h
    · exact Or.inl ⟨r, h, rfl⟩
    · exact Or.inr ⟨j, rfl, List.mem_singleton.1 h⟩
  · rw [heq] at h
    refine Or.inl ⟨r, (List.mem_filter.1 h).1, ?_⟩
    rcases hw with rfl | rfl <;> rfl
  · rw [heq] at h
    obtain ⟨r₀, hr₀, rfl⟩ := List.mem_map.1 h
    exact Or.inl ⟨r₀, hr₀, rfl⟩

/-- Rows of one name are one row. -/
theorem eq_of_jobId {rows : List JobRow} (hids : (rows.map (·.id)).Nodup) {a b : JobRow}
    (ha : a ∈ rows) (hb : b ∈ rows) (h : a.id = b.id) : a = b :=
  List.inj_on_of_nodup_map hids ha hb h

/-- The row that is leased is a waiting row of the table, and none runs. -/
theorem mem_of_lease {row : JobRow} {now : Instant} {db : Database}
    (h : (Write.lease row now).Allowed db) :
    row ∈ db.jobs ∧ row.hasStatus .waiting = true ∧
      ∀ r ∈ db.jobs, r.hasStatus .running = false := by
  obtain ⟨hnext, _⟩ := h
  obtain ⟨hmem, hwaiting⟩ := Jobs.mem_of_nextRow? hnext
  refine ⟨hmem, hwaiting, fun r hr => ?_⟩
  cases hrunning : r.hasStatus .running with
  | false => rfl
  | true =>
    rw [Jobs.nextRow?_of_running (List.any_eq_true.2 ⟨r, hr, hrunning⟩)] at hnext
    cases hnext

theorem not_running_of_isNew {j : Job} (h : j.IsNew) :
    (JobRow.ofJob j).hasStatus .running = false := by
  have hwaiting : j.status = .waiting := by
    rw [h]
    rfl
  cases hrunning : (JobRow.ofJob j).hasStatus .running with
  | false => rfl
  | true =>
    rw [(JobRow.holds_ofJob j).hasStatus_iff, hwaiting] at hrunning
    cases hrunning

@[simp] theorem Jobs.not_running_succeeded (time : Cell) (r : JobRow) :
    (succeeded time r).hasStatus .running = false := by
  simp [JobRow.hasStatus, Cell.isText, succeeded]
  decide

@[simp] theorem Jobs.not_running_failed (message : String) (time : Cell) (r : JobRow) :
    (failed message time r).hasStatus .running = false := by
  simp [JobRow.hasStatus, Cell.isText, failed]
  decide

@[simp] theorem Jobs.not_running_requeued (time : Cell) (r : JobRow) :
    (requeued time r).hasStatus .running = false := by
  simp [JobRow.hasStatus, Cell.isText, requeued]
  decide

/-- A write leaves the name of a job. -/
@[simp] theorem Write.id_onJob (w : Write) (r : JobRow) : (w.onJob r).id = r.id := by
  cases w with
  | lease row now =>
    simp only [onJob]
    split
    · rename_i hid
      exact hid.symm
    · rfl
  | succeed id now =>
    simp only [onJob]
    split <;> rfl
  | fail id message now =>
    simp only [onJob]
    split <;> rfl
  | requeue id now =>
    simp only [onJob]
    split <;> rfl
  | _ => rfl

/-- The job that a write settles or puts back in the queue. -/
def Write.job? : Write → Option JobId
  | succeed id _ => some id
  | fail id _ _ => some id
  | requeue id _ => some id
  | _ => none

/-- A write about one job leaves the rows of others. -/
theorem Write.onJob_of_ne {w : Write} {id : JobId} (hw : w.job? = some id) {r : JobRow}
    (h : r.id ≠ .text id.text) : w.onJob r = r := by
  cases w <;> cases hw <;>
    simp only [onJob, Cell.isText_eq_false_iff.2 h, Bool.false_and, Bool.false_eq_true, if_false]

/-- A write about one job changes rows of jobs and nothing else. -/
theorem Write.apply_of_job {w : Write} {id : JobId} (hw : w.job? = some id) (db : Database) :
    w.apply db = { db with jobs := db.jobs.map w.onJob } := by
  cases w <;> cases hw <;> rfl

/-- What a row is after a write on a database without two jobs of one name. -/
inductive JobChange (w : Write) (r : JobRow) : JobRow → Prop where
  | kept : JobChange w r r
  | leased (now : Instant) (h : r.hasStatus .waiting = true) (hw : w = .lease r now) :
      JobChange w r (Jobs.leased (.text (Rfc3339.stored now)) r)
  | succeeded (id : JobId) (now : Instant) (hid : r.id = .text id.text)
      (h : r.hasStatus .running = true) (hw : w = .succeed id now) :
      JobChange w r (Jobs.succeeded (.text (Rfc3339.stored now)) r)
  | failed (id : JobId) (message : String) (now : Instant) (hid : r.id = .text id.text)
      (h : r.hasStatus .running = true) (hw : w = .fail id message now) :
      JobChange w r (Jobs.failed message (.text (Rfc3339.stored now)) r)
  | requeued (id : JobId) (now : Instant) (hid : r.id = .text id.text)
      (h : r.hasStatus .running = false) (hw : w = .requeue id now) :
      JobChange w r (Jobs.requeued (.text (Rfc3339.stored now)) r)

theorem Write.jobChange {w : Write} {db : Database} (hw : w.Allowed db)
    (hids : (db.jobs.map (·.id)).Nodup) {r : JobRow} (hr : r ∈ db.jobs) :
    JobChange w r (w.onJob r) := by
  cases w with
  | lease row now =>
    obtain ⟨hmem, hwaiting, _⟩ := mem_of_lease hw
    simp only [onJob]
    split
    · rename_i hid
      obtain rfl := eq_of_jobId hids hr hmem hid
      exact .leased now hwaiting rfl
    · exact .kept
  | succeed id now =>
    simp only [onJob]
    split
    · rename_i h
      rw [Bool.and_eq_true, Cell.isText_iff] at h
      exact .succeeded id now h.1 h.2 rfl
    · exact .kept
  | fail id message now =>
    simp only [onJob]
    split
    · rename_i h
      rw [Bool.and_eq_true, Cell.isText_iff] at h
      exact .failed id message now h.1 h.2 rfl
    · exact .kept
  | requeue id now =>
    simp only [onJob]
    split
    · rename_i h
      rw [Bool.and_eq_true, Cell.isText_iff, Bool.not_eq_true'] at h
      exact .requeued id now h.1 h.2 rfl
    · exact .kept
  | _ => exact .kept

namespace JobChange

variable {w : Write} {r r' : JobRow}

/-- A write leaves what names a job. -/
theorem names_eq (h : JobChange w r r') :
    r'.id = r.id ∧ r'.world = r.world ∧ r'.moduleKey = r.moduleKey ∧ r'.sequence = r.sequence := by
  cases h <;> exact ⟨rfl, rfl, rfl, rfl⟩

/-- A row that runs after a write ran before it, unless the write leased it. -/
theorem running_of_running (h : JobChange w r r') (hr' : r'.hasStatus .running = true) :
    r' = r ∨ ∃ now, w = .lease r now ∧ r' = Jobs.leased (.text (Rfc3339.stored now)) r := by
  cases h with
  | kept => exact Or.inl rfl
  | leased now _ hw => exact Or.inr ⟨now, hw, rfl⟩
  | succeeded id now _ _ _ => simp at hr'
  | failed id message now _ _ _ => simp at hr'
  | requeued id now _ _ _ => simp at hr'

end JobChange

/-! ## Keys -/

section Keys

variable {ρ κ : Type} {rows : List ρ} {key : ρ → κ}

theorem nodup_filter (p : ρ → Bool) (h : (rows.map key).Nodup) :
    ((rows.filter p).map key).Nodup :=
  h.sublist (List.filter_sublist.map key)

theorem nodup_map {f : ρ → ρ} (hf : ∀ r ∈ rows, key (f r) = key r) (h : (rows.map key).Nodup) :
    ((rows.map f).map key).Nodup := by
  have hmap : (rows.map f).map key = rows.map key := by
    rw [List.map_map]
    exact List.map_congr_left hf
  rwa [hmap]

theorem nodup_concat {r : ρ} (hnew : ∀ q ∈ rows, key q ≠ key r) (h : (rows.map key).Nodup) :
    ((rows ++ [r]).map key).Nodup := by
  rw [List.map_append, List.nodup_append]
  refine ⟨h, by simp, ?_⟩
  intro a ha b hb heq
  obtain ⟨q, hq, rfl⟩ := List.mem_map.1 ha
  rw [List.map_singleton, List.mem_singleton] at hb
  exact hnew q hq (heq.trans hb)

/-- Among rows of distinct keys, at most one has a given key. -/
theorem countP_key_le_one [DecidableEq κ] (key : ρ → κ) (k : κ) (h : (rows.map key).Nodup) :
    rows.countP (fun r => key r = k) ≤ 1 := by
  have hcount : rows.countP (fun r => key r = k) = (rows.map key).count k := by
    rw [List.count, List.countP_map]
    congr 1
  rw [hcount]
  exact List.nodup_iff_count_le_one.1 h k

/-- Among rows of distinct keys, a row is found by what determines its key. -/
theorem find?_eq_some_of_key {p : ρ → Bool} (h : (rows.map key).Nodup)
    (hp : ∀ a b, p a = true → p b = true → key a = key b) {r : ρ} (hr : r ∈ rows)
    (hpr : p r = true) : rows.find? p = some r := by
  obtain ⟨q, hq⟩ := Option.isSome_iff_exists.1 (List.find?_isSome.2 ⟨r, hr, hpr⟩)
  rw [hq, List.inj_on_of_nodup_map h (List.mem_of_find?_eq_some hq) hr
    (hp q r (List.find?_some hq) hpr)]

end Keys

/-- Among rows of distinct names, the live row of a name is found. -/
theorem Worlds.find?_isLive {rows : List WorldRow} (h : (rows.map (·.id)).Nodup) {id : WorldId}
    {r : WorldRow} (hr : r ∈ rows) (hlive : isLive id r = true) :
    rows.find? (isLive id) = some r :=
  find?_eq_some_of_key h
    (fun _ _ ha hb => (isLive_iff.1 ha).1.trans (isLive_iff.1 hb).1.symm) hr hlive

/-- Among rows of distinct worlds and keys, the row of a module is found. -/
theorem Modules.find?_isOf {rows : List ModuleRow} (h : (rows.map fun r => (r.world, r.key)).Nodup)
    {world : WorldId} {key : String} {r : ModuleRow} (hr : r ∈ rows)
    (hof : isOf world key r = true) : rows.find? (isOf world key) = some r := by
  refine find?_eq_some_of_key h (fun a b ha hb => ?_) hr hof
  obtain ⟨hworld, hkey⟩ := isOf_iff.1 ha
  obtain ⟨hworld', hkey'⟩ := isOf_iff.1 hb
  rw [hworld, hkey, hworld', hkey']

namespace Write

variable {w : Write} {db : Database}

theorem nodup_worlds (hw : w.Allowed db) (h : (db.worlds.map (·.id)).Nodup) :
    ((w.onWorlds db.worlds).map (·.id)).Nodup := by
  cases w with
  | addWorld w => exact nodup_concat hw h
  | changeWorld w =>
    refine nodup_map (fun r _ => ?_) h
    split <;> rfl
  | hideWorld id now =>
    refine nodup_map (fun r _ => ?_) h
    split <;> rfl
  | removeWorld id => exact nodup_filter _ h
  | _ => exact h

theorem nodup_modules (hw : w.Allowed db)
    (h : (db.modules.map fun r => (r.world, r.key)).Nodup) :
    ((w.onModules db.modules).map fun r => (r.world, r.key)).Nodup := by
  cases w with
  | saveModule m =>
    simp only [onModules]
    split
    · refine nodup_map (fun r _ => ?_) h
      split <;> rfl
    · rename_i hnone
      refine nodup_concat (fun r hr heq => hnone (List.any_eq_true.2 ⟨r, hr, ?_⟩)) h
      rw [Prod.mk.injEq] at heq
      exact Modules.isOf_iff.2 heq
  | removeWorld id => exact nodup_filter _ h
  | _ => exact h

theorem nodup_jobs {κ : Type} {key : JobRow → κ} (hw : w.Allowed db)
    (hids : (db.jobs.map (·.id)).Nodup)
    (hkey : ∀ r r', JobChange w r r' → key r' = key r)
    (hnew : ∀ j, w = .addJob j → ∀ r ∈ db.jobs, key r ≠ key (JobRow.ofJob j))
    (h : (db.jobs.map key).Nodup) : ((w.onJobs db.jobs).map key).Nodup := by
  rcases w.onJobs_cases db.jobs with ⟨j, rfl⟩ | ⟨world, _, heq⟩ | heq
  · exact nodup_concat (hnew j rfl) h
  · rw [heq]
    exact nodup_filter _ h
  · rw [heq]
    exact nodup_map (fun r hr => hkey r _ (jobChange hw hids hr)) h

theorem nodup_jobKeys (hw : w.Allowed db) (hids : (db.jobs.map (·.id)).Nodup)
    (h : (db.jobs.map fun r => (r.world, r.moduleKey)).Nodup) :
    ((w.onJobs db.jobs).map fun r => (r.world, r.moduleKey)).Nodup := by
  refine nodup_jobs hw hids (fun r r' hc => ?_) (fun j hj r hr heq => ?_) h
  · obtain ⟨_, hworld, hkey, _⟩ := hc.names_eq
    rw [hworld, hkey]
  · subst hj
    rw [Prod.mk.injEq] at heq
    exact hw.2.1 r hr heq

theorem nodup_jobIds (hw : w.Allowed db) (h : (db.jobs.map (·.id)).Nodup) :
    ((w.onJobs db.jobs).map (·.id)).Nodup := by
  refine nodup_jobs hw h (fun r r' hc => hc.names_eq.1) (fun j hj r hr heq => ?_) h
  subst hj
  exact hw.2.2.1 r hr heq

/-- A write leaves at most one job running. -/
theorem running_le_one (hw : w.Allowed db) (hids : (db.jobs.map (·.id)).Nodup)
    (h : db.jobs.countP (·.hasStatus .running) ≤ 1) :
    (w.onJobs db.jobs).countP (·.hasStatus .running) ≤ 1 := by
  rcases w.onJobs_cases db.jobs with ⟨j, rfl⟩ | ⟨world, _, heq⟩ | heq
  · have hnew := not_running_of_isNew hw.1
    show (db.jobs ++ [JobRow.ofJob j]).countP (·.hasStatus .running) ≤ 1
    rw [List.countP_append, List.countP_singleton, hnew]
    exact h
  · rw [heq]
    exact Nat.le_trans (List.Sublist.countP_le List.filter_sublist) h
  · rw [heq, List.countP_map]
    by_cases hlease : ∃ row now, w = .lease row now
    · -- None ran before, so what runs is the row that was leased.
      obtain ⟨row, now, rfl⟩ := hlease
      obtain ⟨_, _, hnone⟩ := mem_of_lease hw
      refine Nat.le_trans (List.countP_mono_left (q := fun r => r.id = row.id) ?_)
        (countP_key_le_one JobRow.id row.id hids)
      intro r hr hrunning
      rcases (jobChange hw hids hr).running_of_running hrunning with heq | ⟨_, heq, _⟩
      · rw [Function.comp_apply, heq, hnone r hr] at hrunning
        cases hrunning
      · simp only [Write.lease.injEq] at heq
        simp [heq.1]
    · refine Nat.le_trans (List.countP_mono_left ?_) h
      intro r hr hrunning
      rcases (jobChange hw hids hr).running_of_running hrunning with heq | ⟨now, heq, _⟩
      · rwa [Function.comp_apply, heq] at hrunning
      · exact absurd ⟨r, now, heq⟩ hlease

end Write

/-! ## Sound databases -/

/-- No table is missing, names and keys are distinct, at most one job runs and can be read, and the
attempts are numbers. -/
structure Database.Sound (db : Database) : Prop where
  complete : db.dropped = []
  worldIds : (db.worlds.map (·.id)).Nodup
  moduleKeys : (db.modules.map fun r => (r.world, r.key)).Nodup
  jobKeys : (db.jobs.map fun r => (r.world, r.moduleKey)).Nodup
  jobIds : (db.jobs.map (·.id)).Nodup
  running : db.jobs.countP (·.hasStatus .running) ≤ 1
  readable : ∀ r ∈ db.jobs, r.hasStatus .running = true → ∃ j, r.decode = .ok j
  attempts : ∀ r ∈ db.jobs, ∃ n : Nat, r.attempts = .int n ∧ n < twoPow 32

theorem Database.sound_empty : Database.empty.Sound where
  complete := rfl
  worldIds := List.nodup_nil
  moduleKeys := List.nodup_nil
  jobKeys := List.nodup_nil
  jobIds := List.nodup_nil
  running := Nat.zero_le 1
  readable r hr := by cases hr
  attempts r hr := by cases hr

/-- Counting attempts up stays clear of the bound on integers. -/
theorem Cell.successor_of_attempts {n : Nat} (h : n < twoPow 32) :
    (Cell.int n).successor = .int (n + 1) := by
  refine Cell.successor_of_fits ?_
  have hpow : twoPow 32 < twoPow 63 := by decide
  simp only [Cell.fitsInt64, Bool.and_eq_true, decide_eq_true_eq]
  omega

/-- A leased row is one attempt on. -/
theorem attempts_of_leased {row : JobRow} {n : Nat} (hn : row.attempts = .int n)
    (hlt : n < twoPow 32) {time : Cell} {j : Job} (hj : (Jobs.leased time row).decode = .ok j) :
    j.attempts = n + 1 := by
  have hattempts : row.attempts.successor = .int j.attempts := (JobRow.holds_of_decode hj).attempts
  rw [hn, Cell.successor_of_attempts hlt, Cell.int.injEq] at hattempts
  omega

/-- Every write that a sound database allows leaves it sound. -/
theorem Database.Sound.apply {db : Database} (h : db.Sound) {w : Write} (hw : w.Allowed db) :
    (w.apply db).Sound where
  complete := h.complete
  worldIds := Write.nodup_worlds hw h.worldIds
  moduleKeys := Write.nodup_modules hw h.moduleKeys
  jobKeys := Write.nodup_jobKeys hw h.jobIds h.jobKeys
  jobIds := Write.nodup_jobIds hw h.jobIds
  running := Write.running_le_one hw h.jobIds h.running
  readable := by
    intro r hr hrunning
    rcases Write.mem_onJobs hr with ⟨r₀, hr₀, rfl⟩ | ⟨j, rfl, rfl⟩
    · rcases (Write.jobChange hw h.jobIds hr₀).running_of_running hrunning with heq |
        ⟨now, rfl, heq⟩
      · rw [heq] at hrunning ⊢
        exact h.readable r₀ hr₀ hrunning
      · rw [heq]
        exact hw.2
    · rw [not_running_of_isNew hw.1] at hrunning
      cases hrunning
  attempts := by
    intro r hr
    rcases Write.mem_onJobs hr with ⟨r₀, hr₀, rfl⟩ | ⟨j, rfl, rfl⟩
    · have hchange := Write.jobChange hw h.jobIds hr₀
      generalize w.onJob r₀ = r' at hchange
      cases hchange with
      | leased now _ hlease =>
        -- A lease is only allowed on a row that can be read after it.
        subst hlease
        obtain ⟨_, j, hj⟩ := hw
        exact ⟨j.attempts, (JobRow.holds_of_decode hj).attempts,
          JobRow.attempts_lt_of_decode hj⟩
      | kept => exact h.attempts r₀ hr₀
      | succeeded id now _ _ _ => exact h.attempts r₀ hr₀
      | failed id message now _ _ _ => exact h.attempts r₀ hr₀
      | requeued id now _ _ _ => exact h.attempts r₀ hr₀
    · refine ⟨j.attempts, rfl, ?_⟩
      rw [hw.1]
      exact Nat.two_pow_pos 32

theorem Database.Sound.journal {db db' : Database} {ws : List Write} (h : db.Sound)
    (hws : Journal db ws db') : db'.Sound :=
  hws.invariant (fun _ _ _ hw hdb => hdb.apply hw) h

/-! ## Names -/

theorem Text.hexDigit_inj {n m : Nat} (hn : n < 16) (hm : m < 16)
    (h : Text.hexDigit n = Text.hexDigit m) : n = m := by
  have hvalue := Json.hexValue?_hexDigit hn
  rw [h, Json.hexValue?_hexDigit hm] at hvalue
  exact (Option.some.inj hvalue).symm

/-- Padded digits tell numbers apart as far as they reach. -/
theorem Text.hexPadded_inj {width : Nat} : ∀ {n m : Nat}, n < 16 ^ width → m < 16 ^ width →
    Text.hexPadded width n = Text.hexPadded width m → n = m := by
  induction width with
  | zero => intro n m hn hm _; omega
  | succ width ih =>
    intro n m hn hm h
    rw [Nat.pow_succ] at hn hm
    obtain ⟨hrest, hlast⟩ := List.append_inj' h rfl
    have hhigh : n / 16 = m / 16 := ih (by omega) (by omega) hrest
    have hlow : n % 16 = m % 16 :=
      Text.hexDigit_inj (Nat.mod_lt _ (by omega)) (Nat.mod_lt _ (by omega))
        (List.singleton_inj.1 hlast)
    omega

theorem lt_pow_width (n : Nat) : n < 16 ^ max 12 (n.log2 / 4 + 1) := by
  have hbits : n < 2 ^ (n.log2 + 1) := Nat.lt_log2_self
  have hdigits : 2 ^ (n.log2 + 1) ≤ 2 ^ (4 * (n.log2 / 4 + 1)) :=
    Nat.pow_le_pow_right (by omega) (by omega)
  have hwidth : 16 ^ (n.log2 / 4 + 1) ≤ 16 ^ max 12 (n.log2 / 4 + 1) :=
    Nat.pow_le_pow_right (by omega) (Nat.le_max_right _ _)
  rw [Nat.pow_mul] at hdigits
  exact Nat.lt_of_lt_of_le hbits (Nat.le_trans hdigits hwidth)

/-- No number makes a name of a kind twice. -/
theorem mintedName_inj {kind : String} {n m : Nat} (h : mintedName kind n = mintedName kind m) :
    n = m := by
  have hchars : uuidChars n = uuidChars m := by
    have htext := String.ofList_injective h
    simpa using htext
  have hdigits := List.append_cancel_left hchars
  -- Equal texts are of equal length, so both numbers are written with the same width.
  have hwidth : max 12 (n.log2 / 4 + 1) = max 12 (m.log2 / 4 + 1) := by
    have hlen := congrArg List.length hdigits
    rwa [Text.length_hexPadded, Text.length_hexPadded] at hlen
  have hn := lt_pow_width n
  have hm := lt_pow_width m
  rw [hwidth] at hdigits hn
  exact Text.hexPadded_inj hn hm hdigits

theorem JobId.mint_inj {n m : Nat} (h : JobId.mint n = JobId.mint m) : n = m :=
  mintedName_inj (JobId.mk.inj h)

/-! ## Leases -/

/-- The job is running under the lease that it was given. -/
def Database.HoldsLease (db : Database) (job : Job) : Prop :=
  ∃ r ∈ db.jobs, r.id = .text job.id.text ∧ r.hasStatus .running = true ∧
    r.attempts = .int job.attempts

/-- The row of a leased job, if it is still there, is of the same module, and its attempts have not
gone back. -/
def Database.Tracks (db : Database) (job : Job) : Prop :=
  ∀ r ∈ db.jobs, r.id = .text job.id.text →
    r.world = .text job.world.text ∧ r.moduleKey = .text job.moduleKey ∧
      ∃ n : Nat, r.attempts = .int n ∧ job.attempts ≤ n

/-- Writes other than the addition of a job of the same name keep track of a job. -/
theorem Database.Tracks.apply {db : Database} {job : Job} (h : db.Tracks job) (hdb : db.Sound)
    {w : Write} (hw : w.Allowed db) (hfresh : ∀ j, w = .addJob j → j.id ≠ job.id) :
    (w.apply db).Tracks job := by
  intro r hr hid
  rcases Write.mem_onJobs hr with ⟨r₀, hr₀, rfl⟩ | ⟨j, rfl, rfl⟩
  · have hchange := Write.jobChange hw hdb.jobIds hr₀
    obtain ⟨hid₀, hworld₀, hkey₀, _⟩ := hchange.names_eq
    obtain ⟨hworld, hkey, n, hattempts, hle⟩ := h r₀ hr₀ (hid₀ ▸ hid)
    refine ⟨hworld₀.trans hworld, hkey₀.trans hkey, ?_⟩
    generalize w.onJob r₀ = r' at hchange
    cases hchange with
    | leased now _ hlease =>
      subst hlease
      obtain ⟨_, j, hj⟩ := hw
      obtain ⟨k, hk, hlt⟩ := hdb.attempts r₀ hr₀
      -- Both count the attempts of the row as it was.
      have hnk : n = k := by
        rw [hattempts, Cell.int.injEq] at hk
        omega
      have hnext := attempts_of_leased hk hlt hj
      exact ⟨j.attempts, (JobRow.holds_of_decode hj).attempts, by omega⟩
    | kept => exact ⟨n, hattempts, hle⟩
    | succeeded id now _ _ _ => exact ⟨n, hattempts, hle⟩
    | failed id message now _ _ _ => exact ⟨n, hattempts, hle⟩
    | requeued id now _ _ _ => exact ⟨n, hattempts, hle⟩
  · refine absurd ?_ (hfresh j rfl)
    exact JobId.eq_of_text (Cell.text.inj hid)

/-- After a lease, the row of the job is the leased one. -/
theorem row_of_lease {db : Database} (hdb : db.Sound) {row : JobRow} {now : Instant} {job : Job}
    (hw : (Write.lease row now).Allowed db)
    (hdecode : (Jobs.leased (.text (Rfc3339.stored now)) row).decode = .ok job) {r : JobRow}
    (hr : r ∈ ((Write.lease row now).apply db).jobs)
    (h : r.id = .text job.id.text ∨ r.hasStatus .running = true) : r.Holds job := by
  have hholds := JobRow.holds_of_decode hdecode
  obtain ⟨hmem, _, hnone⟩ := mem_of_lease hw
  obtain ⟨r₀, hr₀, rfl⟩ := List.mem_map.1 hr
  have hchange := Write.jobChange hw hdb.jobIds hr₀
  have hleased : r₀.id = row.id → (Write.lease row now).onJob r₀ =
      Jobs.leased (.text (Rfc3339.stored now)) row := fun hid => by
    simp only [Write.onJob, if_pos hid]
  -- A row of the job's name is the leased one, and so is a row that runs, as none ran before.
  rcases h with hid | hrunning
  · rw [hleased (hchange.names_eq.1 ▸ hid.trans hholds.id.symm)]
    exact hholds
  · rcases hchange.running_of_running hrunning with heq | ⟨now', heq, _⟩
    · rw [heq, hnone r₀ hr₀] at hrunning
      cases hrunning
    · rw [hleased (by rw [Write.lease.injEq] at heq; rw [heq.1])]
      exact hholds

/-! ## Sound systems -/

/-- The jobs that calls in flight or ended have leased. -/
def System.leases (s : System) : List Job :=
  s.calls.map (·.job)

theorem System.job_mem_leases {s : System} {i : Nat} {c : QueueCall} (hc : s.calls[i]? = some c) :
    c.job ∈ s.leases :=
  List.mem_map_of_mem (List.mem_of_getElem? hc)

/-- The database is sound; names of jobs have been given out; the calls keep track of their jobs,
and what runs is held by one of them. -/
structure System.Sound (s : System) : Prop where
  db : s.studio.db.Sound
  named : ∀ r ∈ s.studio.db.jobs, ∃ n < s.studio.minted, r.id = .text (JobId.mint n).text
  called : ∀ job ∈ s.leases, ∃ n < s.studio.minted, job.id = JobId.mint n
  tracked : ∀ job ∈ s.leases, s.studio.db.Tracks job
  held : ∀ r ∈ s.studio.db.jobs, r.hasStatus .running = true →
    ∃ job ∈ s.leases, r.id = .text job.id.text ∧ r.attempts = .int job.attempts

/-- What opens no call leases nothing. -/
theorem Effect.lease_notMem {e : Engine} {s : System} {ev : Event} {ws : List Write}
    (h : Effect e s ev [] ws) (row : JobRow) (now : Instant) : .lease row now ∉ ws := by
  cases h with
  | sweep hws =>
    intro hmem
    have hexpires := hws _ hmem
    cases hexpires
  | fail _ hm => simp [hm.notMem]
  | release _ hm => simp [hm.notMem]
  | retry _ _ _ _ _ _ => split <;> simp
  | complete _ _ _ _ _ _ _ => split <;> simp
  | _ => simp

namespace System.Sound

variable {e : Engine} {s s' : System} {ev : Event} {ws : List Write}

theorem initial : System.initial.Sound where
  db := Database.sound_empty
  named r hr := by cases hr
  called job hjob := by cases hjob
  tracked job hjob := by cases hjob
  held r hr := by cases hr

/-- The new jobs of a commit are none that was leased before. -/
theorem fresh (h : s.Sound) (hcommit : Commit s.studio s'.studio ws) :
    ∀ job ∈ s.leases, ∀ w ∈ ws, ∀ j, w = .addJob j → j.id ≠ job.id := by
  intro job hjob w hw j hj heq
  obtain ⟨n, hn, hid⟩ := h.called job hjob
  obtain ⟨k, hk, _, hid'⟩ := hcommit.fresh j (hj ▸ hw)
  have hnk : n = k := JobId.mint_inj (hid.symm.trans (heq.symm.trans hid'))
  omega

theorem named_of_commit (h : s.Sound) (hcommit : Commit s.studio s'.studio ws) :
    ∀ r ∈ s'.studio.db.jobs, ∃ n < s'.studio.minted, r.id = .text (JobId.mint n).text := by
  have hstep : ∀ w ∈ ws, ∀ db, w.Allowed db →
      (db.Sound ∧ ∀ r ∈ db.jobs, ∃ n < s'.studio.minted, r.id = .text (JobId.mint n).text) →
      ((w.apply db).Sound ∧
        ∀ r ∈ (w.apply db).jobs, ∃ n < s'.studio.minted, r.id = .text (JobId.mint n).text) := by
    intro w hmem db hw ⟨hdb, hnamed⟩
    refine ⟨hdb.apply hw, fun r hr => ?_⟩
    rcases Write.mem_onJobs hr with ⟨r₀, hr₀, rfl⟩ | ⟨j, rfl, rfl⟩
    · rw [(Write.jobChange hw hdb.jobIds hr₀).names_eq.1]
      exact hnamed r₀ hr₀
    · obtain ⟨n, _, hlt, hid⟩ := hcommit.fresh j hmem
      exact ⟨n, hlt, by rw [← hid]; rfl⟩
  refine (hcommit.journal.invariant (I := fun db => db.Sound ∧ ∀ r ∈ db.jobs,
    ∃ n < s'.studio.minted, r.id = .text (JobId.mint n).text) hstep ⟨h.db, fun r hr => ?_⟩).2
  obtain ⟨n, hlt, hid⟩ := h.named r hr
  exact ⟨n, Nat.lt_of_lt_of_le hlt hcommit.names, hid⟩

/-- A commit keeps track of the jobs that were leased before. -/
theorem tracked_of_commit (h : s.Sound) (hcommit : Commit s.studio s'.studio ws) :
    ∀ job ∈ s.leases, s'.studio.db.Tracks job := by
  intro job hjob
  have hstep : ∀ w ∈ ws, ∀ db, w.Allowed db → (db.Sound ∧ db.Tracks job) →
      ((w.apply db).Sound ∧ (w.apply db).Tracks job) := fun w hmem db hw ⟨hdb, htracks⟩ =>
    ⟨hdb.apply hw, htracks.apply hdb hw (h.fresh hcommit job hjob w hmem)⟩
  exact (hcommit.journal.invariant (I := fun db => db.Sound ∧ db.Tracks job) hstep
    ⟨h.db, h.tracked job hjob⟩).2

/-- What runs after writes that lease nothing ran before, in the same row. -/
theorem running_of_journal {db db' : Database} (hdb : db.Sound) (hws : Journal db ws db')
    (hlease : ∀ row now, .lease row now ∉ ws) :
    ∀ r ∈ db'.jobs, r.hasStatus .running = true → r ∈ db.jobs := by
  have hstep : ∀ w ∈ ws, ∀ d, w.Allowed d →
      (d.Sound ∧ ∀ r ∈ d.jobs, r.hasStatus .running = true → r ∈ db.jobs) →
      ((w.apply d).Sound ∧
        ∀ r ∈ (w.apply d).jobs, r.hasStatus .running = true → r ∈ db.jobs) := by
    intro w hmem d hw ⟨hd, hfrom⟩
    refine ⟨hd.apply hw, fun r hr hrunning => ?_⟩
    rcases Write.mem_onJobs hr with ⟨r₀, hr₀, rfl⟩ | ⟨j, rfl, rfl⟩
    · rcases (Write.jobChange hw hd.jobIds hr₀).running_of_running hrunning with heq |
        ⟨now, rfl, _⟩
      · rw [heq] at hrunning ⊢
        exact hfrom r₀ hr₀ hrunning
      · exact absurd hmem (hlease r₀ now)
    · rw [not_running_of_isNew hw.1] at hrunning
      cases hrunning
  exact (hws.invariant (I := fun d => d.Sound ∧
    ∀ r ∈ d.jobs, r.hasStatus .running = true → r ∈ db.jobs) hstep ⟨hdb, fun r hr _ => hr⟩).2

/-- Every event keeps a system sound. -/
theorem step (h : s.Sound) (e : Engine) (ev : Event) : (s.step e ev).Sound := by
  obtain ⟨opened, ws, heffect, hcommit, hcalls⟩ := s.step_effect e ev
  have hleases : (s.step e ev).leases = s.leases ++ opened := hcalls
  have htracked := h.tracked_of_commit hcommit
  have hcalled : ∀ job ∈ s.leases, ∃ n < (s.step e ev).studio.minted, job.id = JobId.mint n := by
    intro job hjob
    obtain ⟨n, hlt, hid⟩ := h.called job hjob
    exact ⟨n, Nat.lt_of_lt_of_le hlt hcommit.names, hid⟩
  -- The call that an event opens, if it opens one, holds the only row that runs.
  have hopened : (∀ job ∈ opened, (∃ n < (s.step e ev).studio.minted, job.id = JobId.mint n) ∧
      (s.step e ev).studio.db.Tracks job) ∧
      ∀ r ∈ (s.step e ev).studio.db.jobs, r.hasStatus .running = true →
        ∃ job ∈ s.leases ++ opened, r.id = .text job.id.text ∧ r.attempts = .int job.attempts := by
    by_cases hnone : opened = []
    · subst hnone
      refine ⟨by simp, fun r hr hrunning => ?_⟩
      have hr₀ := running_of_journal h.db hcommit.journal heffect.lease_notMem r hr hrunning
      rw [List.append_nil]
      exact h.held r hr₀ hrunning
    · cases heffect with
      | @lease job row now vs hdecode hmarks =>
        obtain ⟨hw, hrest⟩ := Journal.cons_iff.1 hcommit.journal
        have hjobs : (s.step e .lease).studio.db.jobs =
            ((Write.lease row now).apply s.studio.db).jobs := hrest.jobs_eq hmarks.onJobs_eq
        have hrow := fun r hr => row_of_lease h.db hw hdecode (r := r) (hjobs ▸ hr)
        refine ⟨fun j hj => ?_, fun r hr hrunning => ?_⟩
        · obtain rfl := List.mem_singleton.1 hj
          obtain ⟨n, hlt, hid⟩ := h.named row (mem_of_lease hw).1
          have hname : j.id = JobId.mint n := JobId.eq_of_text
            (Cell.text.inj ((JobRow.holds_of_decode hdecode).id.symm.trans hid))
          refine ⟨⟨n, Nat.lt_of_lt_of_le hlt hcommit.names, hname⟩, fun r hr hid => ?_⟩
          have hholds := hrow r hr (Or.inl hid)
          exact ⟨hholds.world, hholds.moduleKey, j.attempts, hholds.attempts, Nat.le_refl _⟩
        · have hholds := hrow r hr (Or.inr hrunning)
          exact ⟨job, by simp, hholds.id, hholds.attempts⟩
      | _ => exact absurd rfl hnone
  refine ⟨h.db.journal hcommit.journal, h.named_of_commit hcommit, ?_, ?_, ?_⟩
  · intro job hjob
    rw [hleases] at hjob
    rcases List.mem_append.1 hjob with hjob | hjob
    · exact hcalled job hjob
    · exact (hopened.1 job hjob).1
  · intro job hjob
    rw [hleases] at hjob
    rcases List.mem_append.1 hjob with hjob | hjob
    · exact htracked job hjob
    · exact (hopened.1 job hjob).2
  · rw [hleases]
    exact hopened.2

/-- What holds of the empty system and is kept by the events of a list on sound systems holds after
them. -/
theorem induction_of {P : System → Prop} (hinit : P System.initial) {events : List Event}
    (hstep : ∀ s, ∀ ev ∈ events, s.Sound → P s → P (s.step e ev)) : P (System.run e events) :=
  (run_induction_of (P := fun s => s.Sound ∧ P s) ⟨initial, hinit⟩
    fun s ev hev h => ⟨h.1.step e ev, hstep s ev hev h.1 h.2⟩).2

/-- Every system that is reached from an empty database is sound. -/
theorem run (e : Engine) (events : List Event) : (System.run e events).Sound :=
  run_induction initial (fun _ ev h => h.step e ev) events

end System.Sound

end Lorebook
