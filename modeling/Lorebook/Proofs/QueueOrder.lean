import Lorebook.Proofs.Consistency
import Mathlib.Data.List.Sort
import Mathlib.Data.Prod.Lex
import Mathlib.Data.String.Basic

set_option autoImplicit false

/-! # The order of the queue

A lease takes the first of the eligible rows, the waiting ones of live worlds. They stand in the
order of their places, which are the name of the world and the number in its queue: no two jobs have
the same place, whatever was published, rebuilt or retried (`System.sequenced`). Settling the first
eligible row leaves the others as they are. -/

namespace Lorebook

open Engine

/-! ## Sorting -/

/-- What is sorted by keys of an order is in the order of the keys. -/
theorem pairwise_mergeSort_of_key {α κ : Type} [LinearOrder κ] {le : α → α → Bool} {xs : List α}
    {key : α → κ} (h : ∀ a ∈ xs, ∀ b ∈ xs, le a b = decide (key a ≤ key b)) :
    (xs.mergeSort le).Pairwise fun a b => key a ≤ key b := by
  have hmap : (xs.mergeSort le).map key = (xs.map key).mergeSort fun x y => decide (x ≤ y) :=
    List.map_mergeSort h
  have hsorted := List.pairwise_mergeSort' (· ≤ ·) (xs.map key)
  rw [← hmap] at hsorted
  exact List.pairwise_map.1 hsorted

/-- Texts in cells are in the order of texts. -/
theorem Cell.notAfter_text (s t : String) : (text s).notAfter (.text t) = decide (s ≤ t) := by
  show (!decide (t < s)) = decide (s ≤ t)
  simp only [← not_lt, decide_not]

/-! ## Places -/

/-- The place of a job in the queue of all worlds. -/
def JobRow.place (r : JobRow) : String ×ₗ Int :=
  toLex (match r.world with | .text world => world | _ => "",
    match r.sequence with | .int n => n | _ => 0)

/-- The world and the sequence of the row are of their kinds. -/
def JobRow.Placed (r : JobRow) : Prop :=
  ∃ world n, r.world = .text world ∧ r.sequence = .int n

theorem JobRow.Holds.placed {r : JobRow} {j : Job} (h : r.Holds j) : r.Placed :=
  ⟨_, _, h.world, h.sequence⟩

theorem JobRow.Placed.place_eq {a b : JobRow} (ha : a.Placed) (hb : b.Placed)
    (h : a.place = b.place) : a.world = b.world ∧ a.sequence = b.sequence := by
  obtain ⟨v, n, hv, hn⟩ := ha
  obtain ⟨w, k, hw, hk⟩ := hb
  simp only [JobRow.place, hv, hw, hn, hk, EmbeddingLike.apply_eq_iff_eq, Prod.mk.injEq] at h
  rw [hv, hw, hn, hk, h.1, h.2]
  exact ⟨rfl, rfl⟩

namespace Jobs

/-- Rows are put in the order of their places. -/
theorem before_eq {a b : JobRow} (ha : a.Placed) (hb : b.Placed) :
    (a.world.before b.world || (a.world = b.world && a.sequence.notAfter b.sequence)) =
      decide (a.place ≤ b.place) := by
  obtain ⟨v, n, hv, hn⟩ := ha
  obtain ⟨w, k, hw, hk⟩ := hb
  rw [Bool.eq_iff_iff]
  simp [JobRow.place, hv, hw, hn, hk, Cell.before, Cell.notAfter, Cell.rank, Cell.ratio,
    Prod.Lex.toLex_le_toLex]

theorem pairwise_queueOrder {rows : List JobRow} (h : ∀ r ∈ rows, r.Placed) :
    (queueOrder rows).Pairwise fun a b => a.place ≤ b.place :=
  pairwise_mergeSort_of_key fun a ha b hb => before_eq (h a ha) (h b hb)

end Jobs

/-! ## Eligible rows -/

namespace Database

variable {db : Database} {r : JobRow}

/-- Whether a world of a name is live. -/
def hasLive (db : Database) (world : Cell) : Bool :=
  db.worlds.any fun w => w.id = world && w.deletedAt.isNull

/-- The rows that can be leased one after the other: the waiting ones of live worlds, in the order
of the queue. -/
def eligible (db : Database) : List JobRow :=
  (Jobs.withStatus .waiting db.jobs).filter fun j => db.hasLive j.world

/-- No two jobs of a world have the same number in its queue. -/
def Sequenced (db : Database) : Prop :=
  (db.jobs.map fun r => (r.world, r.sequence)).Nodup

theorem mem_eligible :
    r ∈ db.eligible ↔ r ∈ db.jobs ∧ r.hasStatus .waiting = true ∧ db.hasLive r.world = true := by
  rw [eligible, List.mem_filter, Jobs.mem_withStatus, and_assoc]

/-- While no job runs, a lease takes the first eligible row. -/
theorem nextRow?_eq_head? (h : ∀ r ∈ db.jobs, r.hasStatus .running = false) :
    Jobs.nextRow? db = db.eligible.head? := by
  have hidle : ¬ (db.jobs.any (·.hasStatus .running)) = true := by
    intro hany
    obtain ⟨r, hr, hrunning⟩ := List.any_eq_true.1 hany
    rw [h r hr] at hrunning
    cases hrunning
  rw [Jobs.nextRow?, if_neg hidle, eligible, List.head?_filter]
  rfl

theorem nodup_eligible (h : (db.jobs.map (·.id)).Nodup) : db.eligible.Nodup := by
  refine List.Nodup.filter _ ?_
  exact ((List.mergeSort_perm _ _).nodup_iff).2 ((h.of_map _).filter _)

/-- The eligible rows stand in the order of their places. -/
theorem pairwise_eligible (hids : (db.jobs.map (·.id)).Nodup) (hsequenced : db.Sequenced)
    (hplaced : ∀ r ∈ db.jobs, r.Placed) :
    db.eligible.Pairwise fun a b => a.place < b.place := by
  have hmem : ∀ r ∈ db.eligible, r ∈ db.jobs := fun r hr => (mem_eligible.1 hr).1
  have hle : db.eligible.Pairwise fun a b => a.place ≤ b.place :=
    (Jobs.pairwise_queueOrder fun r hr => hplaced r (List.mem_filter.1 hr).1).filter _
  have hne : db.eligible.Pairwise fun a b => a.place ≠ b.place := by
    refine (nodup_eligible hids).imp_of_mem fun {a b} ha hb hab heq => hab ?_
    obtain ⟨hworld, hsequence⟩ := (hplaced a (hmem a ha)).place_eq (hplaced b (hmem b hb)) heq
    exact List.inj_on_of_nodup_map hsequenced (hmem a ha) (hmem b hb) (by rw [hworld, hsequence])
  exact (List.pairwise_and_iff.2 ⟨hle, hne⟩).imp fun h => lt_of_le_of_ne h.1 h.2

/-- The rows that are eligible once the first one was settled are the others. -/
theorem eligible_of_settled {db' : Database} (hids : (db.jobs.map (·.id)).Nodup)
    (hsequenced : db.Sequenced) (hplaced : ∀ r ∈ db.jobs, r.Placed) {row settled : JobRow}
    {rest : List JobRow} (heligible : db.eligible = row :: rest) (hid : settled.id = row.id)
    (hworld : settled.world = row.world) (hsequence : settled.sequence = row.sequence)
    (hsettled : settled.hasStatus .waiting = false)
    (hjobs : db'.jobs = db.jobs.map fun r => if r.id = row.id then settled else r)
    (hlive : ∀ world, db'.hasLive world = db.hasLive world) : db'.eligible = rest := by
  have hrow : row ∈ db.jobs := (mem_eligible.1 (heligible ▸ List.mem_cons_self)).1
  have hsame : ∀ r ∈ db.jobs, r.id = row.id → r = row := fun r hr heq =>
    List.inj_on_of_nodup_map hids hr hrow heq
  -- Settling keeps names and places.
  have hkept {κ : Type} (key : JobRow → κ) (hkey : key settled = key row) :
      db'.jobs.map key = db.jobs.map key := by
    rw [hjobs, List.map_map]
    refine List.map_congr_left fun r hr => ?_
    rw [Function.comp_apply]
    split
    · rename_i heq
      rw [hkey, hsame r hr heq]
    · rfl
  have hids' : (db'.jobs.map (·.id)).Nodup := by rwa [hkept _ hid]
  have hsequenced' : db'.Sequenced := by
    rwa [Sequenced, hkept _ (by rw [hworld, hsequence])]
  have hplaced' : ∀ r ∈ db'.jobs, r.Placed := by
    intro r hr
    rw [hjobs] at hr
    obtain ⟨q, hq, rfl⟩ := List.mem_map.1 hr
    split
    · obtain ⟨w, n, hw, hn⟩ := hplaced row hrow
      exact ⟨w, n, hworld.trans hw, hsequence.trans hn⟩
    · exact hplaced q hq
  have hdistinct := List.nodup_cons.1 (heligible ▸ nodup_eligible hids)
  have hmem : ∀ r, r ∈ db'.eligible ↔ r ∈ rest := by
    intro r
    have hcons : r ∈ db.eligible ↔ r = row ∨ r ∈ rest := by rw [heligible, List.mem_cons]
    rw [mem_eligible, hlive]
    constructor
    · rintro ⟨hr, hwaiting, hworld'⟩
      rw [hjobs] at hr
      obtain ⟨q, hq, rfl⟩ := List.mem_map.1 hr
      split at hwaiting
      · rw [hsettled] at hwaiting
        cases hwaiting
      · rename_i hne
        rw [if_neg hne] at hworld' hcons ⊢
        refine (hcons.1 (mem_eligible.2 ⟨hq, hwaiting, hworld'⟩)).resolve_left fun heq => hne ?_
        rw [heq]
    · intro hr
      obtain ⟨hmem, hwaiting, hworld'⟩ := mem_eligible.1 (hcons.2 (Or.inr hr))
      refine ⟨?_, hwaiting, hworld'⟩
      rw [hjobs]
      refine List.mem_map.2 ⟨r, hmem, if_neg fun heq => hdistinct.1 ?_⟩
      rwa [← hsame r hmem heq]
  have hperm : db'.eligible.Perm rest :=
    (List.perm_ext_iff_of_nodup (nodup_eligible hids') hdistinct.2).2 hmem
  have hrest := List.pairwise_cons.1 (heligible ▸ pairwise_eligible hids hsequenced hplaced)
  exact hperm.eq_of_pairwise (fun a b _ _ hab hba => absurd hba (lt_asymm hab))
    (pairwise_eligible hids' hsequenced' hplaced') hrest.2

end Database

/-! ## Places are distinct -/

/-- A write that adds no job keeps places distinct. -/
theorem Write.sequenced {w : Write} {db : Database} (hw : w.Allowed db)
    (hids : (db.jobs.map (·.id)).Nodup) (hadd : ∀ j, w ≠ .addJob j) (h : db.Sequenced) :
    (w.apply db).Sequenced := by
  refine nodup_jobs hw hids (fun r r' hc => ?_) (fun j hj => absurd hj (hadd j)) h
  obtain ⟨_, hworld, _, hsequence⟩ := hc.names_eq
  rw [hworld, hsequence]

theorem Journal.sequenced {db db' : Database} {ws : List Write} (hjournal : Journal db ws db')
    (hdb : db.Sound) (hadd : ∀ j, .addJob j ∉ ws) (h : db.Sequenced) : db'.Sequenced :=
  (hjournal.invariant (I := fun d => d.Sound ∧ d.Sequenced) (fun _ hw _ hallowed hd =>
    ⟨hd.1.apply hallowed, Write.sequenced hallowed hd.1.jobIds
      (fun j heq => hadd j (heq ▸ hw)) hd.2⟩) ⟨hdb, h⟩).2

/-- A new queue numbers its jobs. -/
theorem Journal.sequenced_of_queue {db db' : Database} {world : WorldId} {keys : List String}
    {js : List Job} (hjournal : Journal db (.clearQueue world :: js.map .addJob) db')
    (hqueue : NewQueue world 1 keys js) (h : db.Sequenced) : db'.Sequenced := by
  have hjobs : db'.jobs = (Write.clearQueue world).onJobs db.jobs ++ js.map JobRow.ofJob :=
    Database.Consistent.jobs_of_addJobs (cons_iff.1 hjournal).2
  rw [Database.Sequenced, hjobs, List.map_append, List.nodup_append]
  refine ⟨nodup_filter _ h, ?_, ?_⟩
  · -- The numbers of the new jobs alone are distinct.
    refine List.Nodup.of_map (f := fun place : Cell × Cell => place.2) ?_
    have hnumbers : (js.map (·.sequence)).Nodup := by
      rw [hqueue.sequence_eq]
      exact List.nodup_range'
    have hcells : ((js.map JobRow.ofJob).map fun r => (r.world, r.sequence)).map
        (fun place : Cell × Cell => place.2) = (js.map (·.sequence)).map fun n : Nat =>
          Cell.int n := by
      simp only [List.map_map]
      rfl
    rw [hcells]
    refine hnumbers.map fun n k heq => ?_
    rw [Cell.int.injEq] at heq
    exact Int.ofNat.inj heq
  · -- The queue of the world was cleared.
    intro a ha b hb heq
    obtain ⟨r, hr, rfl⟩ := List.mem_map.1 ha
    obtain ⟨q, hq, rfl⟩ := List.mem_map.1 hb
    obtain ⟨j, hj, rfl⟩ := List.mem_map.1 hq
    have hother := (List.mem_filter.1 hr).2
    rw [Bool.not_eq_true', Cell.isText_eq_false_iff] at hother
    refine hother ((Prod.mk.injEq _ _ _ _ ▸ heq).1.trans ?_)
    show Cell.text j.world.text = _
    rw [hqueue.world_eq j hj]

/-- The world whose queue an event may replace. -/
def Event.rebuilds? : Event → Option WorldId
  | .command (.publish world _) => some world
  | .command (.initializeJobs world _) => some world
  | _ => none

/-- Jobs are added to the queue of a world only once it was cleared. -/
theorem Effect.adds_queue {e : Engine} {s : System} {ev : Event} {opened : List Job}
    {ws : List Write} (h : Effect e s ev opened ws) :
    (∀ j, .addJob j ∉ ws) ∨ ∃ vs world keys js, ev.rebuilds? = some world ∧
      ws = vs ++ .clearQueue world :: js.map .addJob ∧ (∀ j, .addJob j ∉ vs) ∧
      NewQueue world 1 keys js := by
  cases h with
  | @enqueue id owner w ms now js _ _ _ hqueue _ =>
    refine Or.inr ⟨(stale ms).map (fun m => .saveModule (awaiting owner now m)) ++
      [.changeWorld (w.beginGeneration now)], _, _, _, rfl, ?_, by simp, hqueue⟩
    rw [List.append_assoc, List.singleton_append]
  | rebuild hqueue _ => exact Or.inr ⟨[], _, _, _, rfl, rfl, by simp, hqueue⟩
  | sweep hws =>
    refine Or.inl fun j hmem => ?_
    have hexpires := hws _ hmem
    cases hexpires
  | lease _ hm => exact Or.inl fun j => by simp [hm.notMem]
  | fail _ hm => exact Or.inl fun j => by simp [hm.notMem]
  | release _ hm => exact Or.inl fun j => by simp [hm.notMem]
  | retry _ _ _ _ _ _ => exact Or.inl fun j => by split <;> simp
  | complete _ _ _ _ _ _ _ => exact Or.inl fun j => by split <;> simp
  | _ => exact Or.inl fun j => by simp

namespace System

theorem sequenced_step {s : System} (h : s.Sound) (e : Engine) (ev : Event)
    (hs : s.studio.db.Sequenced) : (s.step e ev).studio.db.Sequenced := by
  obtain ⟨opened, ws, heffect, hcommit, _⟩ := s.step_effect e ev
  rcases heffect.adds_queue with hadd | ⟨vs, world, keys, js, _, rfl, hadd, hqueue⟩
  · exact hcommit.journal.sequenced h.db hadd hs
  · obtain ⟨db, hfirst, hrest⟩ := Journal.append_iff.1 hcommit.journal
    exact hrest.sequenced_of_queue hqueue (hfirst.sequenced h.db hadd hs)

/-- No run gives two jobs the same place. -/
theorem sequenced (e : Engine) (events : List Event) : (run e events).studio.db.Sequenced :=
  Sound.induction_of (P := fun s => s.studio.db.Sequenced) List.nodup_nil
    fun _ ev _ h hs => sequenced_step h e ev hs

end System

end Lorebook
