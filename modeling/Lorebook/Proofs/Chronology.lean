import Lorebook.Proofs.StaleLeases

set_option autoImplicit false

/-! # Text order and time order

Times are stored as text and compared as text. In years of four digits this comes to the same as
comparing the instants, leap seconds included: what is stored of an instant reads back as it, and
the bytes of two stored times are in the order of the instants. So the jobs whose lease began before
a cutoff, the earliest first, and the worlds of an owner, the newest first, are those and in the
order that the instants tell (`stored_times_chronological`). -/

namespace Lorebook

open Statement

/-! ## Times in cells -/

/-- Where both cells hold an instant, that of the first is not after that of the second. -/
def Cell.NotLater (c d : Cell) : Prop :=
  ∀ t ∈ c.time?, ∀ u ∈ d.time?, ¬ u < t

/-- The text that a cell holds. -/
def Cell.rawText : Cell → String
  | .text raw => raw
  | _ => ""

namespace Cell

variable {c d : Cell}

theorem notAfter_of_stores (hc : ∃ t, c.Stores t) (hd : ∃ t, d.Stores t) :
    c.notAfter d = decide (c.rawText ≤ d.rawText) := by
  obtain ⟨t, -, rfl⟩ := hc
  obtain ⟨u, -, rfl⟩ := hd
  exact notAfter_text _ _

/-- Cells whose texts do not descend hold instants that do not. -/
theorem notLater_of_stores (hc : ∃ t, c.Stores t) (hd : ∃ t, d.Stores t)
    (h : c.rawText ≤ d.rawText) : c.NotLater d := by
  obtain ⟨t, ht⟩ := hc
  obtain ⟨u, hu⟩ := hd
  rw [NotLater, ht.time?_eq, hu.time?_eq]
  intro t' ht' u' hu' hlt
  obtain rfl := Option.some.inj ht'
  obtain rfl := Option.some.inj hu'
  rw [ht.2, hu.2] at h
  exact absurd ((Rfc3339.stored_lt_stored_iff hu.1 ht.1.2).2 hlt) (not_lt.2 h)

theorem HoldsTime?.time?_eq {t : Option Instant} (h : c.HoldsTime? t) : c.time? = t := by
  cases t with
  | none =>
    obtain rfl : c = .null := h
    rfl
  | some t =>
    obtain ⟨raw, rfl, hraw⟩ := h
    exact hraw

end Cell

section

variable {α : Type} {rows : List α} {key : α → Cell} (h : ∀ r ∈ rows, ∃ t, (key r).Stores t)

include h

/-- Rows that are sorted by the texts of their times are in the order of the times. -/
theorem pairwise_ascending :
    (rows.mergeSort fun a b => (key a).notAfter (key b)).Pairwise
      fun a b => (key a).NotLater (key b) := by
  have htexts : (rows.mergeSort fun a b => (key a).notAfter (key b)).Pairwise
      fun a b => (key a).rawText ≤ (key b).rawText :=
    pairwise_mergeSort_of_key fun a ha b hb => Cell.notAfter_of_stores (h a ha) (h b hb)
  refine htexts.imp_of_mem fun ha hb => ?_
  exact Cell.notLater_of_stores (h _ (List.mem_mergeSort.1 ha)) (h _ (List.mem_mergeSort.1 hb))

/-- So are rows that are sorted from the last to the first. -/
theorem pairwise_descending :
    (rows.mergeSort fun a b => (key b).notAfter (key a)).Pairwise
      fun a b => (key b).NotLater (key a) := by
  have htexts : (rows.mergeSort fun a b => (key b).notAfter (key a)).Pairwise
      fun a b => OrderDual.toDual (key a).rawText ≤ OrderDual.toDual (key b).rawText :=
    pairwise_mergeSort_of_key fun a ha b hb => Cell.notAfter_of_stores (h b hb) (h a ha)
  refine htexts.imp_of_mem fun ha hb => ?_
  exact Cell.notLater_of_stores (h _ (List.mem_mergeSort.1 hb)) (h _ (List.mem_mergeSort.1 ha))

end

/-! ## Lists in the order of time -/

/-- In years of four digits, what is stored of instants stands for the instants. -/
structure StoredTimesChronological : Prop where
  readsBack : ∀ (t : Instant) (c : CellAt), t.InEra → c.parseTime (Rfc3339.stored t) = .ok t
  /-- Bytes are in the order of instants. -/
  ordered : ∀ t u : Instant, t.InEra → u.InEra →
    (Text.bytes (Rfc3339.stored t) < Text.bytes (Rfc3339.stored u) ↔ t < u)
  /-- The jobs that are read are those that run and were leased before the cutoff, the earliest
  first. -/
  running : ∀ (db : Database) (cutoff : Instant), cutoff.InEra →
    (∀ r ∈ db.jobs, r.hasStatus .running = true →
      r.startedAt = .null ∨ ∃ t, r.startedAt.Stores t) →
    ∃ rows : List JobRow, rows.Perm (db.jobs.filter (·.isStale cutoff)) ∧
      (rows.Pairwise fun a b => a.startedAt.NotLater b.startedAt) ∧
      Jobs.runningSinceBefore cutoff db = (do needs .jobs; Jobs.decodeAll rows) db
  /-- The worlds that are read are the live ones of the owner, the newest first. -/
  listed : ∀ (db : Database) (owner : OwnerId),
    (∀ r ∈ db.worlds, r.owner.isText owner.text = true → ∃ t, r.createdAt.Stores t) →
    ∃ rows : List WorldRow, rows.Perm
        (db.worlds.filter fun r => r.owner.isText owner.text && r.deletedAt.isNull) ∧
      (rows.Pairwise fun a b => b.createdAt.NotLater a.createdAt) ∧
      Worlds.listForOwner owner db =
        (do needs .worlds; rows.mapM fun r : WorldRow => ofDecoded r.decode) db
  /-- What is read of a row has the instants of its cells. -/
  started : ∀ (r : JobRow) (j : Job), r.decode = .ok j → j.startedAt = r.startedAt.time?
  created : ∀ (r : WorldRow) (w : World), r.decode = .ok w → some w.createdAt = r.createdAt.time?

/-- Comparing and sorting stored times comes to comparing and sorting instants. -/
theorem stored_times_chronological : StoredTimesChronological where
  readsBack t c ht := (c.parseTime_eq_ok _ t).2 (Rfc3339.parse?_stored ht)
  ordered t u ht hu := Text.bytes_lt_bytes_iff.trans (Rfc3339.stored_lt_stored_iff ht hu.2)
  running db cutoff hcutoff hstarts := by
    have hsame : db.jobs.filter (Jobs.isSelected cutoff) = db.jobs.filter (·.isStale cutoff) :=
      List.filter_congr fun r hr => Jobs.isSelected_eq hcutoff.2 (hstarts r hr)
    refine ⟨Jobs.selected cutoff db, hsame ▸ Jobs.selected_perm cutoff db,
      pairwise_ascending fun r hr => ?_, needs_get_run .jobs _ db⟩
    obtain ⟨hr, hstarted⟩ := List.mem_filter.1 hr
    obtain ⟨hr, hrunning⟩ := Jobs.mem_withStatus.1 hr
    refine (hstarts r hr hrunning).resolve_left fun hnull => ?_
    rw [hnull] at hstarted
    cases hstarted
  listed db owner hcreated := by
    refine ⟨_, List.mergeSort_perm _ _, pairwise_descending fun r hr => ?_,
      needs_get_run .worlds _ db⟩
    obtain ⟨hr, hlive⟩ := List.mem_filter.1 hr
    exact hcreated r hr (Bool.and_eq_true_iff.1 hlive).1
  started r j h := ((JobRow.decode_eq_ok.1 h).startedAt.time?_eq).symm
  created r w h := by
    have hheld : r.createdAt.HoldsTime? (some w.createdAt) := (WorldRow.decode_eq_ok.1 h).createdAt
    exact hheld.time?_eq.symm

/-- A leap second lies between the second before it and the next day, also as a text. -/
example :
    let leap : Instant := ⟨736328, 86399, 1500000000, by decide, by decide, by decide⟩
    Rfc3339.stored leap = "2016-12-31T23:59:60.500000000Z" ∧
      Rfc3339.stored (.ofSeconds leap.seconds 999999999) < Rfc3339.stored leap ∧
      Rfc3339.stored leap < Rfc3339.stored (.ofDay (leap.day + 1)) := by
  decide +kernel

end Lorebook
