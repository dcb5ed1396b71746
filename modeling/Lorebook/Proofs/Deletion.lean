import Lorebook.Proofs.FieldHistory

set_option autoImplicit false

/-! # What a deleted world receives

A world that was marked as deleted keeps its row as it is, none of its jobs is leased any more, and
its modules change by marks only, when a lease of one of its jobs ends: every operation that writes
more asks first whether the world is live. The one that does not ask is the merge of a draft, so
the modules of a deleted world stay exactly as long as no draft that was asked for before is merged
into them (`System.deletion_run`). -/

namespace Lorebook

open Studio Operation Engine

/-! ## Deleted worlds -/

/-- The row of a world that was marked as deleted. -/
structure Database.Deleted (db : Database) (world : WorldId) (row : WorldRow) : Prop where
  mem : row ∈ db.worlds
  id : row.id = .text world.text
  deletedAt : row.deletedAt.isNull = false

namespace Database.Deleted

variable {db db' : Database} {world : WorldId} {row : WorldRow}

/-- No row of the name is that of a live world. -/
theorem not_live (h : db.Deleted world row) (hdb : db.Sound) {r : WorldRow} (hr : r ∈ db.worlds)
    (hid : r.id = .text world.text) : r.deletedAt.isNull = false := by
  rw [List.inj_on_of_nodup_map hdb.worldIds hr h.mem (hid.trans h.id.symm)]
  exact h.deletedAt

/-- A live world is another one. -/
theorem ne_of_live (h : db.Deleted world row) (hdb : db.Sound) {id : WorldId} {w : World}
    (hlive : db.LiveWorld id w) : id ≠ world := by
  rintro rfl
  obtain ⟨r, hfind, _⟩ := hlive
  obtain ⟨hid, hnull⟩ := Worlds.isLive_iff.1 (List.find?_some hfind)
  rw [h.not_live hdb (List.mem_of_find?_eq_some hfind) hid] at hnull
  cases hnull

/-- Writes leave the row of a deleted world, unless they remove the world. -/
theorem apply (h : db.Deleted world row) {w : Write} (hw : w ≠ .removeWorld world) :
    (w.apply db).Deleted world row := by
  have hnot (id : WorldId) : Worlds.isLive id row = false := by
    rw [Worlds.isLive, h.deletedAt, Bool.and_false]
  refine ⟨?_, h.id, h.deletedAt⟩
  cases w with
  | addWorld w => exact List.mem_append_left _ h.mem
  | changeWorld w => exact List.mem_map.2 ⟨row, h.mem, if_neg (by simp [hnot])⟩
  | hideWorld id now => exact List.mem_map.2 ⟨row, h.mem, if_neg (by simp [hnot])⟩
  | removeWorld id =>
    refine List.mem_filter.2 ⟨h.mem, ?_⟩
    rw [Bool.not_eq_true', Cell.isText_eq_false_iff, h.id]
    exact fun heq => hw (by rw [WorldId.eq_of_text (Cell.text.inj heq)])
  | _ => exact h.mem

theorem journal {ws : List Write} (h : db.Deleted world row) (hjournal : Journal db ws db')
    (hremove : .removeWorld world ∉ ws) : db'.Deleted world row :=
  hjournal.invariant (I := fun d => d.Deleted world row)
    (fun _ hw _ _ hd => hd.apply fun heq => hremove (heq ▸ hw)) h

/-- The job that is leased next is of another world. -/
theorem ne_of_nextRow? (h : db.Deleted world row) (hdb : db.Sound) {r : JobRow}
    (hr : Jobs.nextRow? db = some r) : r.world ≠ .text world.text := by
  intro hworld
  unfold Jobs.nextRow? at hr
  split at hr
  · cases hr
  · have hany := List.find?_some hr
    obtain ⟨w, hw, hlive⟩ := List.any_eq_true.1 hany
    rw [Bool.and_eq_true, decide_eq_true_iff, hworld] at hlive
    rw [h.not_live hdb hw hlive.1] at hlive
    cases hlive.2

end Database.Deleted

/-! ## Modules of a world -/

/-- The rows of the modules of a world. -/
def Database.modulesOf (db : Database) (world : WorldId) : List ModuleRow :=
  db.modules.filter fun r => r.world.isText world.text

/-- Saving a module leaves the modules of other worlds. -/
theorem Write.modulesOf_saveModule {db : Database} {m : WorldModule} {world : WorldId}
    (hne : m.world ≠ world) : ((saveModule m).apply db).modulesOf world = db.modulesOf world := by
  have hother {r : ModuleRow} (hof : Modules.isOf m.world m.key r = true) :
      r.world.isText world.text = false := by
    rw [Cell.isText_eq_false_iff, (Modules.isOf_iff.1 hof).1]
    exact fun heq => hne (WorldId.eq_of_text (Cell.text.inj heq))
  rw [Database.modulesOf, Database.modulesOf, apply_modules, onModules]
  split
  · rw [List.filter_map]
    -- The row that is written over is not among those of the world.
    have hkept : ((fun r : ModuleRow => r.world.isText world.text) ∘ fun r =>
        if Modules.isOf m.world m.key r then
          Modules.overwritten (ModuleRow.ofModule m) r else r) =
        fun r => r.world.isText world.text := by
      funext r
      rw [Function.comp_apply]
      split <;> rfl
    rw [hkept]
    refine (List.map_congr_left fun r hr => if_neg fun hof => ?_).trans (List.map_id _)
    have hin := (List.mem_filter.1 hr).2
    rw [hother hof] at hin
    cases hin
  · have hnew : (ModuleRow.ofModule m).world.isText world.text = false :=
      hother (Modules.isOf_iff.2 ⟨rfl, rfl⟩)
    rw [List.filter_append, List.filter_cons_of_neg (by simp [hnew]), List.filter_nil,
      List.append_nil]

/-- Writes that save no module of a world, and do not remove it, leave its modules. -/
theorem Journal.modulesOf_eq {db db' : Database} {ws : List Write} (h : Journal db ws db')
    {world : WorldId} (hsaves : ∀ m, .saveModule m ∈ ws → m.world ≠ world)
    (hremove : .removeWorld world ∉ ws) : db'.modulesOf world = db.modulesOf world := by
  refine h.invariant (I := fun d => d.modulesOf world = db.modulesOf world)
    (fun w hw d _ hd => ?_) rfl
  cases w with
  | saveModule m =>
    rw [Write.modulesOf_saveModule (hsaves m hw)]
    exact hd
  | removeWorld id =>
    rw [← hd]
    exact Write.filter_removeWorld (fun heq => hremove (by rw [← heq]; exact hw)) d.modules
  | _ => exact hd

/-- The modules of a world are the same but for their marks. -/
abbrev Database.MarkedOf (world : WorldId) (db db' : Database) : Prop :=
  List.Forall₂ ModuleRow.Marked (db.modulesOf world) (db'.modulesOf world)

theorem Database.Marked.of {db db' : Database} (h : db.Marked db') (world : WorldId) :
    db.MarkedOf world db' := by
  refine List.rel_filter (R := ModuleRow.Marked) ?_ h
  rintro r _ ⟨status, updatedAt, rfl⟩
  exact Iff.rfl

theorem Database.MarkedOf.trans {db db' db'' : Database} {world : WorldId}
    (h : db.MarkedOf world db') (h' : db'.MarkedOf world db'') : db.MarkedOf world db'' :=
  ModuleRow.marked_trans h h'

theorem Database.markedOf_of_eq {db db' : Database} {world : WorldId}
    (h : db'.modulesOf world = db.modulesOf world) : db.MarkedOf world db' := by
  rw [MarkedOf, h]
  exact List.forall₂_same.2 fun r _ => Chain.refl r

/-- Saving a module of another world leaves the modules. -/
theorem Journal.markedOf_of_save {db db' : Database} {m : WorldModule} {world : WorldId}
    (h : Journal db [.saveModule m] db') (hne : m.world ≠ world) : db.MarkedOf world db' := by
  refine Database.markedOf_of_eq (h.modulesOf_eq (fun n hn => ?_) (by simp))
  rw [Write.saveModule.inj (List.mem_singleton.1 hn)]
  exact hne

/-! ## Events after a deletion -/

/-- Fields are saved in a live world, by its owner. -/
theorem Engine.ownedWorld_of_saveModuleFields {e : Engine} {world : WorldId} {module : String}
    {owner : OwnerId} {fields : List (String × String)} {s : Studio} {m : WorldModule}
    {s' : Studio} (h : Yields (e.saveModuleFields world module owner fields) s m s') :
    ∃ w, s.db.LiveWorld world w ∧ w.owner = owner := by
  simp only [saveModuleFields, definition, yields_bind, yields_ofExcept] at h
  obtain ⟨d, _, ⟨hd, rfl⟩, h⟩ := h
  split at h
  · simp at h
  · simp only [yields_atomically, yields_bind] at h
    obtain ⟨w, t, howned, _⟩ := h
    exact ⟨w, ownedWorld_found howned⟩

/-- Events that write no fields save modules of live worlds, or fail a job and mark its module. -/
theorem Effect.saves_elsewhere {e : Engine} {s : System} {ev : Event} {opened : List Job}
    {ws : List Write} (h : Effect e s ev opened ws) (hdb : s.studio.db.Sound) {world : WorldId}
    {row : WorldRow} (hdeleted : s.studio.db.Deleted world row)
    (hev : ev.writesFields = false)
    (hsweep : ∀ timeout, ev ≠ .command (.recoverStaleLeases timeout))
    {db : Database} (hjournal : Journal s.studio.db ws db) :
    (∀ m, .saveModule m ∈ ws → m.world ≠ world) ∨
      ∃ job id message now t vs, ws = .fail id message t :: vs ∧
        Marks s.studio.db job .failed now vs := by
  by_cases hfails : ∃ job id message now t vs, ws = .fail id message t :: vs ∧
      Marks s.studio.db job .failed now vs
  · exact Or.inr hfails
  refine Or.inl fun m hm => ?_
  cases h.saved hev hsweep hm with
  | live hlive _ => exact hdeleted.ne_of_live hdb hlive
  | @leased job r now vs hws hworld hmarks hsaved =>
    -- What is leased next is of another world.
    subst hws
    have hnext := hdeleted.ne_of_nextRow? hdb (Journal.cons_iff.1 hjournal).1.1
    obtain ⟨_, heq, hof, _⟩ := hmarks.eq_saveModule hsaved
    rw [Write.saveModule.inj heq, hof]
    exact fun heq => hnext (by rw [hworld, heq])
  | failed hws hmarks _ => exact absurd ⟨_, _, _, _, _, _, hws, hmarks⟩ hfails

namespace System

variable {s : System} {world : WorldId} {row : WorldRow}

/-- A world that was deleted stays so, with its row as it is, until it is removed. -/
theorem deleted_step (h : s.studio.db.Deleted world row) (e : Engine) {ev : Event}
    (hev : ev ≠ .command (.hardDelete world)) : (s.step e ev).studio.db.Deleted world row := by
  obtain ⟨_, _, heffect, hcommit, _⟩ := s.step_effect e ev
  exact h.journal hcommit.journal (heffect.removeWorld_notMem hev)

/-- None of its jobs is leased. -/
theorem running_step (hs : s.Sound) (h : s.studio.db.Deleted world row) (e : Engine) (ev : Event) :
    ∀ r ∈ (s.step e ev).studio.db.jobs, r.world = .text world.text →
      r.hasStatus .running = true → r ∈ s.studio.db.jobs := by
  obtain ⟨opened, ws, heffect, hcommit, _⟩ := s.step_effect e ev
  intro r hr hworld hrunning
  by_cases hnone : opened = []
  · subst hnone
    exact Sound.running_of_journal hs.db hcommit.journal heffect.lease_notMem r hr hrunning
  · cases heffect with
    | @lease job q now vs hdecode hmarks =>
      obtain ⟨hallowed, hrest⟩ := Journal.cons_iff.1 hcommit.journal
      have hjobs := hrest.jobs_eq hmarks.onJobs_eq
      rw [hjobs, Write.apply_jobs] at hr
      rcases Write.mem_onJobs hr with ⟨r₀, hr₀, rfl⟩ | ⟨j, hj, _⟩
      · have hchange := Write.jobChange hallowed hs.db.jobIds hr₀
        rcases hchange.running_of_running hrunning with heq | ⟨t, heq, _⟩
        · rw [heq]
          exact hr₀
        · -- What is leased is of a live world.
          rw [hchange.names_eq.2.1, ← (Write.lease.inj heq).1] at hworld
          exact absurd hworld (h.ne_of_nextRow? hs.db hallowed.1)
      · cases hj
    | _ => exact absurd rfl hnone

/-- Events that write no fields mark its modules and no more. -/
theorem markedOf_of_others (hs : s.Sound) (hfields : s.studio.db.FieldsWritten)
    (h : s.studio.db.Deleted world row) (e : Engine) {ev : Event}
    (hwrites : ev.writesFields = false) (hev : ev ≠ .command (.hardDelete world)) :
    s.studio.db.MarkedOf world (s.step e ev).studio.db := by
  by_cases hsweep : ∃ timeout, ev = .command (.recoverStaleLeases timeout)
  · obtain ⟨timeout, rfl⟩ := hsweep
    rcases s.command_cases e (c := .recoverStaleLeases timeout) rfl with ⟨js, hsweep⟩ | hsame
    · exact (marked_of_recoverStaleLeases hsweep hs.db hfields).of world
    · exact Database.markedOf_of_eq (by rw [hsame.1])
  · obtain ⟨opened, ws, heffect, hcommit, _⟩ := s.step_effect e ev
    rcases heffect.saves_elsewhere hs.db h hwrites (fun timeout heq => hsweep ⟨timeout, heq⟩)
      hcommit.journal with hsaves | ⟨job, id, message, now, t, vs, rfl, hmarks⟩
    · exact Database.markedOf_of_eq
        (hcommit.journal.modulesOf_eq hsaves (heffect.removeWorld_notMem hev))
    · exact (hmarks.marked_fail hs.db hfields hcommit.journal).of world

/-- Its modules are marked and no more, unless fields of theirs are written. -/
theorem markedOf_step (hs : s.Sound) (hfields : s.studio.db.FieldsWritten)
    (h : s.studio.db.Deleted world row) (e : Engine) {ev : Event}
    (hev : ev ≠ .command (.hardDelete world))
    (hwrite : ∀ w, s.fieldWrite? e ev = some w → w.world ≠ world) :
    s.studio.db.MarkedOf world (s.step e ev).studio.db := by
  cases ev with
  | command c =>
    cases c with
    | saveModuleFields w module owner fields =>
      rcases s.saveModuleFields_cases e w module owner fields with ⟨hw, m, hrun⟩ | ⟨_, hsame⟩
      · obtain ⟨d, m₀, now, _, hm₀, rfl, hcommit⟩ := commit_saveModuleFields hrun
        have hne : m₀.world ≠ world := hm₀.world_eq ▸ hwrite _ hw
        exact hcommit.journal.markedOf_of_save hne
      · exact Database.markedOf_of_eq (by rw [hsame.1])
    | _ => exact markedOf_of_others hs hfields h e rfl hev
  | mergeDraft i reply =>
    rcases s.mergeDraft_cases e i reply with ⟨c, t, m, _, ht, hw, hrun⟩ | ⟨_, hsame⟩
    · obtain ⟨m₀, now, hm₀, rfl, hcommit⟩ := commit_mergeDraft hrun
      have hne : m₀.world ≠ world := hm₀.world_eq ▸ hwrite _ hw
      rw [← ht]
      exact hcommit.journal.markedOf_of_save hne
    · exact Database.markedOf_of_eq (by rw [hsame.1])
  | _ => exact markedOf_of_others hs hfields h e rfl hev

/-- Through any events, a deleted world keeps its row, its jobs are not leased, and its modules are
marked and no more, unless fields of theirs are written. -/
theorem deleted_foldl (hs : s.Sound) (hfields : s.studio.db.FieldsWritten)
    (h : s.studio.db.Deleted world row) (e : Engine) {later : List Event}
    (hlater : .command (.hardDelete world) ∉ later) :
    (later.foldl (step e) s).studio.db.Deleted world row ∧
      (∀ r ∈ (later.foldl (step e) s).studio.db.jobs, r.world = .text world.text →
        r.hasStatus .running = true → r ∈ s.studio.db.jobs) ∧
      ((∀ w ∈ s.fieldLog e later, w.world ≠ world) →
        s.studio.db.MarkedOf world (later.foldl (step e) s).studio.db) := by
  induction later generalizing s with
  | nil => exact ⟨h, fun r hr _ _ => hr, fun _ => Database.markedOf_of_eq rfl⟩
  | cons ev later ih =>
    rw [List.mem_cons, not_or] at hlater
    have hev := Ne.symm hlater.1
    obtain ⟨hdeleted, hrunning, hmarked⟩ := ih (hs.step e ev) (fieldsWritten_step hfields e ev)
      (deleted_step h e hev) hlater.2
    refine ⟨hdeleted, fun r hr hworld hstatus => ?_, fun hlog => ?_⟩
    · exact running_step hs h e ev r (hrunning r hr hworld hstatus) hworld hstatus
    · rw [fieldLog, List.forall_mem_append] at hlog
      exact (markedOf_step hs hfields h e hev fun w hw => hlog.1 w (by rw [hw]; simp)).trans
        (hmarked hlog.2)

/-- The one write that a deleted world receives is the merge of a draft: it sets the field values
and the fingerprint of one module, and leaves all others. -/
structure Drafted (world : WorldId) (w : FieldWrite) (s s' : System) : Prop where
  others : ∀ r, Modules.isOf world w.key r = false →
    (r ∈ s'.studio.db.modules ↔ r ∈ s.studio.db.modules)
  merged : ∃ r ∈ s'.studio.db.modules, Modules.isOf world w.key r = true ∧
    r.fields = .text (FieldMap.toJson
      ((s.studio.db.fieldMap world w.key).insertAll w.values)).compact ∧
    r.hash = .text (contentHash ((s.studio.db.fieldMap world w.key).insertAll w.values))

/-- A merge that is committed writes one module, whatever became of its world. -/
theorem drafted_of_mergeDraft {e : Engine} {i : Nat} {reply : GenerationReply} {w : FieldWrite}
    (hwrite : s.fieldWrite? e (.mergeDraft i reply) = some w) :
    Drafted w.world w s (s.step e (.mergeDraft i reply)) := by
  rcases s.mergeDraft_cases e i reply with ⟨c, t, m, _, ht, hc, hrun⟩ | ⟨hnone, _⟩
  · obtain rfl := Option.some.inj (hc.symm.trans hwrite)
    obtain ⟨m₀, now, hm₀, rfl, hcommit⟩ := commit_mergeDraft hrun
    rw [ht] at hm₀
    have hfields : m₀.fields = s.studio.db.fieldMap c.world c.definition.key := hm₀.fields_eq
    have hjournal := hcommit.journal
    rw [ht] at hjournal
    have hmodules := congrArg Database.modules (Journal.nil_iff.1 (Journal.cons_iff.1 hjournal).2)
    rw [Write.apply_modules] at hmodules
    have hself := @Write.find?_saveModule_self
      ((drafted (c.accepted reply) m₀).touch (some c.owner) now) s.studio.db.modules
    have hnames : ((drafted (c.accepted reply) m₀).touch (some c.owner) now).world = c.world ∧
        ((drafted (c.accepted reply) m₀).touch (some c.owner) now).key = c.definition.key :=
      ⟨hm₀.world_eq, hm₀.key_eq⟩
    refine ⟨fun r hr => ?_, ?_⟩
    · rw [hmodules]
      exact Write.mem_saveModule_of_other (by rw [hnames.1, hnames.2]; exact hr)
    · rw [← hmodules, hnames.1, hnames.2] at hself
      refine ⟨_, List.mem_of_find?_eq_some hself, List.find?_some hself, ?_⟩
      rw [← hfields]
      cases s.studio.db.modules.find? _ <;> exact ⟨rfl, rfl⟩
  · rw [hnone] at hwrite
    cases hwrite

/-- What writes into the fields of a deleted world is the merge of a draft. -/
theorem mergeDraft_of_deleted (hs : s.Sound) (h : s.studio.db.Deleted world row) {e : Engine}
    {ev : Event} {w : FieldWrite} (hwrite : s.fieldWrite? e ev = some w)
    (hworld : w.world = world) :
    ∃ i reply, ev = .mergeDraft i reply := by
  cases ev with
  | command c =>
    cases c with
    | saveModuleFields id module owner fields =>
      rcases s.saveModuleFields_cases e id module owner fields with ⟨hsaved, m, hrun⟩ | ⟨hnone, _⟩
      · obtain rfl := Option.some.inj (hsaved.symm.trans hwrite)
        obtain ⟨v, hlive, _⟩ := ownedWorld_of_saveModuleFields hrun
        exact absurd hworld (h.ne_of_live hs.db hlive)
      · rw [hnone] at hwrite
        cases hwrite
    | _ => cases hwrite
  | mergeDraft i reply => exact ⟨i, reply, rfl⟩
  | _ => cases hwrite

/-! ## Deletions -/

/-- What deleted worlds receive. -/
structure Deletions (e : Engine) (s : System) : Prop where
  /-- Until it is removed, the world stays deleted, with its row as it is. -/
  row : ∀ world row, s.studio.db.Deleted world row → ∀ later : List Event,
    .command (.hardDelete world) ∉ later →
    (later.foldl (step e) s).studio.db.Deleted world row
  /-- Those of its jobs that run were leased before. -/
  unleased : ∀ world row, s.studio.db.Deleted world row → ∀ later : List Event,
    .command (.hardDelete world) ∉ later →
    ∀ r ∈ (later.foldl (step e) s).studio.db.jobs, r.world = .text world.text →
      r.hasStatus .running = true → r ∈ s.studio.db.jobs
  /-- Its modules change by marks only, as long as no draft is merged into them. -/
  modules : ∀ world row, s.studio.db.Deleted world row → ∀ later : List Event,
    .command (.hardDelete world) ∉ later → (∀ w ∈ s.fieldLog e later, w.world ≠ world) →
    s.studio.db.MarkedOf world (later.foldl (step e) s).studio.db
  /-- A draft that is merged writes its own module. -/
  drafts : ∀ world row, s.studio.db.Deleted world row → ∀ ev w,
    s.fieldWrite? e ev = some w → w.world = world →
    (∃ i reply, ev = .mergeDraft i reply) ∧ Drafted world w s (s.step e ev)

/-- In every system that is reached, a deleted world receives the drafts that are merged into it and
nothing else. -/
theorem deletion_run (e : Engine) (events : List Event) : (run e events).Deletions e where
  row _ _ h _ hlater :=
    (deleted_foldl (Sound.run e events) (fieldsWritten e events) h e hlater).1
  unleased _ _ h _ hlater :=
    (deleted_foldl (Sound.run e events) (fieldsWritten e events) h e hlater).2.1
  modules _ _ h _ hlater :=
    (deleted_foldl (Sound.run e events) (fieldsWritten e events) h e hlater).2.2
  drafts _ _ h ev w hwrite hworld := by
    obtain ⟨i, reply, rfl⟩ := mergeDraft_of_deleted (Sound.run e events) h hwrite hworld
    subst hworld
    exact ⟨⟨i, reply, rfl⟩, drafted_of_mergeDraft hwrite⟩

/-- A run in which a world is deleted while a draft of its module is asked for. -/
def deletingEvents : List Event :=
  [.createFirst, .openDraft (.mint 0) "m" ⟨"owner"⟩, .askDraft 0, .command (.softDelete (.mint 0))]

/-- The draft is merged nevertheless: the world, which has no module, receives one. -/
theorem not_markedOf_deleting :
    (∃ row, (run .minimal deletingEvents).studio.db.Deleted (.mint 0) row) ∧
      (run .minimal deletingEvents).studio.db.modulesOf (.mint 0) = [] ∧
      (((run .minimal deletingEvents).step .minimal
        (.mergeDraft 0 (.ok "\x7b\"f\": \"new\"\x7d"))).studio.db.modulesOf (.mint 0)).map
          (·.fields) = [.text "\x7b\"f\":\"new\"\x7d"] ∧
      ¬ (run .minimal deletingEvents).studio.db.MarkedOf (.mint 0)
        ((run .minimal deletingEvents).step .minimal
          (.mergeDraft 0 (.ok "\x7b\"f\": \"new\"\x7d"))).studio.db := by
  have hdeleted : (run .minimal deletingEvents).studio.db.worlds.any (fun r =>
      r.id = .text (WorldId.mint 0).text && !r.deletedAt.isNull) = true := by decide +kernel
  have hbefore : (run .minimal deletingEvents).studio.db.modulesOf (.mint 0) = [] := by
    decide +kernel
  have hafter : (((run .minimal deletingEvents).step .minimal
      (.mergeDraft 0 (.ok "\x7b\"f\": \"new\"\x7d"))).studio.db.modulesOf (.mint 0)).map
        (·.fields) = [.text "\x7b\"f\":\"new\"\x7d"] := by decide +kernel
  obtain ⟨row, hrow, hhidden⟩ := List.any_eq_true.1 hdeleted
  rw [Bool.and_eq_true, decide_eq_true_iff, Bool.not_eq_true'] at hhidden
  refine ⟨⟨row, hrow, hhidden.1, hhidden.2⟩, hbefore, hafter, fun hmarked => ?_⟩
  rw [Database.MarkedOf, hbefore, List.forall₂_nil_left_iff] at hmarked
  rw [hmarked] at hafter
  cases hafter

end System

end Lorebook
