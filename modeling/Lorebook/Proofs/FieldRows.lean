import Lorebook.Proofs.LeaseReturn
import Lorebook.Proofs.WrittenRows

set_option autoImplicit false

/-! # The field values of stored modules

Every operation that writes a module writes its whole row, so a field value changes or stays by what
is written for all of them. `Database.fieldMap` is what is stored of a module's fields, and
`Journal.fieldMap_eq` says that writes keep it as long as every module is saved with the values that
were there. Settling a job with a failure even leaves the row but for its status and the time of its
last change (`Engine.Marks.marked`). -/

namespace Lorebook

open Studio Operation Engine

/-! ## Rows as they are written -/

/-- The field values of a row are stored as they are written. -/
def ModuleRow.FieldsWritten (r : ModuleRow) : Prop :=
  ∃ fields : FieldMap, r.fields = .text (FieldMap.toJson fields).compact

/-- The field values of all modules are stored as they are written. -/
def Database.FieldsWritten (db : Database) : Prop :=
  ∀ r ∈ db.modules, r.FieldsWritten

/-- Field values read back as they were written. -/
theorem ModuleRow.fieldValues?_eq {r : ModuleRow} {fields : FieldMap}
    (h : r.fields = .text (FieldMap.toJson fields).compact) : r.fieldValues? = some fields := by
  unfold fieldValues?
  rw [h]
  exact FieldMap.decode_compact fields

namespace Database.FieldsWritten

variable {db db' : Database}

theorem apply (h : db.FieldsWritten) (w : Write) : (w.apply db).FieldsWritten := by
  intro r hr
  cases w with
  | saveModule m =>
    simp only [Write.apply_modules, Write.onModules] at hr
    split at hr
    · obtain ⟨q, hq, rfl⟩ := List.mem_map.1 hr
      split
      · exact ⟨m.fields, rfl⟩
      · exact h q hq
    · rcases List.mem_append.1 hr with hr | hr
      · exact h r hr
      · rw [List.mem_singleton.1 hr]
        exact ⟨m.fields, rfl⟩
  | removeWorld id => exact h r (List.mem_filter.1 hr).1
  | _ => exact h r hr

theorem journal {ws : List Write} (h : db.FieldsWritten) (hjournal : Journal db ws db') :
    db'.FieldsWritten :=
  hjournal.invariant (fun w _ _ _ hd => hd.apply w) h

end Database.FieldsWritten

theorem System.fieldsWritten_step {s : System} (h : s.studio.db.FieldsWritten) (e : Engine)
    (ev : Event) : (s.step e ev).studio.db.FieldsWritten := by
  obtain ⟨_, _, _, hcommit, _⟩ := s.step_effect e ev
  exact h.journal hcommit.journal

/-- In every run, field values are stored as they are written. -/
theorem System.fieldsWritten (e : Engine) (events : List Event) :
    (run e events).studio.db.FieldsWritten :=
  run_induction (P := fun s => s.studio.db.FieldsWritten) (fun r hr => by cases hr)
    (fun _ ev h => fieldsWritten_step h e ev) events

/-! ## The values of a module -/

/-- The stored field values of a module; there are none as long as it is not stored. -/
def Database.fieldMap (db : Database) (world : WorldId) (key : String) : FieldMap :=
  ((db.modules.find? (Modules.isOf world key)).bind (·.fieldValues?)).getD .empty

section

variable {db db' : Database} {world : WorldId} {key : String}

theorem Database.StoredModule.fields_eq {m : WorldModule} (h : db.StoredModule world key m) :
    m.fields = db.fieldMap world key := by
  obtain ⟨row, hfind, hdecode⟩ := h
  rw [Database.fieldMap, hfind, Option.bind_some,
    (ModuleRow.holds_of_decode hdecode).fieldValues?_eq, Option.getD_some]

/-- A stored module has the field values that are stored under its names. -/
theorem Database.StoredModule.fields_eq_self {m : WorldModule} (h : db.StoredModule world key m) :
    m.fields = db.fieldMap m.world m.key := by
  rw [h.fields_eq, h.world_eq, h.key_eq]

theorem Database.fieldMap_of_absent
    (h : ∀ r ∈ db.modules, Modules.isOf world key r = false) : db.fieldMap world key = .empty := by
  rw [fieldMap, Modules.find?_isOf_eq_none h]
  rfl

/-- An operation finds a module with its stored field values. -/
theorem Engine.CurrentModule.fields_eq {d : ModuleDefinition} {m : WorldModule}
    (h : CurrentModule db world d m) : m.fields = db.fieldMap world d.key := by
  cases h with
  | stored h => exact h.fields_eq
  | fresh habsent id now => rw [Database.fieldMap_of_absent habsent]; rfl

/-- The cell of a row holds the stored field values of its module. -/
theorem Database.FieldsWritten.fields_eq (h : db.FieldsWritten) (hdb : db.Sound) {r : ModuleRow}
    (hr : r ∈ db.modules) (hof : Modules.isOf world key r = true) :
    r.fields = .text (FieldMap.toJson (db.fieldMap world key)).compact := by
  obtain ⟨fields, hfields⟩ := h r hr
  rw [Database.fieldMap, Modules.find?_isOf hdb.moduleKeys hr hof, Option.bind_some,
    ModuleRow.fieldValues?_eq hfields, Option.getD_some, hfields]

/-- Saving a module sets its field values and leaves those of all others. -/
theorem Database.fieldMap_saveModule (db : Database) (m : WorldModule) (world : WorldId)
    (key : String) : ((Write.saveModule m).apply db).fieldMap world key =
      if m.world = world ∧ m.key = key then m.fields else db.fieldMap world key := by
  rw [fieldMap, Write.apply_modules]
  split
  · rename_i heq
    obtain ⟨rfl, rfl⟩ := heq
    have hwritten (r : ModuleRow) (hr : r.fields = (ModuleRow.ofModule m).fields) :
        r.fieldValues? = some m.fields := ModuleRow.fieldValues?_eq hr
    rw [Write.find?_saveModule_self, Option.bind_some]
    cases db.modules.find? (Modules.isOf m.world m.key) with
    | none => exact congrArg (Option.getD · .empty) (hwritten (ModuleRow.ofModule m) rfl)
    | some row =>
      exact congrArg (Option.getD · .empty)
        (hwritten (Modules.overwritten (ModuleRow.ofModule m) row) rfl)
  · rename_i hne
    rw [Write.find?_saveModule_of_ne hne]
    rfl

/-- Removing a world leaves the modules of others. -/
theorem Write.filter_removeWorld {id : WorldId} (hne : id ≠ world) (rows : List ModuleRow) :
    ((removeWorld id).onModules rows).filter (fun r => r.world.isText world.text) =
      rows.filter fun r => r.world.isText world.text := by
  rw [onModules, List.filter_filter]
  refine List.filter_congr fun r _ => ?_
  cases hworld : r.world.isText world.text with
  | false => rfl
  | true =>
    rw [Cell.isText_iff] at hworld
    simp only [hworld, Cell.isText, Cell.text.injEq, Bool.true_and, Bool.not_eq_true',
      decide_eq_false_iff_not]
    exact fun heq => hne (WorldId.eq_of_text heq).symm

theorem Write.fieldMap_removeWorld {id : WorldId} (hne : id ≠ world) :
    ((removeWorld id).apply db).fieldMap world key = db.fieldMap world key := by
  have hfind (rows : List ModuleRow) : rows.find? (Modules.isOf world key) =
      (rows.filter fun r => r.world.isText world.text).find? (Modules.isOf world key) := by
    rw [List.find?_filter]
    refine congrArg (rows.find? ·) (funext fun r => ?_)
    rw [Modules.isOf]
    cases r.world.isText world.text <;> simp
  rw [Database.fieldMap, apply_modules, hfind, filter_removeWorld hne, ← hfind]
  rfl

/-- Writes keep the field values of a module when they save it with these values and do not remove
its world. -/
theorem Journal.fieldMap_eq {ws : List Write} (h : Journal db ws db')
    (hsaves : ∀ m, .saveModule m ∈ ws → m.world = world → m.key = key →
      m.fields = db.fieldMap world key)
    (hremove : .removeWorld world ∉ ws) : db'.fieldMap world key = db.fieldMap world key := by
  refine h.invariant (I := fun d => d.fieldMap world key = db.fieldMap world key)
    (fun w hw d _ hd => ?_) rfl
  cases w with
  | saveModule m =>
    rw [Database.fieldMap_saveModule]
    split
    · rename_i heq
      exact hsaves m hw heq.1 heq.2
    · exact hd
  | removeWorld id =>
    rw [Write.fieldMap_removeWorld fun heq => hremove (by rw [← heq]; exact hw)]
    exact hd
  | _ => exact hd

end

/-! ## Rows that are marked -/

/-- The later row is the earlier one but for the status and the time of its last change. -/
def ModuleRow.Marked (r r' : ModuleRow) : Prop :=
  ∃ status updatedAt, r' = { r with status := status, updatedAt := updatedAt }

instance : Chain ModuleRow.Marked where
  refl r := ⟨r.status, r.updatedAt, rfl⟩
  trans := by
    rintro a b c ⟨s, t, rfl⟩ ⟨s', t', rfl⟩
    exact ⟨s', t', rfl⟩

/-- The modules are the same but for statuses and times of last changes. -/
abbrev Database.Marked (db db' : Database) : Prop :=
  List.Forall₂ ModuleRow.Marked db.modules db'.modules

theorem Database.Marked.refl (db : Database) : db.Marked db :=
  List.forall₂_same.2 fun r _ => Chain.refl r

theorem ModuleRow.marked_trans {as bs cs : List ModuleRow} (h : List.Forall₂ Marked as bs)
    (h' : List.Forall₂ Marked bs cs) : List.Forall₂ Marked as cs := by
  induction h generalizing cs with
  | nil =>
    cases h'
    exact .nil
  | cons hab _ ih =>
    cases h' with
    | cons hbc hrest => exact .cons (Chain.trans hab hbc) (ih hrest)

theorem Database.Marked.trans {db db' db'' : Database} (h : db.Marked db') (h' : db'.Marked db'') :
    db.Marked db'' :=
  ModuleRow.marked_trans h h'

/-- A row that is marked with a status at a time. -/
def ModuleRow.marking (status : ModuleStatus) (now : Instant) (r : ModuleRow) : ModuleRow :=
  { r with status := .text status.text, updatedAt := .text (Rfc3339.stored now) }

/-- A module that is read and written over with another status only marks its row. -/
theorem ModuleRow.overwritten_eq_marking {r : ModuleRow} {m : WorldModule} (hr : r.FieldsWritten)
    (hm : r.decode = .ok m) (status : ModuleStatus) (now : Instant) :
    Modules.overwritten (ModuleRow.ofModule ({ m with status := status }.touch none now)) r =
      r.marking status now := by
  have hreads := decode_eq_ok.1 hm
  obtain ⟨fields, hfields⟩ := hr
  have hsame : m.fields = fields :=
    Option.some.inj (hreads.fieldValues?_eq.symm.trans (fieldValues?_eq hfields))
  rw [Modules.overwritten, marking, mk.injEq]
  refine ⟨rfl, rfl, rfl, ?_, rfl, hreads.hash.symm, hreads.content.symm, ?_, rfl, rfl⟩
  · rw [hfields, ← hsame]
    rfl
  · rw [hreads.lastEditor]
    rfl

/-- Marking the module of a job marks its row, if there is one, and leaves all else. -/
theorem Engine.Marks.db_eq {db db' : Database} {job : Job} {status : ModuleStatus} {now : Instant}
    {ws : List Write} (h : Marks db job status now ws)
    (hkeys : (db.modules.map fun r => (r.world, r.key)).Nodup) (hfields : db.FieldsWritten)
    (hjournal : Journal db ws db') :
    db' = { db with
      modules := db.modules.map fun r =>
        if Modules.isOf job.world job.moduleKey r then r.marking status now else r } := by
  cases h with
  | absent habsent =>
    rw [Journal.nil_iff.1 hjournal]
    have hsame : (db.modules.map fun r =>
        if Modules.isOf job.world job.moduleKey r then r.marking status now else r) = db.modules :=
      (List.map_congr_left fun r hr => if_neg (Bool.eq_false_iff.1 (habsent r hr))).trans
        (List.map_id' db.modules)
    rw [hsame]
  | @stored m hm =>
    rw [Journal.nil_iff.1 (Journal.cons_iff.1 hjournal).2]
    have hworld := hm.world_eq
    have hkey := hm.key_eq
    obtain ⟨row, hfind, hdecode⟩ := hm
    have hrow : row ∈ db.modules := List.mem_of_find?_eq_some hfind
    have hof := List.find?_some hfind
    have hany : db.modules.any (Modules.isOf m.world m.key) = true :=
      List.any_eq_true.2 ⟨row, hrow, by rw [hworld, hkey]; exact hof⟩
    have htable : ((Write.saveModule ({ m with status := status }.touch none now)).apply
        db).modules = db.modules.map fun r => if Modules.isOf m.world m.key r then
          Modules.overwritten
            (ModuleRow.ofModule ({ m with status := status }.touch none now)) r else r :=
      if_pos hany
    have hmarked : ((Write.saveModule ({ m with status := status }.touch none now)).apply
        db).modules = db.modules.map fun r =>
          if Modules.isOf job.world job.moduleKey r then r.marking status now else r := by
      rw [htable, hworld, hkey]
      refine List.map_congr_left fun r hr => ?_
      split
      · rename_i hsame
        -- Keys are distinct, so this is the row that the module was read from.
        have heq : r = row :=
          Option.some.inj ((Modules.find?_isOf hkeys hr hsame).symm.trans hfind)
        rw [heq]
        exact ModuleRow.overwritten_eq_marking (hfields row hrow) hdecode status now
      · rfl
    rw [← hmarked]
    rfl

/-- Marking the module of a job leaves all modules but for the mark. -/
theorem Engine.Marks.marked {db db' : Database} {job : Job} {status : ModuleStatus} {now : Instant}
    {ws : List Write} (h : Marks db job status now ws) (hdb : db.Sound)
    (hfields : db.FieldsWritten) (hjournal : Journal db ws db') : db.Marked db' := by
  rw [h.db_eq hdb.moduleKeys hfields hjournal, Database.Marked, List.forall₂_map_right_iff,
    List.forall₂_same]
  intro r hr
  split
  · exact ⟨_, _, rfl⟩
  · exact Chain.refl r

/-- Failing a job and marking its module leaves all modules but for the mark. -/
theorem Engine.Marks.marked_fail {db db' : Database} {job : Job} {id : JobId} {message : String}
    {now t : Instant} {ws : List Write} (h : Marks db job .failed now ws) (hdb : db.Sound)
    (hfields : db.FieldsWritten) (hjournal : Journal db (.fail id message t :: ws) db') :
    db.Marked db' := by
  obtain ⟨hallowed, hrest⟩ := Journal.cons_iff.1 hjournal
  have hmarks : Marks ((Write.fail id message t).apply db) job .failed now ws :=
    h.of_modules_eq rfl
  exact hmarks.marked (hdb.apply hallowed) (hfields.apply _) hrest

/-- A look at stale leases leaves all modules but for marks. -/
theorem Engine.marked_of_recoverStaleLeases {timeout : Span} {s : Studio} {js : List Job}
    {s' : Studio} (h : Yields (recoverStaleLeases timeout) s js s') (hdb : s.db.Sound)
    (hfields : s.db.FieldsWritten) : s.db.Marked s'.db := by
  have hall : s'.db.Sound ∧ s'.db.FieldsWritten ∧ s.db.Marked s'.db := by
    refine recoverStaleLeases_invariant
      (I := fun d => d.Sound ∧ d.FieldsWritten ∧ s.db.Marked d) h
      (fun d d' job now ws hmarks hjournal hd => ?_) ⟨hdb, hfields, .refl _⟩
    exact ⟨hd.1.journal hjournal, hd.2.1.journal hjournal,
      hd.2.2.trans (hmarks.marked_fail hd.1 hd.2.1 hjournal)⟩
  exact hall.2.2

/-- Marked modules have the field values that they had. -/
theorem Database.Marked.fieldMap_eq {db db' : Database} (h : db.Marked db') (world : WorldId)
    (key : String) : db'.fieldMap world key = db.fieldMap world key := by
  unfold Database.Marked at h
  unfold Database.fieldMap
  generalize db.modules = xs at h ⊢
  generalize db'.modules = ys at h ⊢
  induction h with
  | nil => rfl
  | cons hab _ ih =>
    obtain ⟨status, updatedAt, rfl⟩ := hab
    -- Neither names nor field values are marked.
    rw [List.find?_cons, List.find?_cons]
    simp only [Modules.isOf]
    split
    · rfl
    · exact ih

end Lorebook
