import Lorebook.Proofs.Statements

set_option autoImplicit false

/-! # Rows that are written over

A row can be read as a value exactly when each of its cells holds what the value has there
(`Reads`), its times included. Rows that were read and then changed in some cells can therefore be
read again as soon as the new cells can. Saving a module writes over the row of its names and over
no other. -/

namespace Lorebook

/-! ## Times -/

/-- The cell holds a timestamp of the instant. -/
def Cell.HoldsTime (c : Cell) (t : Instant) : Prop :=
  ∃ raw, c = .text raw ∧ Rfc3339.parse? raw = some t

/-- The cell holds a timestamp of the instant, or nothing when there is none. -/
def Cell.HoldsTime? (c : Cell) : Option Instant → Prop
  | none => c = .null
  | some t => c.HoldsTime t

namespace CellAt

theorem parseTime_eq_ok (c : CellAt) (raw : String) (t : Instant) :
    c.parseTime raw = .ok t ↔ Rfc3339.parse? raw = some t := by
  unfold parseTime fail
  cases Rfc3339.parse? raw <;> simp

theorem time_eq_ok (c : CellAt) (t : Instant) : c.time = .ok t ↔ c.cell.HoldsTime t := by
  unfold time
  simp only [Decoded.bind_eq_ok, text_eq_ok, parseTime_eq_ok]
  rfl

theorem timeOption_eq_ok (c : CellAt) (t : Option Instant) :
    c.timeOption = .ok t ↔ c.cell.HoldsTime? t := by
  unfold timeOption
  simp only [Decoded.bind_eq_ok, textOption_eq_ok]
  constructor
  · rintro ⟨raw, hraw, h⟩
    cases raw with
    | none =>
      obtain rfl := (Decoded.pure_eq_ok _ _).1 h
      exact hraw
    | some raw =>
      simp only [Decoded.bind_eq_ok, parseTime_eq_ok, Decoded.pure_eq_ok] at h
      obtain ⟨u, hu, rfl⟩ := h
      exact ⟨raw, hraw, hu⟩
  · intro h
    cases t with
    | none => exact ⟨none, h, (Decoded.pure_eq_ok _ _).2 rfl⟩
    | some t =>
      obtain ⟨raw, hraw, ht⟩ := h
      refine ⟨some raw, hraw, ?_⟩
      simp only [Decoded.bind_eq_ok, parseTime_eq_ok, Decoded.pure_eq_ok]
      exact ⟨t, ht, rfl⟩

end CellAt

/-! ## Worlds -/

/-- Every cell of the row holds what the world has there. -/
structure WorldRow.Reads (r : WorldRow) (w : World) : Prop extends r.Holds w where
  themes : ∃ raw, r.themes = .text raw ∧
    (Json.parseRecord? raw).bind (Json.decodeList Json.decodeText) = some w.themes
  publishedAt : r.publishedAt.HoldsTime? w.publishedAt
  createdAt : r.createdAt.HoldsTime w.createdAt
  updatedAt : r.updatedAt.HoldsTime w.updatedAt
  deletedAt : r.deletedAt.HoldsTime? w.deletedAt

theorem WorldRow.decode_eq_ok {r : WorldRow} {w : World} : r.decode = .ok w ↔ r.Reads w := by
  constructor
  · intro h
    have hholds := holds_of_decode h
    unfold decode at h
    simp only [Decoded.bind_eq_ok, Decoded.pure_eq_ok, CellAt.text_eq_ok, CellAt.textOption_eq_ok,
      CellAt.int_eq_ok, CellAt.parseWord_eq_ok, CellAt.parseJson_eq_ok, CellAt.time_eq_ok,
      CellAt.timeOption_eq_ok] at h
    obtain ⟨_, _, raw, hraw, _, _, _, _, _, _, _, _, themes, hthemes, _, _, _, _, publishedAt,
      hpublished, createdAt, hcreated, updatedAt, hupdated, deletedAt, hdeleted, rfl⟩ := h
    exact ⟨hholds, ⟨raw, hraw, hthemes⟩, hpublished, hcreated, hupdated, hdeleted⟩
  · intro h
    obtain ⟨raw, hraw, hthemes⟩ := h.themes
    unfold decode
    simp only [Decoded.bind_eq_ok, Decoded.pure_eq_ok, CellAt.text_eq_ok, CellAt.textOption_eq_ok,
      CellAt.int_eq_ok, CellAt.parseWord_eq_ok, CellAt.parseJson_eq_ok, CellAt.time_eq_ok,
      CellAt.timeOption_eq_ok]
    exact ⟨_, h.status, raw, hraw, _, h.id, _, h.owner, _, h.name, _, h.tagline, _, hthemes, _,
      WorldStatus.ofText?_text _, _, h.version, _, h.publishedAt, _, h.createdAt, _, h.updatedAt, _,
      h.deletedAt, rfl⟩

/-! ## Modules -/

/-- Every cell of the row holds what the module has there. -/
structure ModuleRow.Reads (r : ModuleRow) (m : WorldModule) : Prop extends r.Holds m where
  lastEditor : r.lastEditor = .ofOption (m.lastEditor.map (·.text))
  createdAt : r.createdAt.HoldsTime m.createdAt
  updatedAt : r.updatedAt.HoldsTime m.updatedAt

theorem ModuleRow.decode_eq_ok {r : ModuleRow} {m : WorldModule} :
    r.decode = .ok m ↔ r.Reads m := by
  constructor
  · intro h
    have hholds := holds_of_decode h
    unfold decode at h
    simp only [Decoded.bind_eq_ok, Decoded.pure_eq_ok, CellAt.text_eq_ok, CellAt.textOption_eq_ok,
      CellAt.parseWord_eq_ok, CellAt.parseJson_eq_ok, CellAt.time_eq_ok] at h
    obtain ⟨_, _, _, _, _, _, _, _, _, _, _, _, _, _, _, _, _, _, editor, heditor, createdAt,
      hcreated, updatedAt, hupdated, rfl⟩ := h
    refine ⟨hholds, ?_, hcreated, hupdated⟩
    cases editor <;> exact heditor
  · intro h
    obtain ⟨raw, hraw, hfields⟩ := h.fields
    unfold decode
    simp only [Decoded.bind_eq_ok, Decoded.pure_eq_ok, CellAt.text_eq_ok, CellAt.textOption_eq_ok,
      CellAt.parseWord_eq_ok, CellAt.parseJson_eq_ok, CellAt.time_eq_ok]
    refine ⟨raw, hraw, _, h.status, _, hfields, _, h.id, _, h.world, _, h.key, _,
      ModuleStatus.ofText?_text _, _, h.hash, _, h.content, _, h.lastEditor, _, h.createdAt, _,
      h.updatedAt, ?_⟩
    cases m with
    | mk id world key fields status hash content lastEditor createdAt updatedAt =>
      cases lastEditor <;> rfl

/-- A row that a module was written over can be read as the module, under the names and the time of
creation that it had. -/
theorem ModuleRow.Reads.overwritten {r : ModuleRow} {m n : WorldModule} (h : r.Reads m)
    {t : Instant} (ht : Rfc3339.parse? (Rfc3339.stored n.updatedAt) = some t) :
    (Modules.overwritten (ModuleRow.ofModule n) r).Reads
      { n with
        id := m.id
        world := m.world
        key := m.key
        createdAt := m.createdAt
        updatedAt := t } where
  id := h.id
  world := h.world
  key := h.key
  fields := ⟨_, rfl, FieldMap.decode_compact n.fields⟩
  status := rfl
  hash := rfl
  content := rfl
  lastEditor := rfl
  createdAt := h.createdAt
  updatedAt := ⟨_, rfl, ht⟩

/-! ## Jobs -/

/-- Every cell of the row holds what the job has there. -/
structure JobRow.Reads (r : JobRow) (j : Job) : Prop extends r.Holds j where
  type : r.type = .text j.type.text
  sequence_lt : j.sequence < twoPow 32
  attempts_lt : j.attempts < twoPow 32
  startedAt : r.startedAt.HoldsTime? j.startedAt
  finishedAt : r.finishedAt.HoldsTime? j.finishedAt
  createdAt : r.createdAt.HoldsTime j.createdAt
  updatedAt : r.updatedAt.HoldsTime j.updatedAt

theorem JobType.text_of_ofText? {word : String} {t : JobType} (h : ofText? word = some t) :
    word = t.text := by
  unfold ofText? at h
  split at h
  · rename_i hword
    cases t
    exact hword
  · cases h

theorem JobRow.decode_eq_ok {r : JobRow} {j : Job} : r.decode = .ok j ↔ r.Reads j := by
  constructor
  · intro h
    have hholds := holds_of_decode h
    unfold decode at h
    simp only [Decoded.bind_eq_ok, Decoded.pure_eq_ok, CellAt.text_eq_ok, CellAt.textOption_eq_ok,
      CellAt.nat32_eq_ok, CellAt.parseWord_eq_ok, CellAt.time_eq_ok, CellAt.timeOption_eq_ok] at h
    obtain ⟨type, htype, _, _, _, _, _, _, _, _, _, hsequence, _, hword, _, _, _, hattempts, _, _,
      _, hstarted, _, hfinished, _, hcreated, _, hupdated, rfl⟩ := h
    rw [JobType.text_of_ofText? hword] at htype
    exact ⟨hholds, htype, hsequence.2, hattempts.2, hstarted, hfinished, hcreated, hupdated⟩
  · intro h
    unfold decode
    simp only [Decoded.bind_eq_ok, Decoded.pure_eq_ok, CellAt.text_eq_ok, CellAt.textOption_eq_ok,
      CellAt.nat32_eq_ok, CellAt.parseWord_eq_ok, CellAt.time_eq_ok, CellAt.timeOption_eq_ok]
    exact ⟨_, h.type, _, h.status, _, h.id, _, h.world, _, h.moduleKey, _,
      ⟨h.sequence, h.sequence_lt⟩, _, JobType.ofText?_text _, _, JobStatus.ofText?_text _, _,
      ⟨h.attempts, h.attempts_lt⟩, _, h.lastError, _, h.startedAt, _, h.finishedAt, _, h.createdAt,
      _, h.updatedAt, rfl⟩

/-! ## What saving a module leaves -/

namespace Write

variable {m : WorldModule} {rows : List ModuleRow}

/-- A row after a module was saved has the names of one before, or it is new. -/
theorem names_of_saveModule {r : ModuleRow} (hr : r ∈ (saveModule m).onModules rows) :
    (∃ q ∈ rows, r.id = q.id ∧ r.world = q.world ∧ r.key = q.key) ∨
      ((∀ q ∈ rows, Modules.isOf m.world m.key q = false) ∧ r = ModuleRow.ofModule m) := by
  simp only [onModules] at hr
  split at hr
  · obtain ⟨q, hq, rfl⟩ := List.mem_map.1 hr
    refine Or.inl ⟨q, hq, ?_⟩
    split <;> exact ⟨rfl, rfl, rfl⟩
  · rename_i hnone
    rcases List.mem_append.1 hr with hr | hr
    · exact Or.inl ⟨r, hr, rfl, rfl, rfl⟩
    · refine Or.inr ⟨fun q hq => ?_, List.mem_singleton.1 hr⟩
      exact Bool.eq_false_iff.2 fun h => hnone (List.any_eq_true.2 ⟨q, hq, h⟩)

/-- The rows before a module is saved keep their names. -/
theorem exists_saveModule {q : ModuleRow} (hq : q ∈ rows) :
    ∃ r ∈ (saveModule m).onModules rows, r.id = q.id ∧ r.world = q.world ∧ r.key = q.key := by
  simp only [onModules]
  split
  · refine ⟨_, List.mem_map_of_mem hq, ?_⟩
    split <;> exact ⟨rfl, rfl, rfl⟩
  · exact ⟨q, List.mem_append_left _ hq, rfl, rfl, rfl⟩

/-- Saving a module leaves the rows of all others. -/
theorem mem_saveModule_of_other {r : ModuleRow} (hr : Modules.isOf m.world m.key r = false) :
    r ∈ (saveModule m).onModules rows ↔ r ∈ rows := by
  simp only [onModules]
  split
  · rw [List.mem_map]
    constructor
    · rintro ⟨q, hq, rfl⟩
      by_cases hof : Modules.isOf m.world m.key q = true
      · -- A row that is overwritten stays one of the module.
        rw [if_pos hof] at hr
        exact absurd hof (Bool.eq_false_iff.1 hr)
      · rwa [if_neg hof]
    · intro hmem
      exact ⟨r, hmem, if_neg (Bool.eq_false_iff.1 hr)⟩
  · rw [List.mem_append, List.mem_singleton]
    refine or_iff_left fun heq => ?_
    rw [heq, Modules.isOf_iff.2 ⟨rfl, rfl⟩] at hr
    cases hr

/-- What is found under the names of a saved module: it, written over what was found before. -/
theorem find?_saveModule_self :
    ((saveModule m).onModules rows).find? (Modules.isOf m.world m.key) =
      some (((rows.find? (Modules.isOf m.world m.key)).map
        (Modules.overwritten (ModuleRow.ofModule m))).getD (ModuleRow.ofModule m)) := by
  have hself : Modules.isOf m.world m.key (ModuleRow.ofModule m) = true :=
    Modules.isOf_iff.2 ⟨rfl, rfl⟩
  simp only [onModules]
  split
  · rename_i hany
    obtain ⟨q, hq, hof⟩ := List.any_eq_true.1 hany
    have hkept : (Modules.isOf m.world m.key ∘ fun r => if Modules.isOf m.world m.key r then
        Modules.overwritten (ModuleRow.ofModule m) r else r) = Modules.isOf m.world m.key := by
      funext r
      rw [Function.comp_apply]
      split <;> rfl
    rw [List.find?_map, hkept]
    cases hfind : rows.find? (Modules.isOf m.world m.key) with
    | none => exact absurd hof (List.find?_eq_none.1 hfind q hq)
    | some row => rw [Option.map_some, if_pos (List.find?_some hfind)]; rfl
  · rename_i hnone
    have hfind : rows.find? (Modules.isOf m.world m.key) = none :=
      List.find?_eq_none.2 fun q hq hof => hnone (List.any_eq_true.2 ⟨q, hq, hof⟩)
    rw [List.find?_append, hfind, List.find?_singleton, if_pos hself]
    rfl

/-- What is found under other names is not touched. -/
theorem find?_saveModule_of_ne {world : WorldId} {key : String}
    (hne : ¬ (m.world = world ∧ m.key = key)) :
    ((saveModule m).onModules rows).find? (Modules.isOf world key) =
      rows.find? (Modules.isOf world key) := by
  -- No row is of both modules.
  have hother {r : ModuleRow} (hof : Modules.isOf m.world m.key r = true) :
      ¬ Modules.isOf world key r = true := by
    intro hof'
    rw [Modules.isOf_iff] at hof hof'
    refine hne ⟨WorldId.eq_of_text ?_, ?_⟩
    · exact Cell.text.inj (hof.1.symm.trans hof'.1)
    · exact Cell.text.inj (hof.2.symm.trans hof'.2)
  simp only [onModules]
  split
  · rw [List.find?_map]
    have hkept : (Modules.isOf world key ∘ fun r => if Modules.isOf m.world m.key r then
        Modules.overwritten (ModuleRow.ofModule m) r else r) = Modules.isOf world key := by
      funext r
      rw [Function.comp_apply]
      split <;> rfl
    rw [hkept]
    cases hfind : rows.find? (Modules.isOf world key) with
    | none => rfl
    | some row =>
      rw [Option.map_some, if_neg fun hof => hother hof (List.find?_some hfind)]
  · rw [List.find?_append, List.find?_singleton,
      if_neg (hother (Modules.isOf_iff.2 ⟨rfl, rfl⟩)), Option.or_none]

end Write

/-- A stored module that is written over is stored as written, under the name and with the time of
creation that it had. -/
theorem Database.StoredModule.saved {db : Database} {world : WorldId} {key : String}
    {m n : WorldModule} (h : db.StoredModule world key m) (hworld : n.world = world)
    (hkey : n.key = key) {now t : Instant} (hnow : n.updatedAt = now)
    (ht : Rfc3339.parse? (Rfc3339.stored now) = some t) :
    ((Write.saveModule n).apply db).StoredModule world key
      { n with
        id := m.id
        world := m.world
        key := m.key
        createdAt := m.createdAt
        updatedAt := t } := by
  subst hworld hkey hnow
  obtain ⟨row, hfind, hdecode⟩ := h
  refine ⟨Modules.overwritten (ModuleRow.ofModule n) row, ?_,
    ModuleRow.decode_eq_ok.2 ((ModuleRow.decode_eq_ok.1 hdecode).overwritten ht)⟩
  rw [Write.apply_modules, Write.find?_saveModule_self, hfind]
  rfl

end Lorebook
