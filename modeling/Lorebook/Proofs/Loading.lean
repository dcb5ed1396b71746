import Lorebook.Proofs.Deletion
import Lorebook.Proofs.Draining

set_option autoImplicit false

/-! # Loading a world

Prompts are made from a world and its modules, loaded together. What is loaded is a function of the
rows of the world and of its modules: databases that agree on these have the same loaded
(`Database.AgreesOn.loaded?_eq`), however their rows are ordered and whatever else they hold. -/

namespace Lorebook

open Statement

/-! ## What is loaded -/

/-- Load a live world with its modules. -/
def Statement.load (id : WorldId) : Statement (World × List WorldModule) := do
  return (← Worlds.require id, ← Modules.listForWorld id)

/-- A live world with its modules, as they are loaded. -/
def Database.loaded? (db : Database) (id : WorldId) : Option (World × List WorldModule) :=
  (db.run (load id)).1.toOption

theorem Statement.reads_load (id : WorldId) : Reads (load id) :=
  respects_bind (Worlds.reads_require id) fun _ =>
    respects_bind (Modules.reads_listForWorld id) fun _ => respects_pure _

theorem Statement.yields_load {id : WorldId} {db db' : Database}
    {scope : World × List WorldModule} :
    Yields (load id) db scope db' ↔ db.loaded? id = some scope ∧ db' = db := by
  unfold Database.loaded?
  constructor
  · intro h
    refine ⟨?_, ((reads_load id).of_yields h).symm⟩
    rw [show db.run (load id) = (.ok scope, db') from h]
    rfl
  · rintro ⟨h, rfl⟩
    rcases hrun : load id db' with ⟨cause | scope', t⟩
    · rw [show db'.run (load id) = (.error cause, t) from hrun] at h
      cases h
    · rw [show db'.run (load id) = (.ok scope', t) from hrun] at h
      obtain rfl := Option.some.inj h
      obtain rfl := (reads_load id).of_yields hrun
      exact hrun

namespace Database

variable {db db' : Database} {id : WorldId} {w : World} {ms : List WorldModule}

theorem loaded?_eq_some : db.loaded? id = some (w, ms) ↔
    Yields (Worlds.require id) db w db ∧ Yields (Modules.listForWorld id) db ms db := by
  constructor
  · intro h
    have hload : Yields (load id) db (w, ms) db := yields_load.2 ⟨h, rfl⟩
    simp only [load, yields_bind, yields_pure] at hload
    obtain ⟨v, t, hrequire, ns, u, hlist, hscope, rfl⟩ := hload
    rw [Prod.mk.injEq] at hscope
    obtain ⟨rfl, rfl⟩ := hscope
    obtain rfl := (Worlds.reads_require id).of_yields hrequire
    exact ⟨hrequire, hlist⟩
  · rintro ⟨hrequire, hlist⟩
    exact (yields_load.1 (hrequire.bind (hlist.bind (Yields.pure _ db)))).1

theorem liveWorld_of_loaded? (h : db.loaded? id = some (w, ms)) : db.LiveWorld id w :=
  Worlds.liveWorld_of_require (loaded?_eq_some.1 h).1

end Database

/-- Rows that decode are read, on any database. -/
theorem Statement.yields_mapM_of_decoded {ρ α : Type} {decode : ρ → Decoded α} {rows : List ρ}
    {vs : List α} (h : rows.map decode = vs.map .ok) (db : Database) :
    Yields (rows.mapM fun r => ofDecoded (decode r)) db vs db := by
  have hdecode : ∀ r ∈ rows, ∃ v, decode r = .ok v := by
    intro r hr
    have hmem := List.mem_map_of_mem (f := decode) hr
    rw [h] at hmem
    obtain ⟨v, _, hv⟩ := List.mem_map.1 hmem
    exact ⟨v, hv.symm⟩
  obtain ⟨us, hus⟩ := yields_mapM_ofDecoded hdecode db
  have hsame := (decoded_of_mapM hus).symm.trans h
  rwa [List.map_injective_iff.2 (fun _ _ => Except.ok.inj) hsame] at hus

/-! ## Databases that agree on a world -/

/-- The schema keeps both databases, and they have the same rows of a world and of its modules. -/
structure Database.AgreesOn (id : WorldId) (db db' : Database) : Prop where
  keyed : db.Keyed
  keyed' : db'.Keyed
  world : db.SameWorld db' id
  modules : ∀ r : ModuleRow, r.world = .text id.text → (r ∈ db'.modules ↔ r ∈ db.modules)

/-- The key of a row as a text. -/
def ModuleRow.keyText (r : ModuleRow) : String :=
  match r.key with
  | .text key => key
  | _ => ""

namespace Modules

theorem pairwise_keyText {rows : List ModuleRow} (h : ∀ r ∈ rows, r.key = .text r.keyText) :
    (rows.mergeSort fun a b => a.key.notAfter b.key).Pairwise
      fun a b => a.keyText ≤ b.keyText := by
  refine pairwise_mergeSort_of_key fun a ha b hb => ?_
  rw [h a ha, h b hb]
  exact Cell.notAfter_text a.keyText b.keyText

/-- Rows of distinct keys are listed in one order, however they are stored. -/
theorem mergeSort_eq_of_perm {rows rows' : List ModuleRow} (hperm : rows.Perm rows')
    (htext : ∀ r ∈ rows, r.key = .text r.keyText) (hkeys : (rows.map (·.key)).Nodup) :
    (rows.mergeSort fun a b => a.key.notAfter b.key) =
      rows'.mergeSort fun a b => a.key.notAfter b.key := by
  have htext' : ∀ r ∈ rows', r.key = .text r.keyText := fun r hr => htext r (hperm.mem_iff.2 hr)
  refine List.Perm.eq_of_pairwise (fun a b ha hb hab hba => ?_) (pairwise_keyText htext)
    (pairwise_keyText htext')
    ((List.mergeSort_perm rows _).trans (hperm.trans (List.mergeSort_perm rows' _).symm))
  have ha : a ∈ rows := List.mem_mergeSort.1 ha
  have hb : b ∈ rows := hperm.mem_iff.2 (List.mem_mergeSort.1 hb)
  refine List.inj_on_of_nodup_map hkeys ha hb ?_
  rw [htext a ha, htext b hb, le_antisymm hab hba]

end Modules

namespace Database.AgreesOn

variable {id : WorldId} {db db' : Database}

theorem symm (h : AgreesOn id db db') : AgreesOn id db' db :=
  ⟨h.keyed', h.keyed, fun r hr => (h.world r hr).symm, fun r hr => (h.modules r hr).symm⟩

/-- The modules of the world are listed the same. -/
theorem listForWorld (h : AgreesOn id db db') {ms : List WorldModule}
    (hlist : Yields (Modules.listForWorld id) db ms db) :
    Yields (Modules.listForWorld id) db' ms db' := by
  have hkeys {d : Database} (hd : d.Keyed) :
      ((d.modulesOf id).map fun r => (r.world, r.key)).Nodup := nodup_filter _ hd.moduleKeys
  have hperm : (db.modulesOf id).Perm (db'.modulesOf id) := by
    refine (List.perm_ext_iff_of_nodup ((hkeys h.keyed).of_map _) ((hkeys h.keyed').of_map _)).2
      fun r => ?_
    simp only [modulesOf, List.mem_filter, Cell.isText_iff]
    exact ⟨fun hr => ⟨(h.modules r hr.2).2 hr.1, hr.2⟩, fun hr => ⟨(h.modules r hr.2).1 hr.1, hr.2⟩⟩
  simp only [Modules.listForWorld, yields_bind, yields_needs, yields_get] at hlist
  obtain ⟨_, _, ⟨_, rfl⟩, _, db, ⟨rfl, rfl⟩, hread⟩ := hlist
  have hrows : Yields (((db.modulesOf id).mergeSort fun a b => a.key.notAfter b.key).mapM
      fun r => ofDecoded r.decode) db ms db := hread
  -- The rows were read, so their keys are texts.
  have htext : ∀ r ∈ db.modulesOf id, r.key = .text r.keyText := by
    intro r hr
    have hmem := List.mem_map_of_mem (f := ModuleRow.decode) (List.mem_mergeSort.2 hr :
      r ∈ (db.modulesOf id).mergeSort fun a b => a.key.notAfter b.key)
    rw [decoded_of_mapM hrows] at hmem
    obtain ⟨m, _, hm⟩ := List.mem_map.1 hmem
    have hkey := (ModuleRow.holds_of_decode hm.symm).key
    rw [ModuleRow.keyText, hkey]
  have hdistinct : ((db.modulesOf id).map (·.key)).Nodup := by
    refine (List.nodup_map_iff_inj_on ((hkeys h.keyed).of_map _)).2 fun a ha b hb hab => ?_
    refine List.inj_on_of_nodup_map (hkeys h.keyed) ha hb ?_
    rw [hab, Cell.isText_iff.1 (List.mem_filter.1 ha).2, Cell.isText_iff.1 (List.mem_filter.1 hb).2]
  have hsorted := Modules.mergeSort_eq_of_perm hperm htext hdistinct
  have hdecoded := decoded_of_mapM hrows
  rw [hsorted] at hdecoded
  have hread : Yields (((db'.modulesOf id).mergeSort fun a b => a.key.notAfter b.key).mapM
      fun r => ofDecoded r.decode) db' ms db' := yields_mapM_of_decoded hdecoded db'
  exact (yields_needs_complete h.keyed'.complete _).bind ((Yields.get db').bind hread)

/-- The same is loaded of the world. -/
theorem loaded?_eq (h : AgreesOn id db db') : db'.loaded? id = db.loaded? id := by
  have hto {d d' : Database} (hd : AgreesOn id d d') {scope : World × List WorldModule}
      (hscope : d.loaded? id = some scope) : d'.loaded? id = some scope := by
    obtain ⟨hrequire, hlist⟩ := Database.loaded?_eq_some.1 hscope
    have hlive := (Worlds.liveWorld_of_require hrequire).of_sameWorld hd.keyed'.worldIds hd.world
    exact Database.loaded?_eq_some.2
      ⟨Worlds.yields_require hd.keyed'.complete hlive, hd.listForWorld hlist⟩
  refine Option.ext fun scope => ⟨fun hscope => ?_, fun hscope => hto h hscope⟩
  exact hto h.symm hscope

end Database.AgreesOn

end Lorebook
