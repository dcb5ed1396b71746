import Lorebook.Proofs.FieldHistory
import Lorebook.Proofs.Legibility
import Lorebook.Proofs.WorldRows

set_option autoImplicit false

/-! # Modules that are saved again

Saving a module writes over the row of its key, which keeps its name and its time of creation. So
what is found under a key after any number of saves is the module that was saved last, under the
name and with the time of creation of the one that was first stored (`Journal.stored_of_saves`).
Along a run neither ever changes: a key whose row was removed with its world gets no row again
(`System.sameOrigin_run`). -/

namespace Lorebook

open Studio Operation Engine

/-! ## Saving -/

/-- The module under the name and with the time of creation of another one, if there is one. -/
def WorldModule.keeping (m : WorldModule) : Option WorldModule → WorldModule
  | none => m
  | some first => { m with id := first.id, createdAt := first.createdAt }

/-- The times of the module lie in years of four digits. -/
structure WorldModule.InEra (m : WorldModule) : Prop where
  createdAt : m.createdAt.InEra
  updatedAt : m.updatedAt.InEra

theorem Modules.succeeds_save_iff {db : Database} (hcomplete : db.dropped = []) {m : WorldModule} :
    Succeeds (save m) db ↔ (Write.saveModule m).Allowed db := by
  constructor
  · rintro ⟨_, _, h⟩
    exact (Journal.cons_iff.1 (journal_save h)).1
  · intro h
    exact (yields_save_allowed hcomplete h).succeeds

theorem Modules.journal_saveAll {ms : List WorldModule} {db : Database} {u : PUnit}
    {db' : Database} (h : Yields (ms.forM save) db u db') :
    Journal db (ms.map .saveModule) db' := by
  induction ms generalizing db with
  | nil =>
    have h' : Yields (pure PUnit.unit : Statement PUnit) db u db' := h
    exact Journal.nil_iff.2 ((yields_pure _ _ _ _).1 h').2
  | cons m ms ih =>
    have h' : Yields (save m >>= fun _ => ms.forM save) db u db' := h
    rw [yields_bind] at h'
    obtain ⟨_, t, hsave, hrest⟩ := h'
    exact (journal_save hsave).append (ih hrest)

namespace Database

variable {db : Database} {m n : WorldModule}

theorem Readable.saveModule (h : db.Readable) (hm : m.InEra) :
    ((Write.saveModule m).apply db).Readable where
  worlds := h.worlds
  jobs := h.jobs
  modules r hr := by
    rw [Write.apply_modules, Write.onModules] at hr
    split at hr
    · obtain ⟨q, hq, rfl⟩ := List.mem_map.1 hr
      obtain ⟨k, hk⟩ := h.modules q hq
      split
      · exact ⟨_, ModuleRow.decode_eq_ok.2
          ((ModuleRow.decode_eq_ok.1 hk).overwritten (Rfc3339.parse?_stored hm.updatedAt))⟩
      · exact ⟨k, hk⟩
    · rcases List.mem_append.1 hr with hr | hr
      · exact h.modules r hr
      · rw [List.mem_singleton.1 hr]
        exact ⟨m, ModuleRow.decode_eq_ok.2 (ModuleRow.reads_ofModule hm.createdAt hm.updatedAt)⟩

/-- A module that is saved where there was none is stored as it is. -/
theorem stored_of_fresh (habsent : ∀ r ∈ db.modules, Modules.isOf m.world m.key r = false)
    (hm : m.InEra) : ((Write.saveModule m).apply db).StoredModule m.world m.key m := by
  refine ⟨ModuleRow.ofModule m, ?_,
    ModuleRow.decode_eq_ok.2 (ModuleRow.reads_ofModule hm.createdAt hm.updatedAt)⟩
  rw [Write.apply_modules, Write.find?_saveModule_self, Modules.find?_isOf_eq_none habsent]
  rfl

/-- A saved module is stored under the name and with the time of creation that were stored for its
key. -/
theorem Readable.stored_save (h : db.Readable) (hm : m.InEra) :
    ((Write.saveModule m).apply db).StoredModule m.world m.key
      (m.keeping (db.module? m.world m.key)) := by
  rcases Modules.stored_or_absent h m.world m.key with ⟨first, hfirst⟩ | habsent
  · have hsaved := hfirst.saved (n := m) rfl rfl rfl (Rfc3339.parse?_stored hm.updatedAt)
    rw [hfirst.world_eq, hfirst.key_eq] at hsaved
    rw [hfirst.module?_eq]
    exact hsaved
  · rw [module?_eq_none habsent]
    exact stored_of_fresh habsent hm

theorem module?_save_of_ne {world : WorldId} {key : String}
    (hne : ¬ (m.world = world ∧ m.key = key)) :
    ((Write.saveModule m).apply db).module? world key = db.module? world key := by
  rw [module?, module?, Write.apply_modules, Write.find?_saveModule_of_ne hne]

end Database

/-- After any saves, a module is stored as it was saved last, under the name and with the time of
creation of the one that was stored before them or else saved first. -/
theorem Journal.stored_of_saves {ms : List WorldModule} {m : WorldModule} {db db' : Database}
    (h : Journal db ((ms ++ [m]).map .saveModule) db') (hrows : db.Readable)
    (hms : ∀ n ∈ ms ++ [m], n.InEra) :
    db'.StoredModule m.world m.key (m.keeping ((db.module? m.world m.key).or
      (ms.find? fun n => n.world = m.world ∧ n.key = m.key))) := by
  induction ms generalizing db with
  | nil =>
    obtain rfl := nil_iff.1 (cons_iff.1 h).2
    rw [List.find?_nil, Option.or_none]
    exact hrows.stored_save (hms m List.mem_cons_self)
  | cons n ms ih =>
    have hn := hms n List.mem_cons_self
    have hrest := ih (cons_iff.1 h).2 (hrows.saveModule hn)
      fun k hk => hms k (List.mem_cons_of_mem n hk)
    by_cases hsame : n.world = m.world ∧ n.key = m.key
    · -- The module that is saved first is the one to keep, unless there was one before it.
      have hstored := hrows.stored_save hn
      rw [hsame.1, hsame.2] at hstored
      rw [hstored.module?_eq, Option.some_or] at hrest
      rw [List.find?_cons_of_pos (by simpa using hsame)]
      cases hfirst : db.module? m.world m.key with
      | none => rwa [hfirst] at hrest
      | some first => rwa [hfirst] at hrest
    · rw [Database.module?_save_of_ne hsame] at hrest
      rwa [List.find?_cons_of_neg (by simpa using hsame)]

/-! ## Runs -/

/-- The row has the names and the time of creation of another. -/
structure ModuleRow.SameOrigin (r r' : ModuleRow) : Prop where
  id : r'.id = r.id
  world : r'.world = r.world
  key : r'.key = r.key
  createdAt : r'.createdAt = r.createdAt

/-- A write keeps the origin of a row, unless it removes its world. -/
theorem Write.exists_sameOrigin {w : Write} {rows : List ModuleRow} {r q : ModuleRow}
    {world : WorldId} (hw : w ≠ .removeWorld world) (hworld : r.world = .text world.text)
    (hq : q ∈ rows) (h : r.SameOrigin q) : ∃ q' ∈ w.onModules rows, r.SameOrigin q' := by
  cases w with
  | saveModule m =>
    simp only [onModules]
    split
    · refine ⟨_, List.mem_map_of_mem hq, ?_⟩
      split
      · exact ⟨h.id, h.world, h.key, h.createdAt⟩
      · exact h
    · exact ⟨q, List.mem_append_left _ hq, h⟩
  | removeWorld id =>
    refine ⟨q, List.mem_filter.2 ⟨hq, ?_⟩, h⟩
    rw [Bool.not_eq_true', Cell.isText_eq_false_iff, h.world, hworld]
    intro heq
    exact hw (congrArg removeWorld (WorldId.eq_of_text (Cell.text.inj heq)).symm)
  | _ => exact ⟨q, hq, h⟩

/-- The database has no world of a name and no module of it. -/
structure Database.Lacks (db : Database) (world : WorldId) : Prop where
  worlds : ∀ r ∈ db.worlds, r.id ≠ .text world.text
  modules : ∀ r ∈ db.modules, r.world ≠ .text world.text

/-- No module of a world that is lacking is stored. -/
theorem Database.Lacks.apply {db : Database} {world : WorldId} (h : db.Lacks world) {w : Write}
    (hallowed : w.Allowed db) (hw : ∀ v, w ≠ .addWorld v) : (w.apply db).Lacks world := by
  have hworlds : ∀ r ∈ (w.apply db).worlds, r.id ≠ .text world.text := by
    intro r hr
    cases (Journal.single hallowed).worldRow_after r hr with
    | kept hq hid _ => exact hid ▸ h.worlds _ hq
    | changed hq hid _ _ _ => exact hid ▸ h.worlds _ hq
    | added hadd _ => exact absurd (List.mem_singleton.1 hadd).symm (hw _)
  refine ⟨hworlds, ?_⟩
  cases w with
  | saveModule m =>
    intro r hr
    rcases Write.names_of_saveModule hr with ⟨q, hq, _, hworld, _⟩ | ⟨hnone, rfl⟩
    · exact hworld ▸ h.modules q hq
    · rcases hallowed with ⟨q, hq, hof⟩ | ⟨_, v, hv, hid⟩
      · rw [hnone q hq] at hof
        cases hof
      · intro heq
        exact h.worlds v hv (hid.trans heq)
  | removeWorld id => exact fun r hr => h.modules r (List.mem_filter.1 hr).1
  | _ => exact h.modules

theorem Database.lacks_removeWorld (db : Database) (world : WorldId) :
    ((Write.removeWorld world).apply db).Lacks world where
  worlds r hr := by
    have hother := (List.mem_filter.1 hr).2
    rwa [Bool.not_eq_true', Cell.isText_eq_false_iff] at hother
  modules r hr := by
    have hother := (List.mem_filter.1 hr).2
    rwa [Bool.not_eq_true', Cell.isText_eq_false_iff] at hother

/-- What removes a world does nothing else. -/
theorem Effect.eq_of_removeWorld {e : Engine} {s : System} {ev : Event} {opened : List Job}
    {ws : List Write} (h : Effect e s ev opened ws) {world : WorldId}
    (hmem : .removeWorld world ∈ ws) : ws = [.removeWorld world] := by
  by_cases hev : ev = .command (.hardDelete world)
  · subst hev
    cases h with
    | nothing => cases hmem
    | remove => rfl
  · exact absurd hmem (h.removeWorld_notMem hev)

/-- What adds a world does nothing else. -/
theorem Effect.eq_of_addWorld {e : Engine} {s : System} {ev : Event} {opened : List Job}
    {ws : List Write} (h : Effect e s ev opened ws) {w : World} (hmem : .addWorld w ∈ ws) :
    ws = [.addWorld w] := by
  by_cases hev : ∃ owner name tagline themes,
      ev = .command (.createWorld owner name tagline themes)
  · obtain ⟨owner, name, tagline, themes, rfl⟩ := hev
    cases h with
    | nothing => cases hmem
    | createWorld _ => rw [List.mem_singleton.1 hmem]
  · exact absurd hmem (h.addWorld_notMem
      (fun owner name tagline themes heq => hev ⟨owner, name, tagline, themes, heq⟩) w)

namespace System

variable {s : System} {r : ModuleRow} {world : WorldId}

/-- The row is still there, with its origin, or its world is gone with all of its modules. -/
def Keeps (s : System) (world : WorldId) (r : ModuleRow) : Prop :=
  (∃ q ∈ s.studio.db.modules, r.SameOrigin q) ∨ s.Named world ∧ s.studio.db.Lacks world

/-- A world that is lacking under a name that was given out is lacking after every event. -/
theorem lacks_step (h : s.Sound) (hnamed : s.Named world) (hlacks : s.studio.db.Lacks world)
    (e : Engine) (ev : Event) : (s.step e ev).studio.db.Lacks world := by
  obtain ⟨opened, ws, heffect, hcommit, _⟩ := s.step_effect e ev
  by_cases hadds : ∃ v, .addWorld v ∈ ws
  · -- A new world has a name of its own, and comes without modules.
    obtain ⟨v, hv⟩ := hadds
    obtain rfl := heffect.eq_of_addWorld hv
    have hgone : s.Gone world := ⟨hnamed, hlacks.worlds⟩
    refine ⟨(hgone.step h e ev).absent, ?_⟩
    rw [hcommit.journal.modules_eq (List.forall_mem_singleton.2 fun _ => rfl)]
    exact hlacks.modules
  · exact hcommit.journal.invariant (I := fun d => d.Lacks world)
      (fun w hw d hallowed hd => hd.apply hallowed fun v heq => hadds ⟨v, heq ▸ hw⟩) hlacks

theorem Keeps.step (hkeeps : s.Keeps world r) (h : s.Sound) (hnamed : s.WorldsNamed)
    (hworld : r.world = .text world.text) (e : Engine) (ev : Event) :
    (s.step e ev).Keeps world r := by
  rcases hkeeps with ⟨q, hq, horigin⟩ | ⟨hgiven, hlacks⟩
  · obtain ⟨opened, ws, heffect, hcommit, _⟩ := s.step_effect e ev
    by_cases hremoves : .removeWorld world ∈ ws
    · obtain rfl := heffect.eq_of_removeWorld hremoves
      obtain ⟨⟨v, hv, hid⟩, hdone⟩ := Journal.cons_iff.1 hcommit.journal
      refine Or.inr ⟨(hnamed.named hv hid).step e ev, ?_⟩
      rw [Journal.nil_iff.1 hdone]
      exact Database.lacks_removeWorld _ world
    · exact Or.inl (hcommit.journal.invariant (I := fun d => ∃ q ∈ d.modules, r.SameOrigin q)
        (fun w hw d _ ⟨p, hp, hsame⟩ =>
          Write.exists_sameOrigin (fun heq => hremoves (heq ▸ hw)) hworld hp hsame)
        ⟨q, hq, horigin⟩)
  · exact Or.inr ⟨hgiven.step e ev, lacks_step h hgiven hlacks e ev⟩

theorem Keeps.foldl (hkeeps : s.Keeps world r) (h : s.Sound) (hnamed : s.WorldsNamed)
    (hworld : r.world = .text world.text) (e : Engine) (later : List Event) :
    (later.foldl (System.step e) s).Keeps world r := by
  induction later generalizing s with
  | nil => exact hkeeps
  | cons ev later ih =>
    exact ih (hkeeps.step h hnamed hworld e ev) (h.step e ev) (worldsNamed_step h hnamed e ev)

/-- In every run, the row that a module has once it is stored keeps its name and its time of
creation: no other row is ever stored for its key. -/
theorem sameOrigin_run (e : Engine) (events later : List Event) {r : ModuleRow}
    (hr : r ∈ (run e events).studio.db.modules) (hworld : r.world = .text world.text)
    {r' : ModuleRow} (hr' : r' ∈ (run e (events ++ later)).studio.db.modules)
    (hsame : r'.world = r.world) (hkey : r'.key = r.key) : r.SameOrigin r' := by
  have hkeeps : (run e events).Keeps world r := Or.inl ⟨r, hr, rfl, rfl, rfl, rfl⟩
  have hlater := hkeeps.foldl (Sound.run e events) (worldsNamed e events) hworld e later
  rw [run, ← List.foldl_append, ← run] at hlater
  rcases hlater with ⟨q, hq, horigin⟩ | ⟨_, hlacks⟩
  · -- The row of a key is the only one.
    have heq : r' = q := List.inj_on_of_nodup_map
      (Sound.run e (events ++ later)).db.moduleKeys hr' hq
      (by rw [hsame, hkey, horigin.world, horigin.key])
    exact heq ▸ horigin
  · exact absurd (hsame.trans hworld) (hlacks.modules r' hr')

end System

end Lorebook
