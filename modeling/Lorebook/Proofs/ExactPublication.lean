import Lorebook.Proofs.Consistency
import Lorebook.Proofs.LeaseReturn
import Lorebook.Proofs.RegistryConstruction
import Lorebook.Proofs.WrittenRows

set_option autoImplicit false

/-! # Publishing is all or nothing

Publishing gathers the modules of the registry, refuses while a required field stands in the way,
writes back the modules that cannot be taken over, writes back the world, and only then looks
whether a job of the world runs. On a database that the schema keeps and whose rows can be read it
succeeds exactly where `Engine.CanPublish` holds; everywhere else it leaves the database, and where
it succeeds its split and its queue are exact (`Engine.publish_exact`). -/

namespace Lorebook

open Studio Operation Engine

/-! ## Databases that the schema keeps -/

/-- No table is missing, and the keys that the schema declares are distinct. -/
structure Database.Keyed (db : Database) : Prop where
  complete : db.dropped = []
  worldIds : (db.worlds.map (·.id)).Nodup
  moduleKeys : (db.modules.map fun r => (r.world, r.key)).Nodup
  jobKeys : (db.jobs.map fun r => (r.world, r.moduleKey)).Nodup
  jobIds : (db.jobs.map (·.id)).Nodup

instance (db : Database) : Decidable db.Keyed :=
  decidable_of_iff (db.dropped = [] ∧ (db.worlds.map (·.id)).Nodup ∧
      (db.modules.map fun r => (r.world, r.key)).Nodup ∧
      (db.jobs.map fun r => (r.world, r.moduleKey)).Nodup ∧ (db.jobs.map (·.id)).Nodup)
    ⟨fun ⟨h₁, h₂, h₃, h₄, h₅⟩ => ⟨h₁, h₂, h₃, h₄, h₅⟩,
      fun h => ⟨h.complete, h.worldIds, h.moduleKeys, h.jobKeys, h.jobIds⟩⟩

theorem Database.Sound.keyed {db : Database} (h : db.Sound) : db.Keyed :=
  ⟨h.complete, h.worldIds, h.moduleKeys, h.jobKeys, h.jobIds⟩

theorem Database.Keyed.journal {db db' : Database} {ws : List Write} (h : db.Keyed)
    (hws : Journal db ws db') : db'.Keyed :=
  hws.invariant (fun _ _ _ hw hd => ⟨hd.complete, Write.nodup_worlds hw hd.worldIds,
    Write.nodup_modules hw hd.moduleKeys, Write.nodup_jobKeys hw hd.jobIds hd.jobKeys,
    Write.nodup_jobIds hw hd.jobIds⟩) h

/-- The names of modules and jobs that are given out next are not in use. -/
structure Studio.FreshNames (s : Studio) : Prop where
  modules : ∀ r ∈ s.db.modules, ∀ n, s.minted ≤ n → r.id ≠ .text (ModuleId.mint n).text
  jobs : ∀ r ∈ s.db.jobs, ∀ n, s.minted ≤ n → r.id ≠ .text (JobId.mint n).text

theorem ModuleId.mint_text_inj {n m : Nat}
    (h : Cell.text (ModuleId.mint n).text = .text (ModuleId.mint m).text) : n = m :=
  mintedName_inj (Cell.text.inj h)

theorem JobId.mint_text_inj {n m : Nat}
    (h : Cell.text (JobId.mint n).text = .text (JobId.mint m).text) : n = m :=
  mintedName_inj (Cell.text.inj h)

/-- Names are fresh while those in use were given out before. -/
theorem Studio.FreshNames.of_named {s : Studio}
    (hmodules : ∀ r ∈ s.db.modules, ∃ n < s.minted, r.id = .text (ModuleId.mint n).text)
    (hjobs : ∀ r ∈ s.db.jobs, ∃ n < s.minted, r.id = .text (JobId.mint n).text) :
    s.FreshNames where
  modules r hr n hn heq := by
    obtain ⟨k, hk, hid⟩ := hmodules r hr
    have := ModuleId.mint_text_inj (hid.symm.trans heq)
    omega
  jobs r hr n hn heq := by
    obtain ⟨k, hk, hid⟩ := hjobs r hr
    have := JobId.mint_text_inj (hid.symm.trans heq)
    omega

/-! ## What is stored of a module -/

namespace Database

/-- The module of a key as it is stored. -/
def module? (db : Database) (world : WorldId) (key : String) : Option WorldModule :=
  (db.modules.find? (Modules.isOf world key)).bind fun r => r.decode.toOption

/-- Whether the module of a key can be taken over by a publication. -/
def reusable (db : Database) (world : WorldId) (key : String) : Bool :=
  (db.module? world key).any (·.isReusable)

/-- The stored value of a field. -/
def fieldValue? (db : Database) (world : WorldId) (key field : String) : Option String :=
  (db.module? world key).bind (·.field? field)

theorem StoredModule.module?_eq {db : Database} {world : WorldId} {key : String} {m : WorldModule}
    (h : db.StoredModule world key m) : db.module? world key = some m := by
  obtain ⟨row, hfind, hdecode⟩ := h
  rw [module?, hfind, Option.bind_some, hdecode]
  rfl

theorem module?_eq_none {db : Database} {world : WorldId} {key : String}
    (h : ∀ r ∈ db.modules, Modules.isOf world key r = false) : db.module? world key = none := by
  rw [module?, Modules.find?_isOf_eq_none h]
  rfl

end Database

namespace Engine.CurrentModule

variable {db : Database} {world : WorldId} {d : ModuleDefinition} {m : WorldModule}

/-- A module that is found can be taken over if the stored one can. -/
theorem reusable_eq (h : CurrentModule db world d m) :
    db.reusable world d.key = m.isReusable := by
  cases h with
  | stored h => rw [Database.reusable, h.module?_eq, Option.any_some]
  | fresh habsent id now =>
    rw [Database.reusable, Database.module?_eq_none habsent, Option.any_none]
    refine (Bool.eq_false_iff.2 fun hreuse => ?_).symm
    exact derive_ne_completed d .empty (status_of_isReusable hreuse)

/-- A module that is found has the stored values of its fields. -/
theorem fieldValue?_eq (h : CurrentModule db world d m) (field : String) :
    db.fieldValue? world d.key field = m.field? field := by
  cases h with
  | stored h => rw [Database.fieldValue?, h.module?_eq, Option.bind_some]
  | fresh habsent id now =>
    rw [Database.fieldValue?, Database.module?_eq_none habsent]
    rfl

end Engine.CurrentModule

/-! ## Keys of the registry -/

namespace Registry

/-- The keys of the modules, in order. -/
def keys (r : Registry) : List String :=
  r.modules.map (·.key)

theorem nodup_keys (r : Registry) : r.keys.Nodup :=
  r.soundModules.distinct

end Registry

/-- The split of the modules that are found is that of the keys of the registry. -/
theorem Engine.CurrentModules.split_eq {db : Database} {world : WorldId}
    {ds : List ModuleDefinition} {ms : List WorldModule} (h : CurrentModules db world ds ms) :
    (stale ms).map (·.key) = (ds.map (·.key)).filter (fun key => !db.reusable world key) ∧
      (ms.filter (·.isReusable)).map (·.key) =
        (ds.map (·.key)).filter (fun key => db.reusable world key) := by
  induction h with
  | nil => exact ⟨rfl, rfl⟩
  | @cons d m ds ms hm _ ih =>
    have hreuse := hm.reusable_eq
    rw [List.map_cons, List.filter_cons, List.filter_cons, List.filter_cons, ← ih.1, ← ih.2,
      hreuse, stale, List.filter_cons]
    cases m.isReusable with
    | true => simp [stale, hm.key_eq]
    | false => simp [stale, hm.key_eq]

/-! ## Gathering the modules -/

namespace Engine

/-- The modules that publishing finds: stored ones, and new ones with the names from a number on. -/
inductive Gathered (db : Database) (world : WorldId) : Nat → List WorldModule → Prop where
  | nil (n : Nat) : Gathered db world n []
  | stored {n : Nat} {key : String} {m : WorldModule} {ms : List WorldModule}
      (h : db.StoredModule world key m) (rest : Gathered db world n ms) :
      Gathered db world n (m :: ms)
  | fresh {n : Nat} {m : WorldModule} {ms : List WorldModule} (hworld : m.world = world)
      (hid : m.id = .mint n) (rest : Gathered db world (n + 1) ms) : Gathered db world n (m :: ms)

/-- Every module of the definitions is found or made, if what is stored of them can be read. -/
theorem yields_currentModules (world : WorldId) (ds : List ModuleDefinition) {s : Studio}
    (hcomplete : s.db.dropped = []) (hrows : ∀ d ∈ ds, (∃ m, s.db.StoredModule world d.key m) ∨
      ∀ r ∈ s.db.modules, Modules.isOf world d.key r = false) :
    ∃ found s', Yields (currentModules world ds) s found s' ∧
      Gathered s.db world s.minted found.1 := by
  induction ds generalizing s with
  | nil => exact ⟨([], []), s, Yields.pure _ s, .nil _⟩
  | cons d rest ih =>
    obtain ⟨hrow, hrows⟩ := List.forall_mem_cons.1 hrows
    rcases hrow with ⟨m, hm⟩ | habsent
    · have hfound : Yields (moduleOrNew world d) s m s :=
        Yields.bind (Yields.store s (Modules.yields_find?_some hcomplete hm)) (Yields.pure m s)
      obtain ⟨⟨ms, vs⟩, s', hrest, hgathered⟩ := ih hcomplete hrows
      exact ⟨_, s', Yields.bind hfound (Yields.bind hrest (Yields.pure _ s')),
        .stored hm hgathered⟩
    · have hmade : ∃ m, Yields (moduleOrNew world d) s m s.minting.ticked ∧ m.world = world ∧
          m.id = .mint s.minted :=
        ⟨_, Yields.bind (Yields.store s (Modules.yields_find?_none hcomplete habsent))
          (Yields.bind ((yields_mint s _ _).2 ⟨rfl, rfl⟩)
            (Yields.bind (yields_clock _) (Yields.pure _ _))), rfl, rfl⟩
      obtain ⟨m, hm, hworld, hid⟩ := hmade
      obtain ⟨⟨ms, vs⟩, s', hrest, hgathered⟩ := ih (s := s.minting.ticked) hcomplete hrows
      exact ⟨_, s', Yields.bind hm (Yields.bind hrest (Yields.pure _ s')),
        .fresh hworld hid hgathered⟩

/-- What stands in the way of publication: the stored values of required fields that do not pass. -/
theorem mem_violations {world : WorldId} {ds : List ModuleDefinition} {s : Studio}
    {found : List WorldModule × List (String × String × FieldViolation)} {s' : Studio}
    (h : Yields (currentModules world ds) s found s') {key field : String} {v : FieldViolation} :
    (key, field, v) ∈ found.2 ↔ ∃ d ∈ ds, d.key = key ∧ ∃ f ∈ d.requiredFields, f.key = field ∧
      f.violation? (s.db.fieldValue? world key field) = some v := by
  induction ds generalizing s found with
  | nil =>
    simp only [currentModules, yields_pure] at h
    simp [h.1]
  | cons d rest ih =>
    simp only [currentModules, yields_bind, yields_pure] at h
    obtain ⟨m, t, hm, ⟨ms, vs⟩, _, hrest, rfl, rfl⟩ := h
    have hdb : t.db = s.db := ((sameDb_moduleOrNew world d).of_yields hm).1
    have hhead : (key, field, v) ∈ violationsOf d m ↔ d.key = key ∧ ∃ f ∈ d.requiredFields,
        f.key = field ∧ f.violation? (s.db.fieldValue? world key field) = some v := by
      simp only [violationsOf, List.mem_filterMap, Option.map_eq_some_iff, Prod.mk.injEq]
      constructor
      · rintro ⟨f, hf, _, hv, rfl, rfl, rfl⟩
        exact ⟨rfl, f, hf, rfl, by rwa [(moduleOrNew_current hm).fieldValue?_eq]⟩
      · rintro ⟨rfl, f, hf, rfl, hv⟩
        rw [(moduleOrNew_current hm).fieldValue?_eq] at hv
        exact ⟨f, hf, v, hv, rfl, rfl, rfl⟩
    simp only [List.mem_append, hhead, ih hrest, hdb, List.mem_cons, exists_eq_or_imp]

/-- Nothing stands in the way of publication while no stored value of a required field does. -/
theorem violations_eq_nil_iff {world : WorldId} {ds : List ModuleDefinition} {s : Studio}
    {found : List WorldModule × List (String × String × FieldViolation)} {s' : Studio}
    (h : Yields (currentModules world ds) s found s') :
    found.2 = [] ↔ ∀ d ∈ ds, ∀ f ∈ d.requiredFields,
      f.violation? (s.db.fieldValue? world d.key f.key) = none := by
  rw [List.eq_nil_iff_forall_not_mem]
  constructor
  · intro hnone d hd f hf
    exact Option.eq_none_iff_forall_ne_some.2 fun v hv =>
      hnone (d.key, f.key, v) ((mem_violations h).2 ⟨d, hd, rfl, f, hf, rfl, hv⟩)
  · rintro hpass ⟨key, field, v⟩ hmem
    obtain ⟨d, hd, rfl, f, hf, rfl, hv⟩ := (mem_violations h).1 hmem
    rw [hpass d hd f hf] at hv
    cases hv

/-! ## Marking the modules -/

/-- The second database, reached from the first by saving modules of a world, has room for more:
stored modules are still there, and the names from a number on are not in use. -/
structure Accommodates (db : Database) (world : WorldId) (n : Nat) (db' : Database) : Prop where
  complete : db'.dropped = []
  owned : ∃ w ∈ db'.worlds, w.id = .text world.text
  kept : ∀ key m, db.StoredModule world key m → ∃ r ∈ db'.modules, Modules.isOf world key r = true
  unused : ∀ r ∈ db'.modules, ∀ k, n ≤ k → r.id ≠ .text (ModuleId.mint k).text

namespace Accommodates

variable {db db' : Database} {world : WorldId} {n : Nat} {m : WorldModule}

/-- There is still room after a module was saved over a stored one. -/
theorem save_stored (h : Accommodates db world n db')
    (hm : ∃ r ∈ db'.modules, Modules.isOf m.world m.key r = true) :
    Accommodates db world n ((Write.saveModule m).apply db') := by
  refine ⟨h.complete, h.owned, fun key k hk => ?_, fun r hr => ?_⟩
  · obtain ⟨q, hq, hof⟩ := h.kept key k hk
    obtain ⟨r, hr, _, hworld, hkey⟩ := Write.exists_saveModule (m := m) hq
    rw [Modules.isOf_iff, ← hworld, ← hkey, ← Modules.isOf_iff] at hof
    exact ⟨r, hr, hof⟩
  · rcases Write.names_of_saveModule hr with ⟨q, hq, hid, _⟩ | ⟨hnone, _⟩
    · rw [hid]
      exact h.unused q hq
    · obtain ⟨q, hq, hof⟩ := hm
      rw [hnone q hq] at hof
      cases hof

/-- There is room for the names from the next number on after a new module was saved. -/
theorem save_fresh (h : Accommodates db world n db') (hm : m.id = .mint n) :
    Accommodates db world (n + 1) ((Write.saveModule m).apply db') := by
  refine ⟨h.complete, h.owned, fun key k hk => ?_, fun r hr k hle => ?_⟩
  · obtain ⟨q, hq, hof⟩ := h.kept key k hk
    obtain ⟨r, hr, _, hworld, hkey⟩ := Write.exists_saveModule (m := m) hq
    rw [Modules.isOf_iff, ← hworld, ← hkey, ← Modules.isOf_iff] at hof
    exact ⟨r, hr, hof⟩
  · rcases Write.names_of_saveModule hr with ⟨q, hq, hid, _⟩ | ⟨_, rfl⟩
    · rw [hid]
      exact h.unused q hq k (by omega)
    · intro heq
      have hnk : n = k := ModuleId.mint_text_inj (hm ▸ heq)
      omega

end Accommodates

/-- The modules that were gathered can be split: each of them can be saved. -/
theorem succeeds_splitModules {db : Database} {world : WorldId} {n : Nat} {ms : List WorldModule}
    (h : Gathered db world n ms) (owner : OwnerId) (now : Instant) {s : Studio}
    (hroom : Accommodates db world n s.db) : Succeeds (splitModules owner now ms) s := by
  induction h generalizing s with
  | nil n => exact (Yields.pure _ s).succeeds
  | @stored n key m ms hm rest ih =>
    unfold splitModules
    by_cases hreuse : m.isReusable = true
    · rw [if_pos hreuse]
      obtain ⟨v, t, hrest⟩ := ih hroom
      exact Yields.bind_succeeds hrest (Yields.pure _ t).succeeds
    · rw [if_neg hreuse]
      have hstored : ∃ r ∈ s.db.modules,
          Modules.isOf (awaiting owner now m).world (awaiting owner now m).key r = true := by
        have hrow := hroom.kept key m hm
        rwa [← hm.world_eq, ← hm.key_eq] at hrow
      have hsave := Modules.yields_save_allowed (m := awaiting owner now m) hroom.complete
        (Or.inl hstored)
      obtain ⟨v, t, hrest⟩ := ih
        (s := s.withDb ((Write.saveModule (awaiting owner now m)).apply s.db))
        (hroom.save_stored hstored)
      exact Yields.bind_succeeds (Yields.store s hsave)
        (Yields.bind_succeeds hrest (Yields.pure _ t).succeeds)
  | @fresh n m ms hworld hid rest ih =>
    unfold splitModules
    by_cases hreuse : m.isReusable = true
    · rw [if_pos hreuse]
      have hroom' : Accommodates db world (n + 1) s.db :=
        ⟨hroom.complete, hroom.owned, hroom.kept, fun r hr k hle => hroom.unused r hr k (by omega)⟩
      obtain ⟨v, t, hrest⟩ := ih hroom'
      exact Yields.bind_succeeds hrest (Yields.pure _ t).succeeds
    · rw [if_neg hreuse]
      have hunused : ∀ r ∈ s.db.modules, r.id ≠ .text m.id.text := fun r hr => by
        rw [hid]
        exact hroom.unused r hr n (Nat.le_refl n)
      have howned : ∃ w ∈ s.db.worlds, w.id = .text m.world.text := by
        rw [hworld]
        exact hroom.owned
      have hsave := Modules.yields_save_allowed (m := awaiting owner now m) hroom.complete
        (Or.inr ⟨hunused, howned⟩)
      obtain ⟨v, t, hrest⟩ := ih
        (s := s.withDb ((Write.saveModule (awaiting owner now m)).apply s.db))
        (hroom.save_fresh hid)
      exact Yields.bind_succeeds (Yields.store s hsave)
        (Yields.bind_succeeds hrest (Yields.pure _ t).succeeds)

/-- Splitting changes modules only. -/
theorem kept_of_splitModules {owner : OwnerId} {now : Instant} {ms : List WorldModule}
    {s : Studio} {split : List String × List String} {s' : Studio}
    (h : Yields (splitModules owner now ms) s split s') :
    s'.db.worlds = s.db.worlds ∧ s'.db.jobs = s.db.jobs := by
  have hjournal := (commit_splitModules h).2.2.journal
  constructor
  · refine hjournal.worlds_eq fun w hw rows => ?_
    obtain ⟨m, _, rfl⟩ := List.mem_map.1 hw
    rfl
  · refine hjournal.jobs_eq fun w hw rows => ?_
    obtain ⟨m, _, rfl⟩ := List.mem_map.1 hw
    rfl

end Engine

/-! ## Rebuilding the queue -/

namespace Jobs

/-- No running job of a world is found when there is none. -/
theorem yields_runningOf?_none {db : Database} (hcomplete : db.dropped = []) {world : WorldId}
    (hidle : ∀ r ∈ db.jobs, r.world = .text world.text → r.hasStatus .running = false) :
    Yields (runningOf? world) db none db := by
  have hnone : (withStatus .running (db.jobs.filter (·.world.isText world.text))).head? = none := by
    refine List.head?_eq_none_iff.2 (List.eq_nil_iff_forall_not_mem.2 fun r hr => ?_)
    obtain ⟨hmem, hrunning⟩ := mem_withStatus.1 hr
    obtain ⟨hmem, hworld⟩ := List.mem_filter.1 hmem
    rw [hidle r hmem (Cell.isText_iff.1 hworld)] at hrunning
    cases hrunning
  refine Yields.bind (Statement.yields_needs_complete hcomplete _)
    (Yields.bind (Yields.get db) ?_)
  rw [hnone]
  exact Yields.pure none db

/-- A job that the schema allows is inserted. -/
theorem yields_insert {db : Database} (hcomplete : db.dropped = []) {j : Job}
    (hkey : ∀ r ∈ db.jobs, ¬ (r.world = .text j.world.text ∧ r.moduleKey = .text j.moduleKey))
    (hid : ∀ r ∈ db.jobs, r.id ≠ .text j.id.text)
    (howned : ∃ w ∈ db.worlds, w.id = .text j.world.text) :
    Yields (insert j) db () ((Write.addJob j).apply db) := by
  have hkey' : ¬ (db.jobs.any fun r => r.world = (JobRow.ofJob j).world &&
      r.moduleKey = (JobRow.ofJob j).moduleKey) = true := by
    intro hany
    obtain ⟨r, hr, hsame⟩ := List.any_eq_true.1 hany
    rw [Bool.and_eq_true, decide_eq_true_iff, decide_eq_true_iff] at hsame
    exact hkey r hr hsame
  have hid' : ¬ (db.jobs.any fun r => r.id = (JobRow.ofJob j).id) = true := by
    intro hany
    obtain ⟨r, hr, hsame⟩ := List.any_eq_true.1 hany
    exact hid r hr (of_decide_eq_true hsame)
  have howned' : (db.worlds.any fun w => w.id = (JobRow.ofJob j).world) = true := by
    obtain ⟨w, hw, heq⟩ := howned
    exact List.any_eq_true.2 ⟨w, hw, decide_eq_true heq⟩
  refine Yields.bind (Statement.yields_needs_complete hcomplete _)
    (Yields.bind (Statement.yields_needs_complete hcomplete _) (Yields.bind (Yields.get db) ?_))
  rw [if_neg hkey', if_neg hid', if_pos howned']
  exact Yields.set _ db

/-- Jobs of a world whose names and modules are in no row are inserted one after the other. -/
theorem succeeds_insertAll {world : WorldId} {js : List Job} (hworld : ∀ j ∈ js, j.world = world)
    (hkeys : (js.map (·.moduleKey)).Nodup) (hids : (js.map (·.id)).Nodup) {db : Database}
    (hcomplete : db.dropped = []) (howned : ∃ w ∈ db.worlds, w.id = .text world.text)
    (hnew : ∀ j ∈ js, ∀ r ∈ db.jobs,
      ¬ (r.world = .text world.text ∧ r.moduleKey = .text j.moduleKey) ∧ r.id ≠ .text j.id.text) :
    Succeeds (js.forM insert) db := by
  induction js generalizing db with
  | nil => exact (Yields.pure _ db).succeeds
  | cons j js ih =>
    rw [List.map_cons, List.nodup_cons] at hkeys hids
    have hj : j.world = world := hworld j List.mem_cons_self
    have hinsert : Yields (insert j) db () ((Write.addJob j).apply db) := by
      refine yields_insert hcomplete ?_ ?_ ?_
      · rw [hj]
        exact fun r hr => (hnew j List.mem_cons_self r hr).1
      · exact fun r hr => (hnew j List.mem_cons_self r hr).2
      · rwa [hj]
    refine Yields.bind_succeeds (x := insert j) hinsert (ih
      (fun k hk => hworld k (List.mem_cons_of_mem j hk)) hkeys.2 hids.2 hcomplete howned ?_)
    intro k hk r hr
    rcases List.mem_append.1 hr with hr | hr
    · exact hnew k (List.mem_cons_of_mem j hk) r hr
    · rw [List.mem_singleton.1 hr]
      refine ⟨fun ⟨_, heq⟩ => hkeys.1 ?_, fun heq => hids.1 ?_⟩
      · rw [show j.moduleKey = k.moduleKey from Cell.text.inj heq]
        exact List.mem_map_of_mem hk
      · rw [JobId.eq_of_text (Cell.text.inj heq)]
        exact List.mem_map_of_mem hk

/-- The queue of a world can be replaced by jobs of names that are not in use. -/
theorem succeeds_replaceForWorld {world : WorldId} {js : List Job}
    (hworld : ∀ j ∈ js, j.world = world) (hkeys : (js.map (·.moduleKey)).Nodup)
    (hids : (js.map (·.id)).Nodup) {db : Database} (hcomplete : db.dropped = [])
    (howned : ∃ w ∈ db.worlds, w.id = .text world.text)
    (hnew : ∀ j ∈ js, ∀ r ∈ db.jobs, r.id ≠ .text j.id.text) :
    Succeeds (replaceForWorld world js) db := by
  refine Yields.bind_succeeds (Statement.yields_needs_complete hcomplete _)
    (Yields.bind_succeeds (Statement.yields_needs_complete hcomplete _)
      (Yields.bind_succeeds (Yields.modify _ db)
        (succeeds_insertAll hworld hkeys hids hcomplete howned fun j hj r hr => ?_)))
  obtain ⟨hr, hother⟩ := List.mem_filter.1 hr
  rw [Bool.not_eq_true', Cell.isText_eq_false_iff] at hother
  exact ⟨fun h => hother h.1, hnew j hj r hr⟩

end Jobs

namespace Engine

theorem succeeds_newJobs (world : WorldId) (keys : List String) (sequence : Nat) (s : Studio) :
    Succeeds (newJobs world sequence keys) s := by
  induction keys generalizing sequence s with
  | nil => exact (Yields.pure _ s).succeeds
  | cons key rest ih =>
    obtain ⟨js, t, hrest⟩ := ih (sequence + 1) s.minting.ticked
    exact Yields.bind_succeeds ((yields_mint s _ _).2 ⟨rfl, rfl⟩)
      (Yields.bind_succeeds (yields_clock _)
        (Yields.bind_succeeds hrest (Yields.pure _ t).succeeds))

/-- New jobs have distinct names. -/
theorem nodup_ids_of_newJobs {world : WorldId} {keys : List String} {sequence : Nat} {s : Studio}
    {js : List Job} {s' : Studio} (h : Yields (newJobs world sequence keys) s js s') :
    (js.map (·.id)).Nodup := by
  induction keys generalizing sequence s js with
  | nil =>
    simp only [newJobs, yields_pure] at h
    simp [h.1]
  | cons key rest ih =>
    simp only [newJobs, yields_bind, yields_mint, yields_readClock, yields_pure] at h
    obtain ⟨_, _, ⟨rfl, rfl⟩, _, _, ⟨rfl, rfl⟩, js', t, hrest, rfl, rfl⟩ := h
    refine List.nodup_cons.2 ⟨fun hmem => ?_, ih hrest⟩
    -- The names of the rest are those of later numbers.
    obtain ⟨j, hj, hid⟩ := List.mem_map.1 hmem
    obtain ⟨n, hle, _, hname⟩ := (newQueue_of_newJobs hrest).2 j hj
    have heq : n = s.minted := JobId.mint_inj (hname.symm.trans hid)
    have hlater : s.minted + 1 ≤ n := hle
    omega

/-- The queue of a world of which no job runs can be rebuilt. -/
theorem succeeds_rebuildJobs {world : WorldId} {keys : List String} (hkeys : keys.Nodup)
    {s : Studio} (hcomplete : s.db.dropped = [])
    (howned : ∃ w ∈ s.db.worlds, w.id = .text world.text)
    (hidle : ∀ r ∈ s.db.jobs, r.world = .text world.text → r.hasStatus .running = false)
    (hfresh : ∀ r ∈ s.db.jobs, ∀ n, s.minted ≤ n → r.id ≠ .text (JobId.mint n).text) :
    Succeeds (rebuildJobs world keys) s := by
  refine Yields.bind_succeeds (Yields.store s (Jobs.yields_runningOf?_none hcomplete hidle)) ?_
  obtain ⟨js, t, hjobs⟩ := succeeds_newJobs world keys 1 s
  have hdb : t.db = s.db := ((sameDb_newJobs world keys 1).of_yields hjobs).1
  obtain ⟨hqueue, hnames⟩ := newQueue_of_newJobs hjobs
  have hreplace : Succeeds (Jobs.replaceForWorld world js) t.db := by
    rw [hdb]
    refine Jobs.succeeds_replaceForWorld hqueue.world_eq (hqueue.keys_eq ▸ hkeys)
      (nodup_ids_of_newJobs hjobs) hcomplete howned fun j hj r hr => ?_
    obtain ⟨n, hle, _, hid⟩ := hnames j hj
    rw [hid]
    exact hfresh r hr n hle
  obtain ⟨u, db', hreplace⟩ := hreplace
  exact Yields.bind_succeeds hjobs
    (Yields.bind_succeeds (Yields.store t hreplace) (Yields.pure js _).succeeds)

/-! ## When publishing succeeds -/

/-- The world is live and the caller's, no required field stands in the way, and every module can be
taken over or no job of the world runs. -/
structure CanPublish (e : Engine) (db : Database) (id : WorldId) (owner : OwnerId) : Prop where
  owned : ∃ w, db.LiveWorld id w ∧ w.owner = owner
  valid : ∀ d ∈ e.registry.modules, ∀ f ∈ d.requiredFields,
    f.violation? (db.fieldValue? id d.key f.key) = none
  idle : (∀ key ∈ e.registry.keys, db.reusable id key = true) ∨
    ∀ r ∈ db.jobs, r.world = .text id.text → r.hasStatus .running = false

/-- A world that can be published is. -/
theorem succeeds_publish {e : Engine} {s : Studio} (hkeyed : s.db.Keyed) (hnames : s.FreshNames)
    (hrows : s.db.Readable) {id : WorldId} {owner : OwnerId} (h : e.CanPublish s.db id owner) :
    Succeeds (e.publish id owner) s := by
  obtain ⟨w, hlive, rfl⟩ := h.owned
  obtain ⟨⟨ms, vs⟩, t, hfound, hgathered⟩ :=
    yields_currentModules id e.registry.modules hkeyed.complete fun d _ =>
      Modules.stored_or_absent hrows id d.key
  obtain ⟨hdb, hminted⟩ := (sameDb_currentModules id _).of_yields hfound
  obtain rfl : vs = [] := (violations_eq_nil_iff hfound).2 h.valid
  have hpublishable : Yields (ensurePublishable []) t () t := Yields.pure () t
  -- Every module can be written back.
  obtain ⟨row, hfind, _⟩ := (show ∃ row, _ from hlive)
  have hroom : Accommodates s.db id s.minted t.ticked.db := by
    rw [ticked_db, hdb]
    exact ⟨hkeyed.complete,
      ⟨row, List.mem_of_find?_eq_some hfind, (Worlds.isLive_iff.1 (List.find?_some hfind)).1⟩,
      fun key m ⟨r, hr, _⟩ => ⟨r, List.mem_of_find?_eq_some hr, List.find?_some hr⟩,
      hnames.modules⟩
  obtain ⟨⟨generate, reuse⟩, u, hsplit⟩ :=
    succeeds_splitModules hgathered w.owner t.clock hroom
  refine Succeeds.atomically (Yields.bind_succeeds (yields_ownedWorld hkeyed.complete hlive)
    (Yields.bind_succeeds hfound (Yields.bind_succeeds hpublishable
      (Yields.bind_succeeds (yields_clock t) (Yields.bind_succeeds hsplit ?_)))))
  -- Writing them back left the worlds and the jobs.
  obtain ⟨hgenerate, _, hcommit⟩ := commit_splitModules hsplit
  obtain ⟨hworlds, hjobs⟩ := kept_of_splitModules hsplit
  rw [ticked_db, hdb] at hworlds hjobs
  have hcomplete : u.db.dropped = [] :=
    (Database.Keyed.journal (by rwa [ticked_db, hdb]) hcommit.journal).complete
  have hlive' : u.db.LiveWorld id w := by rwa [Database.LiveWorld, hworlds]
  have hupdate (v : World) (hv : v.id = id) :
      Yields (Worlds.update v) u.db () ((Write.changeWorld v).apply u.db) :=
    Worlds.yields_update hcomplete (hlive'.allowed_changeWorld hv)
  by_cases hnone : generate.isEmpty = true
  · simp only [if_pos hnone]
    exact Yields.bind_succeeds (Yields.store u (hupdate (w.activate t.clock) hlive.id_eq))
      (Yields.bind_succeeds (yields_told _ _) (Yields.pure _ _).succeeds)
  · simp only [if_neg hnone]
    refine Yields.bind_succeeds
      (Yields.store u (hupdate (w.beginGeneration t.clock) hlive.id_eq)) ?_
    -- Some module has to be generated, so no job of the world runs.
    have hkeys : generate = e.registry.keys.filter (fun key => !s.db.reusable id key) :=
      hgenerate.trans (CurrentModules.split_eq (current_of_currentModules hfound)).1
    have hidle := h.idle.resolve_left fun hall => hnone (by
      rw [hkeys, List.isEmpty_iff, List.filter_eq_nil_iff]
      intro key hkey
      simp [hall key hkey])
    have hrebuild : Succeeds (rebuildJobs id generate)
        (u.withDb ((Write.changeWorld (w.beginGeneration t.clock)).apply u.db)) := by
      refine succeeds_rebuildJobs ?_ hcomplete ?_ ?_ ?_
      · rw [hkeys]
        exact e.registry.nodup_keys.filter _
      · exact Database.Consistent.owned_of_frame hlive'
          (Write.About.frame (.changeWorld (w := w.beginGeneration t.clock) hlive.id_eq) u.db)
      · rw [withDb_db, Write.apply_jobs]
        exact hjobs ▸ hidle
      · rw [withDb_db, Write.apply_jobs]
        exact fun r hr n hn => hnames.jobs r (hjobs ▸ hr) n
          (Nat.le_trans (Nat.le_trans hminted hcommit.names) hn)
    obtain ⟨js, v, hrebuild⟩ := hrebuild
    exact Yields.bind_succeeds hrebuild
      (Yields.bind_succeeds (yields_told _ _) (Yields.pure _ _).succeeds)

end Engine

/-! ## Saving several modules -/

namespace Journal

variable {ms : List WorldModule} {db db' : Database}

/-- Saving modules leaves the rows of all others. -/
theorem mem_of_saves (h : Journal db (ms.map .saveModule) db') {r : ModuleRow}
    (hr : ∀ m ∈ ms, Modules.isOf m.world m.key r = false) : r ∈ db'.modules ↔ r ∈ db.modules := by
  refine h.invariant (I := fun d => r ∈ d.modules ↔ r ∈ db.modules) (fun w hw d _ hd => ?_) Iff.rfl
  obtain ⟨m, hm, rfl⟩ := List.mem_map.1 hw
  exact (Write.mem_saveModule_of_other (hr m hm)).trans hd

/-- Saving modules leaves what is found under other names. -/
theorem find?_of_saves (h : Journal db (ms.map .saveModule) db') {world : WorldId} {key : String}
    (hne : ∀ m ∈ ms, ¬ (m.world = world ∧ m.key = key)) :
    db'.modules.find? (Modules.isOf world key) = db.modules.find? (Modules.isOf world key) := by
  refine h.invariant (I := fun d => d.modules.find? (Modules.isOf world key) =
    db.modules.find? (Modules.isOf world key)) (fun w hw d _ hd => ?_) rfl
  obtain ⟨m, hm, rfl⟩ := List.mem_map.1 hw
  exact (Write.find?_saveModule_of_ne (hne m hm)).trans hd

/-- Each of the modules that are saved is found, written over what was found before. -/
theorem find?_of_mem_saves (h : Journal db (ms.map .saveModule) db')
    (hkeys : (ms.map (·.key)).Nodup) : ∀ m ∈ ms,
    db'.modules.find? (Modules.isOf m.world m.key) =
      some (((db.modules.find? (Modules.isOf m.world m.key)).map
        (Modules.overwritten (ModuleRow.ofModule m))).getD (ModuleRow.ofModule m)) := by
  induction ms generalizing db with
  | nil => simp
  | cons n ms ih =>
    rw [List.map_cons, List.nodup_cons] at hkeys
    have hrest := (cons_iff.1 h).2
    intro m hm
    rcases List.mem_cons.1 hm with rfl | hm
    · have hne : ∀ k ∈ ms, ¬ (k.world = m.world ∧ k.key = m.key) := fun k hk heq =>
        hkeys.1 (heq.2 ▸ List.mem_map_of_mem (f := (·.key)) hk)
      rw [hrest.find?_of_saves hne]
      exact Write.find?_saveModule_self
    · have hne : ¬ (n.world = m.world ∧ n.key = m.key) := fun heq =>
        hkeys.1 (heq.2 ▸ List.mem_map_of_mem (f := (·.key)) hm)
      rw [ih hrest hkeys.2 m hm, Write.apply_modules, Write.find?_saveModule_of_ne hne]

end Journal

/-! ## What publishing leaves -/

/-- The two parts are exactly the keys, each key in one of them and each part in order. -/
structure Publication.Splits (p : Publication) (keys : List String) (reusable : String → Bool) :
    Prop where
  generate : p.generate = keys.filter fun key => !reusable key
  reuse : p.reuse = keys.filter reusable
  disjoint : p.generate.Disjoint p.reuse
  ordered : p.generate.Sublist keys ∧ p.reuse.Sublist keys
  together : ∀ key, key ∈ keys ↔ key ∈ p.generate ∨ key ∈ p.reuse

theorem Publication.splits_of_filter {p : Publication} {keys : List String}
    {reusable : String → Bool} (hgenerate : p.generate = keys.filter fun key => !reusable key)
    (hreuse : p.reuse = keys.filter reusable) : p.Splits keys reusable where
  generate := hgenerate
  reuse := hreuse
  disjoint key hg hr := by
    rw [hgenerate, List.mem_filter] at hg
    rw [hreuse, List.mem_filter] at hr
    rw [hr.2] at hg
    cases hg.2
  ordered := by
    rw [hgenerate, hreuse]
    exact ⟨List.filter_sublist, List.filter_sublist⟩
  together key := by
    rw [hgenerate, hreuse, List.mem_filter, List.mem_filter]
    cases reusable key <;> simp

/-- The row of a module whose content was asked for, given the row before: it waits for generation,
and its prose is as it was, empty if there was none. -/
structure ModuleRow.AwaitsAfter (r' : ModuleRow) (before : Option ModuleRow) : Prop where
  status : r'.status = .text ModuleStatus.awaitingGeneration.text
  stored : ∀ r ∈ before, r.SameProse r'
  new : before = none → r'.fieldValues? = some .empty ∧ r'.content = .null ∧ r'.hash = .null

/-- The live world of a name is stored with a status and a version. -/
def Database.HasWorld (db : Database) (id : WorldId) (status : WorldStatus) (version : Int) :
    Prop :=
  ∃ r ∈ db.worlds, Worlds.isLive id r = true ∧ r.status = .text status.text ∧
    r.version = .int version

/-- What a publication leaves. -/
structure Publication.Exact (p : Publication) (e : Engine) (id : WorldId) (s s' : Studio) :
    Prop where
  splits : p.Splits e.registry.keys (s.db.reusable id)
  keyed : s'.db.Keyed
  /-- Modules that are not generated, those that are reused among them, are not touched. -/
  modulesKept : ∀ r : ModuleRow, (∀ key ∈ p.generate, Modules.isOf id key r = false) →
    (r ∈ s'.db.modules ↔ r ∈ s.db.modules)
  modulesQueued : ∀ key ∈ p.generate, ∃ r', s'.db.modules.find? (Modules.isOf id key) = some r' ∧
    r'.AwaitsAfter (s.db.modules.find? (Modules.isOf id key))
  worldsKept : ∀ r : WorldRow, r.id ≠ .text id.text → (r ∈ s'.db.worlds ↔ r ∈ s.db.worlds)
  activated : p.generate = [] → p.jobs = [] ∧ s'.db.jobs = s.db.jobs ∧
    ∃ w, s.db.LiveWorld id w ∧ s'.db.HasWorld id .active (w.version + 1)
  queued : p.generate ≠ [] →
    NewQueue id 1 p.generate p.jobs ∧ (∀ j ∈ p.jobs, ∀ r ∈ s.db.jobs, r.id ≠ .text j.id.text) ∧
      s'.db.jobs = s.db.jobs.filter (fun r => !r.world.isText id.text) ++
        p.jobs.map JobRow.ofJob ∧
      ∃ w, s.db.LiveWorld id w ∧ s'.db.HasWorld id .generating w.version

/-- A module that is marked has the row that awaits generation. -/
theorem Engine.CurrentModule.awaitsAfter {db : Database} {world : WorldId} {d : ModuleDefinition}
    {m : WorldModule} (h : CurrentModule db world d m) (owner : OwnerId) (now : Instant) :
    (((db.modules.find? (Modules.isOf world d.key)).map
      (Modules.overwritten (ModuleRow.ofModule (awaiting owner now m)))).getD
        (ModuleRow.ofModule (awaiting owner now m))).AwaitsAfter
      (db.modules.find? (Modules.isOf world d.key)) := by
  cases h with
  | stored h =>
    obtain ⟨row, hfind, hdecode⟩ := h
    have hholds := ModuleRow.holds_of_decode hdecode
    rw [hfind]
    refine ⟨rfl, fun r hr => ?_, fun h => by cases h⟩
    obtain rfl := Option.some.inj hr
    refine ⟨rfl, rfl, rfl, ?_, hholds.content.symm, hholds.hash.symm⟩
    rw [hholds.fieldValues?_eq]
    exact FieldMap.decode_compact m.fields
  | fresh habsent id now' =>
    rw [Modules.find?_isOf_eq_none habsent]
    refine ⟨rfl, fun r hr => (Option.not_mem_none r hr).elim, fun _ => ⟨?_, rfl, rfl⟩⟩
    exact FieldMap.decode_compact .empty

/-- Writing back a live world leaves the rows of the others. -/
theorem Write.mem_changeWorld_of_other {v : World} {rows : List WorldRow} {r : WorldRow}
    (hr : r.id ≠ .text v.id.text) : r ∈ (changeWorld v).onWorlds rows ↔ r ∈ rows := by
  have hnot : ¬ Worlds.isLive v.id r = true := fun h => hr (Worlds.isLive_iff.1 h).1
  refine List.mem_map.trans ⟨?_, fun hmem => ⟨r, hmem, if_neg hnot⟩⟩
  rintro ⟨q, hq, rfl⟩
  by_cases hlive : Worlds.isLive v.id q = true
  · rw [if_pos hlive] at hr
    exact absurd (Worlds.isLive_iff.1 hlive).1 hr
  · rwa [if_neg hlive]

/-- A live world that is written back is stored as it was given. -/
theorem Database.LiveWorld.hasWorld {db db' : Database} {id : WorldId} {w v : World}
    (h : db.LiveWorld id w) (hv : v.id = id)
    (hworlds : db'.worlds = (Write.changeWorld v).onWorlds db.worlds) :
    db'.HasWorld id v.status v.version := by
  obtain ⟨row, hfind, _⟩ := h
  have hlive := List.find?_some hfind
  refine ⟨Worlds.overwritten v row, ?_, hlive, rfl, rfl⟩
  rw [hworlds]
  exact List.mem_map.2 ⟨row, List.mem_of_find?_eq_some hfind, if_pos (hv ▸ hlive)⟩

namespace Engine.Published

variable {e : Engine} {s s' : Studio} {id : WorldId} {owner : OwnerId} {p : Publication}

theorem splits (h : Published e id owner s p s') :
    p.Splits e.registry.keys (s.db.reusable id) := by
  obtain ⟨w, ms, now, ws, _, _, hcurrent, hgenerate, hreuse, _⟩ := h.found
  exact Publication.splits_of_filter (hgenerate.trans hcurrent.split_eq.1)
    (hreuse.trans hcurrent.split_eq.2)

/-- The modules that are generated await it, and all others are not touched. -/
theorem modules (h : Published e id owner s p s') :
    (∀ r : ModuleRow, (∀ key ∈ p.generate, Modules.isOf id key r = false) →
      (r ∈ s'.db.modules ↔ r ∈ s.db.modules)) ∧
    ∀ key ∈ p.generate, ∃ r', s'.db.modules.find? (Modules.isOf id key) = some r' ∧
      r'.AwaitsAfter (s.db.modules.find? (Modules.isOf id key)) := by
  have hkeys : p.generate.Nodup := h.splits.generate ▸ e.registry.nodup_keys.filter _
  obtain ⟨w, ms, now, ws, _, _, hcurrent, hgenerate, _, hcommit, hend⟩ := h.found
  have hsaves : (stale ms).map (fun m => Write.saveModule (awaiting owner now m)) =
      ((stale ms).map (awaiting owner now)).map .saveModule := by rw [List.map_map]; rfl
  obtain ⟨db, hmarked, hrest⟩ := Journal.append_iff.1 (hsaves ▸ hcommit.journal)
  -- What comes after the modules leaves them.
  have hmodules : s'.db.modules = db.modules := by
    refine hrest.modules_eq fun x hx rows => ?_
    rcases hend with ⟨_, _, rfl⟩ | ⟨_, _, _, rfl⟩
    · rw [List.mem_singleton.1 hx]
      rfl
    · simp only [List.mem_cons, List.mem_map] at hx
      rcases hx with rfl | rfl | ⟨j, _, rfl⟩ <;> rfl
  have hnodup : (((stale ms).map (awaiting owner now)).map (·.key)).Nodup := by
    rw [List.map_map]
    exact (hgenerate ▸ hkeys : ((stale ms).map (·.key)).Nodup)
  rw [hmodules, hgenerate]
  refine ⟨fun r hr => hmarked.mem_of_saves fun n hn => ?_, fun key hkey => ?_⟩
  · obtain ⟨m, hm, rfl⟩ := List.mem_map.1 hn
    obtain ⟨d, _, hd⟩ := hcurrent.exists_definition (List.mem_filter.1 hm).1
    rw [show (awaiting owner now m).world = id from hd.world_eq]
    exact hr m.key (List.mem_map_of_mem (f := (·.key)) hm)
  · obtain ⟨m, hm, rfl⟩ := List.mem_map.1 hkey
    obtain ⟨d, _, hd⟩ := hcurrent.exists_definition (List.mem_filter.1 hm).1
    refine ⟨_, ?_, hd.key_eq ▸ hd.awaitsAfter owner now⟩
    rw [← hd.world_eq]
    exact hmarked.find?_of_mem_saves hnodup _ (List.mem_map_of_mem hm)

/-- A publication that takes over every module writes back its world as active, and no more. -/
theorem activated (h : Published e id owner s p s') (hnone : p.generate = []) :
    p.jobs = [] ∧ ∃ w now, s.db.LiveWorld id w ∧
      s'.db = (Write.changeWorld (w.activate now)).apply s.db := by
  obtain ⟨w, ms, now, ws, hlive, _, _, hgenerate, _, hcommit, hend⟩ := h.found
  have hstale : stale ms = [] := List.map_eq_nil_iff.1 (hgenerate ▸ hnone)
  rcases hend with ⟨_, hjobs, rfl⟩ | ⟨hsome, _⟩
  · have hjournal := hcommit.journal
    rw [hstale] at hjournal
    exact ⟨hjobs, w, now, hlive, Journal.nil_iff.1 (Journal.cons_iff.1 hjournal).2⟩
  · exact absurd hnone hsome

/-- One that does not writes it back as generating and replaces its queue. -/
theorem queued (h : Published e id owner s p s') (hsome : p.generate ≠ []) :
    NewQueue id 1 p.generate p.jobs ∧
      (∀ j ∈ p.jobs, ∃ n, s.minted ≤ n ∧ j.id = .mint n) ∧
      (∀ r ∈ s.db.jobs, r.world = .text id.text → r.hasStatus .running = false) ∧
      s'.db.jobs = (Write.clearQueue id).onJobs s.db.jobs ++ p.jobs.map JobRow.ofJob ∧
      ∃ w now, s.db.LiveWorld id w ∧
        s'.db.worlds = (Write.changeWorld (w.beginGeneration now)).onWorlds s.db.worlds := by
  obtain ⟨w, ms, now, ws, hlive, _, _, _, _, hcommit, hend⟩ := h.found
  rcases hend with ⟨hnone, _⟩ | ⟨_, hqueue, hidle, rfl⟩
  · exact absurd hnone hsome
  have hsaves : (stale ms).map (fun m => Write.saveModule (awaiting owner now m)) =
      ((stale ms).map (awaiting owner now)).map .saveModule := by rw [List.map_map]; rfl
  have hopen : ∀ m ∈ (stale ms).map (awaiting owner now), m.status ≠ .completed := by
    intro m hm
    obtain ⟨n, _, rfl⟩ := List.mem_map.1 hm
    rw [status_awaiting]
    decide
  obtain ⟨_, hworlds, hjobs⟩ :=
    Database.Consistent.tables_of_enqueue (hsaves ▸ hcommit.journal) hopen
  refine ⟨hqueue, fun j hj => ?_, hidle, hjobs, w, now, hlive, hworlds⟩
  obtain ⟨n, hle, _, hid⟩ := hcommit.fresh j (by simp [hj])
  exact ⟨n, hle, hid⟩

/-- What a publication commits is exact. -/
theorem exact (hkeyed : s.db.Keyed) (hnames : s.FreshNames) (h : Published e id owner s p s') :
    p.Exact e id s s' := by
  obtain ⟨hmodulesKept, hmodulesQueued⟩ := h.modules
  have hafter : s'.db.Keyed := by
    obtain ⟨w, ms, now, ws, _, _, _, _, _, hcommit, _⟩ := h.found
    exact hkeyed.journal hcommit.journal
  refine ⟨h.splits, hafter, hmodulesKept, hmodulesQueued, fun r hr => ?_, fun hnone => ?_,
    fun hsome => ?_⟩
  · by_cases hnone : p.generate = []
    · obtain ⟨_, w, now, hlive, hdb⟩ := h.activated hnone
      rw [hdb]
      exact Write.mem_changeWorld_of_other (hlive.id_eq.symm ▸ hr)
    · obtain ⟨_, _, _, _, w, now, hlive, hworlds⟩ := h.queued hnone
      rw [hworlds]
      exact Write.mem_changeWorld_of_other (hlive.id_eq.symm ▸ hr)
  · obtain ⟨hjobs, w, now, hlive, hdb⟩ := h.activated hnone
    exact ⟨hjobs, by rw [hdb]; rfl, w, hlive,
      hlive.hasWorld (v := w.activate now) hlive.id_eq (by rw [hdb]; rfl)⟩
  · obtain ⟨hqueue, hids, _, hjobs, w, now, hlive, hworlds⟩ := h.queued hsome
    refine ⟨hqueue, fun j hj r hr => ?_, hjobs, w, hlive,
      hlive.hasWorld (v := w.beginGeneration now) hlive.id_eq hworlds⟩
    obtain ⟨n, hle, hid⟩ := hids j hj
    rw [hid]
    exact hnames.jobs r hr n hle

end Engine.Published

/-! ## All or nothing -/

namespace Engine

/-- A world that was published could be. -/
theorem canPublish_of_publish {e : Engine} {id : WorldId} {owner : OwnerId} {s : Studio}
    {p : Publication} {s' : Studio} (h : Yields (e.publish id owner) s p s') :
    e.CanPublish s.db id owner := by
  have hpublished := published_of_publish h
  obtain ⟨w, ms, now, ws, hlive, howner, hcurrent, hgenerate, _, _, hend⟩ := hpublished.found
  refine ⟨⟨w, hlive, howner⟩, ?_, ?_⟩
  · simp only [publish, ensurePublishable, yields_atomically, yields_bind, yields_ite, yields_throw,
      and_false, or_false] at h
    obtain ⟨_, t, howned, found, _, hfound, _, _, ⟨hvalid, _⟩, _⟩ := h
    have hdb : t.db = s.db := ((sameDb_ownedWorld id owner).of_yields howned).1
    rw [← hdb]
    exact (violations_eq_nil_iff hfound).1 (List.isEmpty_iff.1 hvalid)
  · by_cases hnone : p.generate = []
    · refine Or.inl fun key hkey => ?_
      rw [hpublished.splits.generate, List.filter_eq_nil_iff] at hnone
      simpa using hnone key hkey
    · exact Or.inr (hpublished.queued hnone).2.2.1

/-- Publishing a world succeeds exactly where it can, leaves the database everywhere else, and is
exact where it succeeds. -/
structure PublishesExactly (e : Engine) (id : WorldId) (owner : OwnerId) (s : Studio) : Prop where
  succeeds : Succeeds (e.publish id owner) s ↔ e.CanPublish s.db id owner
  refuses : ∀ cause s', Fails (e.publish id owner) s cause s' → s'.db = s.db
  exact : ∀ p s', Yields (e.publish id owner) s p s' → p.Exact e id s s'

/-- Publishing is all or nothing and its split is exact, on every database that the schema keeps and
whose rows can be read. -/
theorem publish_exact (e : Engine) (id : WorldId) (owner : OwnerId) {s : Studio}
    (hkeyed : s.db.Keyed) (hnames : s.FreshNames) (hrows : s.db.Readable) :
    e.PublishesExactly id owner s where
  succeeds :=
    ⟨fun ⟨_, _, h⟩ => canPublish_of_publish h, succeeds_publish hkeyed hnames hrows⟩
  refuses _ _ h := (failsClean_publish e id owner h).1
  exact _ _ h := (published_of_publish h).exact hkeyed hnames

/-- Publishing the world of a completed module once more. -/
theorem publish_exact_completed :
    let s := (System.run .minimal [.createFirst, .publishFirst, .lease, .ask 0,
      .settle 0 (.ok "prose")]).studio
    s.db.reusable (.mint 0) "m" = true ∧ Engine.minimal.PublishesExactly (.mint 0) ⟨"owner"⟩ s :=
  ⟨by decide +kernel, publish_exact .minimal (.mint 0) ⟨"owner"⟩ (by decide +kernel)
    (.of_named (by decide +kernel) (by decide +kernel)) (by decide +kernel)⟩

end Engine

end Lorebook
