import Lorebook.Proofs.FieldHistory
import Lorebook.Proofs.Legibility

set_option autoImplicit false

/-! # Operations that keep the rows legible

What an operation writes bears times that it read from the clock. So as long as the clock has not
left the years of four digits, every operation that succeeds keeps the rows legible: the `legible_*`
lemmas go through the operations once more for that, and say along with it that the clock goes
on. -/

namespace Lorebook

open Studio Operation Engine

/-! ## Clocks that go on -/

namespace Studio

/-- No name is taken back, and the clock is not set back by a day. -/
structure GoesOn (s t : Studio) : Prop where
  minted : s.minted ≤ t.minted
  day : s.clock.day ≤ t.clock.day

instance : StudioChain GoesOn where
  refl _ := ⟨Nat.le_refl _, Int.le_refl _⟩
  trans h h' := ⟨Nat.le_trans h.minted h'.minted, Int.le_trans h.day h'.day⟩
  told _ _ := ⟨Nat.le_refl _, Int.le_refl _⟩
  ticked s := ⟨Nat.le_refl _, s.clock.day_le_later clockTick⟩
  minting _ := ⟨Nat.le_succ _, Int.le_refl _⟩

/-- The clock has not left the years of four digits at their end. -/
def EraLasts (s : Studio) : Prop :=
  s.clock.day < Calendar.daysBeforeYear 10000

theorem goesOn_ticked (s : Studio) : s.GoesOn s.ticked :=
  StudioChain.ticked s

theorem goesOn_withDb (s : Studio) (db : Database) : s.GoesOn (s.withDb db) :=
  ⟨Nat.le_refl _, Int.le_refl _⟩

theorem GoesOn.eraLasts {s t : Studio} (h : s.GoesOn t) (ht : t.EraLasts) : s.EraLasts :=
  Int.lt_of_le_of_lt h.day ht

/-- The clock is not before the years of four digits, and the rows are legible as long as it has not
left them at their end. -/
structure Legible (s : Studio) : Prop where
  begun : Calendar.daysBeforeYear 0 ≤ s.clock.day
  rows : s.EraLasts → s.db.Legible s.minted

namespace Legible

variable {s t : Studio}

theorem of_rows (hclock : s.clock.InEra) (h : s.db.Legible s.minted) : s.Legible :=
  ⟨hclock.1, fun _ => h⟩

/-- What leaves the database and goes on keeps a studio legible. -/
theorem goesOn (h : s.Legible) (hdb : t.db = s.db) (ht : s.GoesOn t) : t.Legible where
  begun := Int.le_trans h.begun ht.day
  rows hlasts := by
    rw [hdb]
    exact (h.rows (ht.eraLasts hlasts)).mono ht.minted

theorem ticked (h : s.Legible) : s.ticked.Legible :=
  h.goesOn rfl (StudioChain.ticked s)

theorem told (h : s.Legible) (e : LogEvent) : (s.told e).Legible :=
  h.goesOn rfl (StudioChain.told s e)

theorem minting (h : s.Legible) : s.minting.Legible :=
  h.goesOn rfl (StudioChain.minting s)

/-- A reading of the clock lies in the era as long as that lasts. -/
theorem clock_inEra (h : s.Legible) (hlasts : s.ticked.EraLasts) : s.clock.InEra :=
  ⟨h.begun, (goesOn_ticked s).eraLasts hlasts⟩

/-- Legible writes keep a studio legible. -/
theorem withDb (h : s.Legible) {ws : List Write} {db : Database} (hjournal : Journal s.db ws db)
    (hws : s.EraLasts → ∀ w ∈ ws, w.Legible s.minted) : (s.withDb db).Legible where
  begun := h.begun
  rows hlasts := (h.rows hlasts).journal (hws hlasts) hjournal

theorem write (h : s.Legible) {w : Write} {db : Database} (hjournal : Journal s.db [w] db)
    (hw : s.EraLasts → w.Legible s.minted) : (s.withDb db).Legible := by
  refine h.withDb hjournal fun hlasts x hx => ?_
  obtain rfl := List.mem_singleton.1 hx
  exact hw hlasts

end Legible

end Studio

/-! ## Readings -/

/-- A statement that reads leaves the studio as part of an operation. -/
theorem Statement.Reads.store_eq {α : Type} {st : Statement α} (h : Statement.Reads st) {s : Studio}
    {db : Database} {v : α} (hst : Yields st s.db v db) : s.withDb db = s := by
  rw [← h.of_yields hst]
  rfl

namespace Engine

variable {s s' : Studio}

theorem ownedWorld_eq {id : WorldId} {owner : OwnerId} {w : World}
    (h : Yields (ownedWorld id owner) s w s') : s = s' ∧ s.db.LiveWorld id w := by
  have hlive := (ownedWorld_found h).1
  simp only [ownedWorld, ensureOwner, yields_bind, yields_store, yields_ite, yields_pure,
    yields_throw, and_false, or_false] at h
  obtain ⟨_, _, ⟨db, hrequire, rfl⟩, _, _, ⟨_, _, rfl⟩, _, rfl⟩ := h
  exact ⟨((Worlds.reads_require id).store_eq hrequire).symm, hlive⟩

theorem ensureNotQueued_eq {world : WorldId} {module : String} {u : Unit}
    (h : Yields (ensureNotQueued world module) s u s') : s = s' := by
  simp only [ensureNotQueued, yields_bind, yields_store] at h
  obtain ⟨found, _, ⟨db, hfind, rfl⟩, h⟩ := h
  rw [(Jobs.reads_find? world module).store_eq hfind] at h
  cases found with
  | none => exact ((yields_pure _ _ _ _).1 h).2.symm
  | some job =>
    simp only [yields_ite, yields_pure, yields_throw, and_false, or_false] at h
    exact h.2.2.symm

/-! ## Modules -/

/-- A module that was found or made can be written back, as long as the era lasts. -/
theorem legible_moduleOrNew {world : WorldId} {d : ModuleDefinition} {m : WorldModule}
    (h : Yields (moduleOrNew world d) s m s') (hs : s.Legible) :
    s'.Legible ∧ s.GoesOn s' ∧ (s'.EraLasts → m.Legible s'.minted) := by
  simp only [moduleOrNew, yields_bind, yields_store] at h
  obtain ⟨found, _, ⟨db, hfind, rfl⟩, h⟩ := h
  rw [(Modules.reads_find? world d.key).store_eq hfind] at h
  rcases Modules.find?_cases hfind with ⟨m', rfl, hstored⟩ | ⟨rfl, _⟩
  · simp only [yields_pure] at h
    obtain ⟨rfl, rfl⟩ := h
    exact ⟨hs, Chain.refl _, fun hlasts => (hs.rows hlasts).stored hstored⟩
  · simp only [newModule, yields_bind, yields_mint, yields_readClock, yields_pure] at h
    obtain ⟨_, _, ⟨rfl, rfl⟩, _, _, ⟨rfl, rfl⟩, rfl, rfl⟩ := h
    have hgo : s.GoesOn s.minting.ticked :=
      Chain.trans (StudioChain.minting s) (StudioChain.ticked _)
    exact ⟨hs.minting.ticked, hgo, fun hlasts => ⟨hs.minting.clock_inEra hlasts,
      s.minted, Nat.lt_succ_self _, rfl⟩⟩

theorem legible_currentModules {world : WorldId} {ds : List ModuleDefinition}
    {found : List WorldModule × List (String × String × FieldViolation)}
    (h : Yields (currentModules world ds) s found s') (hs : s.Legible) :
    s'.Legible ∧ s.GoesOn s' ∧ (s'.EraLasts → ∀ m ∈ found.1, m.Legible s'.minted) := by
  induction ds generalizing s found with
  | nil =>
    simp only [currentModules, yields_pure] at h
    obtain ⟨rfl, rfl⟩ := h
    exact ⟨hs, Chain.refl _, by simp⟩
  | cons d rest ih =>
    simp only [currentModules, yields_bind, yields_pure] at h
    obtain ⟨m, t, hm, ⟨ms, vs⟩, _, hrest, rfl, rfl⟩ := h
    obtain ⟨ht, hgo, hmodule⟩ := legible_moduleOrNew hm hs
    obtain ⟨hs', hgo', hmodules⟩ := ih hrest ht
    refine ⟨hs', Chain.trans hgo hgo', fun hlasts n hn => ?_⟩
    rcases List.mem_cons.1 hn with rfl | hn
    · exact (hmodule (hgo'.eraLasts hlasts)).mono hgo'.minted
    · exact hmodules hlasts n hn

/-- Saving a module under the names of a legible one, at a time of the era. -/
theorem legible_save {m n : WorldModule} {u : Unit} {db : Database}
    (hsave : Yields (Modules.save n) s.db u db) (hs : s.Legible)
    (hm : s.EraLasts → m.Legible s.minted) (hid : n.id = m.id)
    (hcreated : n.createdAt = m.createdAt) (hupdated : s.EraLasts → n.updatedAt.InEra) :
    (s.withDb db).Legible := by
  refine hs.write (Modules.journal_save hsave) fun hlasts => ⟨?_, hupdated hlasts⟩
  obtain ⟨hcreatedAt, i, hi, hname⟩ := hm hlasts
  exact ⟨hcreated ▸ hcreatedAt, i, hi, hid.trans hname⟩

/-- Marking a module at a time of the era keeps the rows legible. -/
theorem legible_markModule {job : Job} {status : ModuleStatus} {now : Instant} {u : Unit}
    (h : Yields (markModule job status now) s u s') (hs : s.Legible)
    (hnow : s.EraLasts → now.InEra) : s'.Legible ∧ s.GoesOn s' := by
  simp only [markModule, yields_bind, yields_store] at h
  obtain ⟨found, _, ⟨db, hfind, rfl⟩, h⟩ := h
  rw [(Modules.reads_find? _ _).store_eq hfind] at h
  rcases Modules.find?_cases hfind with ⟨m, rfl, hstored⟩ | ⟨rfl, _⟩
  · simp only [yields_store] at h
    obtain ⟨db', hsave, rfl⟩ := h
    exact ⟨legible_save hsave hs (fun hlasts => (hs.rows hlasts).stored hstored) rfl rfl hnow,
      goesOn_withDb _ _⟩
  · simp only [yields_pure] at h
    obtain ⟨-, rfl⟩ := h
    exact ⟨hs, Chain.refl _⟩

/-! ## Editing and drafting -/

theorem legible_createWorld {owner : OwnerId} {name : String} {tagline : Option String}
    {themes : List String} {w : World} (h : Yields (createWorld owner name tagline themes) s w s')
    (hs : s.Legible) : s'.Legible := by
  unfold createWorld at h
  split at h
  · simp at h
  · simp only [yields_bind, yields_mint, yields_readClock, yields_store, yields_pure] at h
    obtain ⟨_, _, ⟨rfl, rfl⟩, _, _, ⟨rfl, rfl⟩, _, _, ⟨db, hinsert, rfl⟩, rfl, rfl⟩ := h
    refine hs.minting.ticked.write (Worlds.journal_insert hinsert) fun hlasts => ?_
    have hnow := hs.minting.clock_inEra hlasts
    exact ⟨hnow, hnow, fun t ht => (Option.not_mem_none t ht).elim,
      fun t ht => (Option.not_mem_none t ht).elim⟩

/-- Saving a module that was found or made, changed but for its names, at the time of the clock. -/
theorem legible_touched {m n : WorldModule} {u : Unit} {db : Database}
    (hsave : Yields (Modules.save n) s.ticked.db u db) (hs : s.Legible)
    (hm : s.EraLasts → m.Legible s.minted) (hid : n.id = m.id)
    (hcreated : n.createdAt = m.createdAt) (hupdated : n.updatedAt = s.clock) :
    (s.ticked.withDb db).Legible :=
  legible_save hsave hs.ticked (fun hlasts => hm ((goesOn_ticked s).eraLasts hlasts)) hid hcreated
    fun hlasts => hupdated ▸ hs.clock_inEra hlasts

theorem legible_saveModuleFields {e : Engine} {world : WorldId} {module : String}
    {owner : OwnerId} {fields : List (String × String)} {m : WorldModule}
    (h : Yields (e.saveModuleFields world module owner fields) s m s') (hs : s.Legible) :
    s'.Legible := by
  simp only [saveModuleFields, definition, yields_bind, yields_ofExcept] at h
  obtain ⟨d, _, ⟨_, rfl⟩, h⟩ := h
  split at h
  · simp at h
  · simp only [yields_atomically, yields_bind, yields_readClock, yields_store, yields_pure] at h
    obtain ⟨w, t, howned, m₀, t', hcurrent, _, _, ⟨rfl, rfl⟩, _, _, ⟨db, hsave, rfl⟩, rfl, rfl⟩ := h
    obtain ⟨rfl, _⟩ := ownedWorld_eq howned
    obtain ⟨ht', _, hm₀⟩ := legible_moduleOrNew hcurrent hs
    exact legible_touched hsave ht' hm₀ rfl rfl rfl

theorem legible_acceptDraft {id : WorldId} {d : ModuleDefinition} {owner : OwnerId}
    {reply : GenerationReply} {m : WorldModule}
    (h : Yields (acceptDraft id d owner reply) s m s') (hs : s.Legible) : s'.Legible := by
  simp only [acceptDraft, mergeDraft, yields_atomically, yields_bind, yields_ofExcept, yields_tell,
    yields_readClock, yields_store, yields_pure] at h
  obtain ⟨_, _, ⟨_, rfl⟩, proposed, _, ⟨_, rfl⟩, _, _, rfl, _, t, hqueued, m₀, t', hcurrent, _, _,
    ⟨rfl, rfl⟩, _, _, ⟨db, hsave, rfl⟩, _, _, rfl, rfl, rfl⟩ := h
  obtain rfl := ensureNotQueued_eq hqueued
  obtain ⟨ht', _, hm₀⟩ := legible_moduleOrNew hcurrent (hs.told _)
  exact (legible_touched hsave ht' hm₀ rfl rfl rfl).told _

/-! ## Publishing and retrying -/

theorem legible_splitModules {owner : OwnerId} {now : Instant} {ms : List WorldModule}
    {split : List String × List String} (h : Yields (splitModules owner now ms) s split s')
    (hs : s.Legible) (hnow : s.EraLasts → now.InEra)
    (hms : s.EraLasts → ∀ m ∈ ms, m.Legible s.minted) :
    s'.Legible ∧ s' = s.withDb s'.db := by
  induction ms generalizing s split with
  | nil =>
    simp only [splitModules, yields_pure] at h
    obtain ⟨-, rfl⟩ := h
    exact ⟨hs, rfl⟩
  | cons m rest ih =>
    have hrest' : s.EraLasts → ∀ n ∈ rest, n.Legible s.minted := fun hlasts n hn =>
      hms hlasts n (List.mem_cons_of_mem m hn)
    simp only [splitModules, yields_ite, yields_bind, yields_store, yields_pure] at h
    rcases h with ⟨_, _, t, hrest, _, rfl⟩ | ⟨_, _, _, ⟨db, hsave, rfl⟩, _, t, hrest, _, rfl⟩
    · exact ih hrest hs hnow hrest'
    · have hsaved := legible_save hsave hs (fun hlasts => hms hlasts m List.mem_cons_self) rfl rfl
        hnow
      exact ih (s := s.withDb db) hrest hsaved hnow hrest'

theorem legible_newJobs {world : WorldId} {sequence : Nat} {keys : List String} {js : List Job}
    (h : Yields (newJobs world sequence keys) s js s') (hs : s.Legible) :
    s'.Legible ∧ s.GoesOn s' ∧ (s'.EraLasts → ∀ j ∈ js, j.createdAt.InEra) := by
  induction keys generalizing sequence s js with
  | nil =>
    simp only [newJobs, yields_pure] at h
    obtain ⟨rfl, rfl⟩ := h
    exact ⟨hs, Chain.refl _, by simp⟩
  | cons key rest ih =>
    simp only [newJobs, yields_bind, yields_mint, yields_readClock, yields_pure] at h
    obtain ⟨_, _, ⟨rfl, rfl⟩, _, _, ⟨rfl, rfl⟩, js', t, hrest, rfl, rfl⟩ := h
    obtain ⟨hs', hgo, hjobs⟩ := ih hrest hs.minting.ticked
    refine ⟨hs', Chain.trans (StudioChain.minting s) (Chain.trans (StudioChain.ticked _) hgo),
      fun hlasts j hj => ?_⟩
    rcases List.mem_cons.1 hj with rfl | hj
    · exact hs.minting.clock_inEra (hgo.eraLasts hlasts)
    · exact hjobs hlasts j hj

/-- A queue of a length that 32 bits can number keeps the rows legible. -/
theorem legible_rebuildJobs {world : WorldId} {keys : List String} {js : List Job}
    (hkeys : keys.length < twoPow 32) (h : Yields (rebuildJobs world keys) s js s')
    (hs : s.Legible) : s'.Legible := by
  obtain ⟨hqueue, hidle, hcommit⟩ := commit_rebuildJobs h
  simp only [rebuildJobs, yields_bind, yields_store] at h
  obtain ⟨found, _, ⟨db, hrunning, rfl⟩, h⟩ := h
  rw [(Jobs.reads_runningOf? world).store_eq hrunning] at h
  rcases Jobs.runningOf?_cases hrunning with ⟨j, rfl, _⟩ | ⟨rfl, _⟩
  · simp at h
  simp only [yields_bind, yields_store, yields_pure] at h
  obtain ⟨_, t, hjobs, _, _, ⟨db', _, rfl⟩, rfl, rfl⟩ := h
  obtain ⟨ht, _, htimes⟩ := legible_newJobs hjobs hs
  have hdb : t.db = s.db := ((sameDb_newJobs world keys 1).of_yields hjobs).1
  refine ht.withDb (by rw [hdb]; exact hcommit.journal) fun hlasts w hw => ?_
  rcases List.mem_cons.1 hw with rfl | hw
  · exact trivial
  · obtain ⟨j, hj, rfl⟩ := List.mem_map.1 hw
    refine ⟨?_, htimes hlasts j hj⟩
    have hmem : j.sequence ∈ List.range' 1 keys.length :=
      hqueue.sequence_eq ▸ List.mem_map_of_mem hj
    obtain ⟨_, hlt⟩ := List.mem_range'_1.1 hmem
    omega

/-- A job is added to none of its module. -/
theorem unqueued_of_addJobs {js : List Job} {db db' : Database}
    (h : Journal db (js.map .addJob) db') :
    ∀ j ∈ js, ∀ r ∈ db.jobs,
      ¬ (r.world = .text j.world.text ∧ r.moduleKey = .text j.moduleKey) := by
  induction js generalizing db with
  | nil => simp
  | cons j js ih =>
    obtain ⟨hallowed, hrest⟩ := Journal.cons_iff.1 h
    intro k hk r hr
    rcases List.mem_cons.1 hk with rfl | hk
    · exact hallowed.2.1 r hr
    · exact ih hrest k hk r (List.mem_append_left _ hr)

/-- Jobs of a world that are added one after the other have distinct keys. -/
theorem nodup_keys_of_addJobs {world : WorldId} {js : List Job} {db db' : Database}
    (hworld : ∀ j ∈ js, j.world = world) (h : Journal db (js.map .addJob) db') :
    (js.map (·.moduleKey)).Nodup := by
  induction js generalizing db with
  | nil => exact List.nodup_nil
  | cons j js ih =>
    have hrest := (Journal.cons_iff.1 h).2
    have hworld' : ∀ k ∈ js, k.world = world := fun k hk => hworld k (List.mem_cons_of_mem j hk)
    refine List.nodup_cons.2 ⟨fun hmem => ?_, ih hworld' hrest⟩
    obtain ⟨k, hk, hkey⟩ := List.mem_map.1 hmem
    refine unqueued_of_addJobs hrest k hk (JobRow.ofJob j)
      (List.mem_append_right _ List.mem_cons_self) ⟨?_, ?_⟩
    · rw [hworld' k hk, ← hworld j List.mem_cons_self]
      rfl
    · rw [hkey]
      rfl

/-- A queue is rebuilt for keys of the registry alone. -/
theorem mem_keys_of_initializeJobs {e : Engine} {world : WorldId} {keys : List String}
    {js : List Job} (h : Yields (e.initializeJobs world keys) s js s') :
    ∀ key ∈ keys, key ∈ e.registry.keys := by
  rw [initializeJobs, yields_bind] at h
  obtain ⟨_, t, hknown, -⟩ := h
  clear js
  induction keys generalizing s with
  | nil => simp
  | cons key keys ih =>
    change Yields ((do let _ ← e.definition key) >>= fun _ => keys.forM _) s _ t at hknown
    simp only [definition, yields_bind, yields_ofExcept, yields_pure] at hknown
    obtain ⟨_, _, ⟨d, _, ⟨hd, rfl⟩, -, rfl⟩, hrest⟩ := hknown
    refine List.forall_mem_cons.2 ⟨?_, ih hrest⟩
    rw [← Registry.key_of_require hd]
    exact List.mem_map_of_mem (Registry.mem_of_require hd)

/-- A queue that is rebuilt by hand is no longer than the registry. -/
theorem length_le_of_initializeJobs {e : Engine} {world : WorldId} {keys : List String}
    {js : List Job} (h : Yields (e.initializeJobs world keys) s js s') :
    keys.length ≤ e.registry.modules.length := by
  obtain ⟨-, hqueue, -, hcommit⟩ := commit_initializeJobs h
  have hnodup := nodup_keys_of_addJobs hqueue.world_eq (Journal.cons_iff.1 hcommit.journal).2
  rw [hqueue.keys_eq] at hnodup
  have hle := hnodup.length_le_of_subset (mem_keys_of_initializeJobs h)
  rwa [Registry.keys, List.length_map] at hle

/-- Rebuilding a queue by hand, with a registry whose modules 32 bits can number, keeps the rows
legible. -/
theorem legible_initializeJobs {e : Engine} (hmodules : e.registry.modules.length < twoPow 32)
    {world : WorldId} {keys : List String} {js : List Job}
    (h : Yields (e.initializeJobs world keys) s js s') (hs : s.Legible) : s'.Legible := by
  have hkeys := Nat.lt_of_le_of_lt (length_le_of_initializeJobs h) hmodules
  have hknows {R : Studio → Studio → Prop} [StudioChain R] :
      Respects R (keys.forM fun key => do let _ ← e.definition key) :=
    respects_forM (fun key => respects_bind (respects_definition e key) fun _ =>
      respects_pure _) keys
  simp only [initializeJobs, yields_bind, yields_atomically, yields_store] at h
  obtain ⟨_, t, hknown, w, _, ⟨db, hrequire, rfl⟩, hrebuild⟩ := h
  have hsame : SameDb s t := hknows.of_yields hknown
  have hgo : s.GoesOn t := hknows.of_yields hknown
  rw [(Worlds.reads_require world).store_eq hrequire] at hrebuild
  exact legible_rebuildJobs hkeys hrebuild (hs.goesOn hsame.1 hgo)

/-- Writing back a live world at a time of the era. -/
theorem legible_update {v : World} {u : Unit} {db : Database}
    (hupdate : Yields (Worlds.update v) s.db u db) (hs : s.Legible)
    (hpublished : s.EraLasts → ∀ t ∈ v.publishedAt, t.InEra)
    (hnow : s.EraLasts → v.updatedAt.InEra) : (s.withDb db).Legible :=
  hs.write (Worlds.journal_update hupdate) fun hlasts => ⟨hnow hlasts, hpublished hlasts⟩

/-- Publishing by a registry whose modules 32 bits can number keeps the rows legible. -/
theorem legible_publish {e : Engine} (hmodules : e.registry.modules.length < twoPow 32)
    {id : WorldId} {owner : OwnerId} {p : Publication} (h : Yields (e.publish id owner) s p s')
    (hs : s.Legible) : s'.Legible := by
  have hkeys : p.generate.length < twoPow 32 := by
    rw [(published_of_publish h).splits.generate]
    exact Nat.lt_of_le_of_lt (List.length_filter_le _ _) (by simpa [Registry.keys] using hmodules)
  simp only [publish, ensurePublishable, yields_atomically, yields_bind, yields_ite, yields_throw,
    yields_readClock, yields_store, yields_tell, yields_pure, and_false, or_false] at h
  obtain ⟨w, _, howned, ⟨ms, vs⟩, _, hms, _, t, ⟨_, _, rfl⟩, _, _, ⟨rfl, rfl⟩, ⟨gs, rs⟩, u,
    hsplit, hend⟩ := h
  obtain ⟨rfl, hlive⟩ := ownedWorld_eq howned
  obtain ⟨ht, hgo, hlegible⟩ := legible_currentModules hms hs
  have hnow : t.ticked.EraLasts → t.clock.InEra := ht.clock_inEra
  obtain ⟨hu, hu'⟩ := legible_splitModules hsplit ht.ticked hnow fun hlasts =>
    hlegible ((goesOn_ticked t).eraLasts hlasts)
  -- What comes next happens at the same reading of the clock.
  have hsame : u.EraLasts → t.ticked.EraLasts := fun hlasts => by rwa [hu'] at hlasts
  have hpublished : u.EraLasts → ∀ x ∈ w.publishedAt, x.InEra := fun hlasts =>
    (hs.rows (hgo.eraLasts ((goesOn_ticked t).eraLasts (hsame hlasts)))).publishedAt hlive
  rcases hend with ⟨_, _, _, ⟨db, hupdate, rfl⟩, _, _, rfl, rfl, rfl⟩ |
    ⟨_, _, _, ⟨db, hupdate, rfl⟩, js, v, hrebuild, _, _, rfl, rfl, rfl⟩
  · refine (legible_update hupdate hu (fun hlasts x hx => ?_)
      (fun hlasts => hnow (hsame hlasts))).told _
    obtain rfl := Option.some.inj hx
    exact hnow (hsame hlasts)
  · exact (legible_rebuildJobs hkeys hrebuild (legible_update hupdate hu hpublished
      fun hlasts => hnow (hsame hlasts))).told _

theorem legible_retryModule {e : Engine} {world : WorldId} {module : String} {owner : OwnerId}
    {j : Job} (h : Yields (e.retryModule world module owner) s j s') (hs : s.Legible) :
    s'.Legible := by
  simp only [retryModule, definition, yields_bind, yields_ofExcept, yields_atomically,
    yields_store] at h
  obtain ⟨_, s, ⟨_, rfl⟩, w, _, howned, found, _, ⟨db, hfind, rfl⟩, h⟩ := h
  obtain ⟨rfl, hlive⟩ := ownedWorld_eq howned
  rw [(Jobs.reads_find? world module).store_eq hfind] at h
  rcases Jobs.find?_cases hfind with ⟨job, rfl, _⟩ | ⟨rfl, _⟩
  swap
  · simp at h
  simp only [yields_bind, yields_readClock, yields_store, yields_tell, yields_ite] at h
  obtain ⟨_, _, ⟨rfl, rfl⟩, _, _, ⟨db₁, hreset, rfl⟩, m, _, ⟨db₂, hmodule, rfl⟩, _, _,
    ⟨db₃, hsave, rfl⟩, hend⟩ := h
  obtain rfl := (Modules.reads_require _ _).of_yields hmodule
  have hstored := Modules.stored_of_require hmodule
  have hnow : s.ticked.EraLasts → s.clock.InEra := hs.clock_inEra
  have hreset' : (s.ticked.withDb db₁).Legible :=
    hs.ticked.write (Jobs.journal_resetForRetry hreset) hnow
  have hsaved : (s.ticked.withDb db₃).Legible :=
    legible_save (s := s.ticked.withDb db₁) hsave hreset'
      (fun hlasts => (hreset'.rows hlasts).stored hstored) rfl rfl hnow
  rcases hend with ⟨_, _, _, rfl, db₄, hrequire, rfl⟩ |
    ⟨_, _, _, ⟨db₄, hupdate, rfl⟩, _, _, rfl, db₅, hrequire, rfl⟩
  · rw [(Jobs.reads_require _).store_eq hrequire]
    exact hsaved.told _
  · rw [(Jobs.reads_require _).store_eq hrequire]
    refine (legible_update hupdate hsaved (fun hlasts => ?_) hnow).told _
    have hrows := hs.rows ((goesOn_ticked s).eraLasts hlasts)
    exact show ∀ t ∈ w.publishedAt, t.InEra from hrows.publishedAt hlive

/-! ## Leasing and settling -/

theorem legible_leaseNext {found : Option Job} (h : Yields leaseNext s found s')
    (hs : s.Legible) : s'.Legible ∧ s.GoesOn s' := by
  simp only [leaseNext, yields_atomically, yields_bind, yields_readClock, yields_store] at h
  obtain ⟨_, _, ⟨rfl, rfl⟩, found', _, ⟨db, hlease, rfl⟩, h⟩ := h
  have hgo : s.GoesOn (s.ticked.withDb db) :=
    Chain.trans (StudioChain.ticked s) (goesOn_withDb _ _)
  rcases Jobs.journal_leaseNext hlease with ⟨rfl, rfl⟩ | ⟨row, job, rfl, hjournal, _⟩
  · simp only [yields_pure] at h
    obtain ⟨-, rfl⟩ := h
    exact ⟨hs.ticked, hgo⟩
  · simp only [yields_bind, yields_pure] at h
    obtain ⟨_, t, hmark, -, rfl⟩ := h
    have hleased : (s.ticked.withDb db).Legible := hs.ticked.write hjournal fun _ => trivial
    obtain ⟨hs', hgo'⟩ := legible_markModule hmark hleased hs.clock_inEra
    exact ⟨hs', Chain.trans hgo hgo'⟩

theorem legible_complete {job : Job} {content : String} {activated : Bool}
    (h : Yields (complete job content) s activated s') (hs : s.Legible) :
    s'.Legible ∧ s.GoesOn s' := by
  simp only [complete, yields_atomically, yields_bind, yields_readClock, yields_store,
    yields_ite, yields_pure, yields_tell] at h
  obtain ⟨_, _, ⟨rfl, rfl⟩, w, _, ⟨db, hworld, rfl⟩, _, _, ⟨db₁, hmark, rfl⟩, m, _,
    ⟨db₂, hmodule, rfl⟩, _, _, ⟨db₃, hsave, rfl⟩, n, _, ⟨db₄, hcount, rfl⟩, hend⟩ := h
  -- The readings in between leave the database.
  obtain rfl := (Worlds.reads_require _).of_yields hworld
  obtain rfl := (Modules.reads_require _ _).of_yields hmodule
  obtain rfl := (Jobs.reads_countOutstanding _).of_yields hcount
  have hlive := Worlds.liveWorld_of_require hworld
  have hstored := Modules.stored_of_require hmodule
  have hnow : s.ticked.EraLasts → s.clock.InEra := hs.clock_inEra
  have hgo (db : Database) : s.GoesOn (s.ticked.withDb db) :=
    Chain.trans (StudioChain.ticked s) (goesOn_withDb _ _)
  have hsettled : (s.ticked.withDb db₁).Legible :=
    hs.ticked.write (Jobs.journal_markSucceeded hmark) hnow
  have hsaved : (s.ticked.withDb db₃).Legible :=
    legible_save (s := s.ticked.withDb db₁) hsave hsettled
      (fun hlasts => (hsettled.rows hlasts).stored hstored) rfl rfl hnow
  rcases hend with ⟨_, _, rfl⟩ | ⟨_, _, _, ⟨db₅, hupdate, rfl⟩, _, _, rfl, _, rfl⟩
  · exact ⟨hsaved, hgo _⟩
  · refine ⟨(legible_update hupdate hsaved (fun hlasts x hx => ?_) hnow).told _,
      Chain.trans (hgo _) (StudioChain.told _ _)⟩
    obtain rfl := Option.some.inj hx
    exact hnow hlasts

/-- Failing a running job keeps the rows legible, and so does marking its module then. -/
theorem legible_failing {job : Job} {message : String} {u v : Unit} {db : Database}
    (hmark : Yields (Jobs.markFailed job.id message s.clock) s.db u db)
    (hmodule : Yields (markModule job .failed s.clock) (s.ticked.withDb db) v s')
    (hs : s.Legible) : s'.Legible ∧ s.GoesOn s' := by
  have hsettled : (s.ticked.withDb db).Legible :=
    hs.ticked.write (Jobs.journal_markFailed hmark) hs.clock_inEra
  obtain ⟨hs', hgo⟩ := legible_markModule hmodule hsettled hs.clock_inEra
  exact ⟨hs', Chain.trans (StudioChain.ticked s) (Chain.trans (goesOn_withDb _ _) hgo)⟩

theorem legible_fail {job : Job} {message : String} {u : Unit}
    (h : Yields (fail job message) s u s') (hs : s.Legible) : s'.Legible ∧ s.GoesOn s' := by
  simp only [fail, yields_atomically, yields_bind, yields_readClock, yields_store] at h
  obtain ⟨_, _, ⟨rfl, rfl⟩, _, _, ⟨db, hmark, rfl⟩, hmodule⟩ := h
  exact legible_failing hmark hmodule hs

theorem legible_release {job : Job} {cause : EngineError} {released : Bool}
    (h : Yields (release job cause) s released s') (hs : s.Legible) : s'.Legible := by
  simp only [release, yields_atomically, yields_bind, yields_readClock, yields_statement] at h
  obtain ⟨_, _, ⟨rfl, rfl⟩, result, t, ⟨hresult, ht⟩, h⟩ := h
  rcases hrun : Jobs.markFailed job.id s!"result discarded: {cause.message}" s.clock s.db with
    ⟨e | u, db⟩
  · -- A job that is not running stays as it is.
    have hdb : db = s.db := Jobs.reads_of_fails_markFailed hrun
    have hrun' : s.ticked.db.run (Jobs.markFailed job.id s!"result discarded: {cause.message}"
      s.clock) = (.error e, db) := hrun
    rw [hrun'] at hresult ht
    subst hresult ht hdb
    cases e <;> simp only [yields_pure, yields_throw] at h <;> exact h.2 ▸ hs.ticked
  · have hrun' : s.ticked.db.run (Jobs.markFailed job.id s!"result discarded: {cause.message}"
      s.clock) = (.ok u, db) := hrun
    rw [hrun'] at hresult ht
    subst hresult ht
    simp only [yields_bind, yields_pure] at h
    obtain ⟨_, t, hmodule, rfl, rfl⟩ := h
    exact (legible_failing (show Yields _ s.db u db from hrun) hmodule hs).1

theorem legible_expireAll {now : Instant} {jobs js : List Job}
    (h : Yields (jobs.mapM (expire now)) s js s') (hs : s.Legible)
    (hnow : s.EraLasts → now.InEra) : s'.Legible := by
  induction jobs generalizing s js with
  | nil =>
    simp only [List.mapM_nil, yields_pure] at h
    exact h.2 ▸ hs
  | cons job jobs ih =>
    simp only [List.mapM_cons, expire, yields_bind, yields_store, yields_tell, yields_pure] at h
    obtain ⟨_, _, ⟨_, _, ⟨db, hmark, rfl⟩, _, t, hmodule, _, _, rfl, db', hrequire, rfl⟩, _, _,
      hrest, rfl, rfl⟩ := h
    have hsettled : (s.withDb db).Legible := hs.write (Jobs.journal_markFailed hmark) hnow
    obtain ⟨ht, hgo⟩ := legible_markModule hmodule hsettled hnow
    rw [(Jobs.reads_require _).store_eq hrequire] at hrest
    have hgo' : s.GoesOn t := Chain.trans (goesOn_withDb s db) hgo
    exact ih hrest (ht.told _) fun hlasts =>
      hnow ((Chain.trans hgo' (StudioChain.told t _)).eraLasts hlasts)

theorem legible_recoverStaleLeases {timeout : Span} {js : List Job}
    (h : Yields (recoverStaleLeases timeout) s js s') (hs : s.Legible) : s'.Legible := by
  simp only [recoverStaleLeases, yields_bind, yields_ite, yields_throw, yields_atomically,
    yields_readClock, yields_store, and_false, false_or, or_false] at h
  obtain ⟨_, _, _, ⟨rfl, rfl⟩, _, stale, _, ⟨db, hstale, rfl⟩, hexpire⟩ := h
  rw [(Jobs.reads_runningSinceBefore _).store_eq hstale] at hexpire
  exact legible_expireAll hexpire hs.ticked hs.clock_inEra

end Engine

end Lorebook
