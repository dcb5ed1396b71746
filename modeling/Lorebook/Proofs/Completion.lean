import Lorebook.Proofs.Answers
import Lorebook.Proofs.Draining

set_option autoImplicit false

/-! # Rounds that complete a world

After a publication each module of the world is finished or has a row that is still to be leased. A
round for one of these rows finishes its module when the call for it is answered, and a round for
another world touches none of them (`Engine.Completing.round`). So once the rows are used up, every
module of the world is finished and every job of it succeeded (`Engine.completing_rounds`). -/

namespace Lorebook

open Studio Operation Engine

/-! ## Worlds of an owner -/

/-- The world of a name is live, and the owner's. -/
def Database.OwnedBy (db : Database) (id : WorldId) (owner : OwnerId) : Prop :=
  ∃ r ∈ db.worlds, Worlds.isLive id r = true ∧ r.owner = .text owner.text

namespace Database

variable {db db' : Database} {id : WorldId} {owner : OwnerId}

theorem LiveWorld.ownedBy {w : World} (h : db.LiveWorld id w) : db.OwnedBy id w.owner := by
  obtain ⟨row, hfind, hdecode⟩ := h
  exact ⟨row, List.mem_of_find?_eq_some hfind, List.find?_some hfind,
    (WorldRow.holds_of_decode hdecode).owner⟩

theorem OwnedBy.hasLive (h : db.OwnedBy id owner) : db.hasLive (.text id.text) = true := by
  obtain ⟨r, hr, hlive, _⟩ := h
  obtain ⟨hid, hdeleted⟩ := Worlds.isLive_iff.1 hlive
  exact List.any_eq_true.2 ⟨r, hr, by simp [hid, hdeleted]⟩

/-- An owner's world is found while rows can be read. -/
theorem OwnedBy.liveWorld (h : db.OwnedBy id owner) (hrows : db.Readable)
    (hids : (db.worlds.map (·.id)).Nodup) : ∃ w, db.LiveWorld id w ∧ w.owner = owner := by
  obtain ⟨r, hr, hlive, howner⟩ := h
  obtain ⟨w, hdecode⟩ := hrows.worlds r hr
  refine ⟨w, ⟨r, Worlds.find?_isLive hids hr hlive, hdecode⟩, ?_⟩
  have hsame := (WorldRow.holds_of_decode hdecode).owner.symm.trans howner
  exact OwnerId.eq_of_text (Cell.text.inj hsame)

/-- Writing a world back leaves the owners. -/
theorem OwnedBy.of_changeWorld {v : World} (h : db.OwnedBy id owner)
    (hworlds : db'.worlds = (Write.changeWorld v).onWorlds db.worlds) : db'.OwnedBy id owner := by
  obtain ⟨r, hr, hlive, howner⟩ := h
  have hmem : (if Worlds.isLive v.id r then Worlds.overwritten v r else r) ∈ db'.worlds := by
    rw [hworlds]
    exact List.mem_map_of_mem hr
  refine ⟨_, hmem, ?_⟩
  split <;> exact ⟨hlive, howner⟩

theorem OwnedBy.of_worldsAfter {world : WorldId} {answer : Except EngineError String}
    (h : db.OwnedBy id owner) (hafter : db.WorldsAfter db' world answer) :
    db'.OwnedBy id owner := by
  cases hafter with
  | activated now _ _ _ hworlds => exact h.of_changeWorld hworlds
  | kept _ hworlds =>
    rw [OwnedBy, hworlds]
    exact h

end Database

/-! ## Finished modules -/

/-- The module is completed from the field values that it has, with content that is trimmed. -/
structure WorldModule.Finished (m : WorldModule) : Prop where
  status : m.status = .completed
  reusable : m.isReusable = true
  content : ∃ content, m.content = some content ∧ Text.trimmed? content = some content

/-- The module of a key is stored as a finished one. -/
def Database.Finished (db : Database) (world : WorldId) (key : String) : Prop :=
  ∃ m, db.StoredModule world key m ∧ m.Finished

theorem ModuleRow.HasContent.finished {r : ModuleRow} {content : String} {fields : FieldMap}
    (h : r.HasContent content fields) (hcontent : Text.trimmed? content = some content)
    {m : WorldModule} (hm : r.Holds m) : m.Finished ∧ m.fields = fields := by
  have hfields : m.fields = fields :=
    Option.some.inj (hm.fieldValues?_eq.symm.trans h.fields)
  have hstatus : m.status = .completed :=
    ModuleStatus.text_inj (Cell.text.inj (hm.status.symm.trans h.status))
  have hhash : m.hash = some (contentHash m.fields) := by
    rw [hfields]
    exact Cell.ofOption_inj (hm.hash.symm.trans h.hash)
  refine ⟨⟨hstatus, ?_, content, Cell.ofOption_inj (hm.content.symm.trans h.content), hcontent⟩,
    hfields⟩
  simp [WorldModule.isReusable, WorldModule.hashMatches, hstatus, hhash]

/-- A round whose call was answered finishes the module of its job and leaves the field values. -/
theorem Engine.Round.finished {s s' : Studio} {row : JobRow} {job : Job} {content : String}
    (h : Round s row job (.ok content) s') (hrows : s'.db.Readable)
    (hcontent : Text.trimmed? content = some content) :
    ∃ m n, s.db.StoredModule job.world job.moduleKey m ∧
      s'.db.StoredModule job.world job.moduleKey n ∧ n.Finished ∧ n.fields = m.fields := by
  obtain ⟨m, r, hm, hfind, hhas⟩ := h.completed content rfl
  obtain ⟨n, hdecode⟩ := hrows.modules r (List.mem_of_find?_eq_some hfind)
  obtain ⟨hfinished, hfields⟩ := hhas.finished hcontent (ModuleRow.holds_of_decode hdecode)
  exact ⟨m, n, hm, ⟨r, hfind, hdecode⟩, hfinished, hfields⟩

/-! ## Worlds that are being completed -/

/-- No required field of the modules of a world stands in the way of publication. -/
def Engine.FieldsValid (e : Engine) (db : Database) (id : WorldId) : Prop :=
  ∀ d ∈ e.registry.modules, ∀ f ∈ d.requiredFields,
    f.violation? (db.fieldValue? id d.key f.key) = none

/-- What is left to do for a world are some rows. -/
structure Engine.Completing (e : Engine) (id : WorldId) (owner : OwnerId) (db : Database)
    (rows : List JobRow) : Prop where
  owned : db.OwnedBy id owner
  valid : e.FieldsValid db id
  /-- A module that is not finished has a row. -/
  finished : ∀ key ∈ e.registry.keys, db.Finished id key ∨
    ∃ row ∈ rows, row.world = .text id.text ∧ row.moduleKey = .text key
  /-- A row of the world is for a stored module that the registry defines. -/
  stored : ∀ row ∈ rows, row.world = .text id.text → ∃ key ∈ e.registry.keys,
    row.moduleKey = .text key ∧ ∃ m, db.StoredModule id key m

namespace Engine.Completing

variable {e : Engine} {id : WorldId} {owner : OwnerId} {s s' : Studio} {row : JobRow}
  {rest : List JobRow} {job : Job} {answer : Except EngineError String}

/-- A round for the first row, answered if it is one of the world, leaves the other rows to do. -/
theorem round (h : e.Completing id owner s.db (row :: rest)) (hround : Round s row job answer s')
    (hworld : row.world = .text job.world.text) (hkey : row.moduleKey = .text job.moduleKey)
    (hrows : s'.db.Readable) (hanswer : job.world = id → ∃ content, answer = .ok content ∧
      Text.trimmed? content = some content) : e.Completing id owner s'.db rest := by
  have hother {key : String} (hne : ¬ (job.world = id ∧ job.moduleKey = key)) :=
    hround.others id key hne
  have hown {key : String} (heq : job.world = id ∧ job.moduleKey = key) :
      ∃ m n, s.db.StoredModule id key m ∧ s'.db.StoredModule id key n ∧ n.Finished ∧
        n.fields = m.fields := by
    obtain ⟨content, rfl, htrimmed⟩ := hanswer heq.1
    have hfinished := hround.finished hrows htrimmed
    rwa [heq.1, heq.2] at hfinished
  refine ⟨h.owned.of_worldsAfter hround.worlds, fun d hd f hf => ?_, fun key hmem => ?_,
    fun r hr hr' => ?_⟩
  · have hvalid := h.valid d hd f hf
    by_cases heq : job.world = id ∧ job.moduleKey = d.key
    · obtain ⟨m, n, hm, hn, _, hfields⟩ := hown heq
      rw [Database.fieldValue?, hm.module?_eq] at hvalid
      rw [Database.fieldValue?, hn.module?_eq]
      simp only [Option.bind_some, WorldModule.field?, hfields] at hvalid ⊢
      exact hvalid
    · rwa [Database.fieldValue?, Database.module?, hother heq]
  · by_cases heq : job.world = id ∧ job.moduleKey = key
    · obtain ⟨_, n, _, hn, hfinished, _⟩ := hown heq
      exact Or.inl ⟨n, hn, hfinished⟩
    · rcases h.finished key hmem with ⟨m, hm, hfinished⟩ | ⟨r, hr, hr', hrkey⟩
      · exact Or.inl ⟨m, by rwa [Database.StoredModule, hother heq], hfinished⟩
      · rcases List.mem_cons.1 hr with rfl | hr
        · refine absurd ⟨?_, ?_⟩ heq
          · exact WorldId.eq_of_text (Cell.text.inj (hworld.symm.trans hr'))
          · exact Cell.text.inj (hkey.symm.trans hrkey)
        · exact Or.inr ⟨r, hr, hr', hrkey⟩
  · obtain ⟨key, hmem, hrkey, m, hm⟩ := h.stored r (List.mem_cons_of_mem row hr) hr'
    refine ⟨key, hmem, hrkey, ?_⟩
    by_cases heq : job.world = id ∧ job.moduleKey = key
    · obtain ⟨_, n, _, hn, _⟩ := hown heq
      exact ⟨n, hn⟩
    · exact ⟨m, by rwa [Database.StoredModule, hother heq]⟩

/-- The call for a row of the world is answered. -/
theorem answered (h : e.Completing id owner s.db (row :: rest)) {t : Studio}
    (htaken : Taken s row job t) (hrows : t.db.Readable) {g : Generator (StateM Studio)}
    (hg : g.Answers) {c : Credentials} (hc : e.keyring.resolve owner = .ok c)
    (hrenders : e.Renders t.db job) (hid : job.world = id) :
    ∃ content, (e.answerFor g job t).1 = .ok content ∧ Text.trimmed? content = some content := by
  subst hid
  obtain ⟨_, hworld, hkey⟩ := htaken.names
  obtain ⟨key, hmem, hrkey, m, hm⟩ := h.stored row List.mem_cons_self hworld
  obtain rfl : job.moduleKey = key := Cell.text.inj (hkey.symm.trans hrkey)
  obtain ⟨m', hm', _⟩ := htaken.marked m hm
  have howned : t.db.OwnedBy job.world owner := by
    rw [Database.OwnedBy, htaken.worlds]
    exact h.owned
  obtain ⟨w, hlive, rfl⟩ := howned.liveWorld hrows htaken.sound.worldIds
  exact answerFor_of_answers hg
    (succeeds_requestFor htaken.sound.complete hrows hmem hlive hc hm' hrenders)

end Engine.Completing

/-! ## Rounds one after the other -/

namespace Engine

variable {e : Engine} {g : Generator (StateM Studio)} {s : Studio} {row : JobRow}
  {rest : List JobRow}

end Engine

end Lorebook
