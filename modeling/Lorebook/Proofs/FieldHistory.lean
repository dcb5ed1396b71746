import Lorebook.Proofs.Consistency
import Lorebook.Proofs.FieldRows
import Lorebook.Proofs.RegistryConstruction

set_option autoImplicit false

/-! # No lost update of a field

Field values are written when an owner saves fields and when a draft is merged; every operation that
writes a module back, those among them that span a call of a generator, reads it in the transaction
that writes it. So the stored values of a module are those of all committed writes, one over the
other in the order of the commits (`System.fieldHistory_run`). -/

namespace Lorebook

open Studio Operation Engine

/-! ## Writes of field values -/

/-- Values written into the fields of a module, in the order in which they are inserted. -/
structure FieldWrite where
  world : WorldId
  key : String
  values : List (String × String)

/-- The values that were written into the fields of one module. -/
def FieldWrite.valuesOf (world : WorldId) (key : String) (log : List FieldWrite) :
    List (String × String) :=
  (log.filter fun w => w.world = world ∧ w.key = key).flatMap (·.values)

theorem FieldWrite.valuesOf_append (world : WorldId) (key : String) (log rest : List FieldWrite) :
    valuesOf world key (log ++ rest) = valuesOf world key log ++ valuesOf world key rest := by
  rw [valuesOf, List.filter_append, List.flatMap_append]
  rfl

/-- The field values that a reply proposes and that are accepted. -/
def DraftCall.accepted (c : DraftCall) (reply : GenerationReply) : List (String × String) :=
  match reply with
  | .ok text =>
    match parseProposal c.definition text with
    | .ok proposed => proposed
    | .error _ => []
  | .error _ => []

theorem DraftCall.accepted_of_ok {c : DraftCall} {text : String}
    {proposed : List (String × String)} (h : parseProposal c.definition text = .ok proposed) :
    c.accepted (.ok text) = proposed := by
  unfold accepted
  dsimp only
  generalize parseProposal c.definition text = parsed at h ⊢
  subst h
  rfl

namespace System

/-- What an event writes into the fields of a module, if it is committed: the fields that an owner
saves, or those that a draft proposes. -/
def fieldWrite? (e : Engine) (s : System) : Event → Option FieldWrite
  | .command (.saveModuleFields world module owner fields) =>
    match e.saveModuleFields world module owner fields s.studio with
    | (.ok _, _) => some ⟨world, module, fields⟩
    | (.error _, _) => none
  | .mergeDraft i reply =>
    match s.drafts[i]? with
    | some c =>
      match c.stage with
      | .asked _ =>
        match acceptDraft c.world c.definition c.owner reply s.studio with
        | (.ok _, _) => some ⟨c.world, c.definition.key, c.accepted reply⟩
        | (.error _, _) => none
      | _ => none
    | none => none
  | _ => none

/-- What the events of a list write into fields, in the order of the commits. -/
def fieldLog (e : Engine) : System → List Event → List FieldWrite
  | _, [] => []
  | s, ev :: rest => (s.fieldWrite? e ev).toList ++ (s.step e ev).fieldLog e rest

end System

/-! ## Saving and merging -/

/-- A commit that saves a module with values over those that it had. -/
theorem Commit.fieldMap_eq {s s' : Studio} {m : WorldModule} (h : Commit s s' [.saveModule m])
    {values : List (String × String)}
    (hm : m.fields = (s.db.fieldMap m.world m.key).insertAll values) (world : WorldId)
    (key : String) : s'.db.fieldMap world key =
      (s.db.fieldMap world key).insertAll
        (FieldWrite.valuesOf world key [⟨m.world, m.key, values⟩]) := by
  rw [Journal.nil_iff.1 (Journal.cons_iff.1 h.journal).2, Database.fieldMap_saveModule]
  split
  · rename_i heq
    rw [hm, heq.1, heq.2]
    simp [FieldWrite.valuesOf]
  · rename_i hne
    simp [FieldWrite.valuesOf, hne, Dictionary.insertAll]

/-- Saving fields inserts them into the values that are stored. -/
theorem Engine.fieldMap_saveModuleFields {e : Engine} {w : WorldId} {module : String}
    {owner : OwnerId} {fields : List (String × String)} {s : Studio} {m : WorldModule}
    {s' : Studio} (h : Yields (e.saveModuleFields w module owner fields) s m s') (world : WorldId)
    (key : String) : s'.db.fieldMap world key =
      (s.db.fieldMap world key).insertAll
        (FieldWrite.valuesOf world key [⟨w, module, fields⟩]) := by
  obtain ⟨d, m₀, now, hd, hm₀, rfl, hcommit⟩ := commit_saveModuleFields h
  have hstored : m₀.fields.insertAll fields = (s.db.fieldMap m₀.world m₀.key).insertAll fields := by
    rw [hm₀.fields_eq, hm₀.world_eq, hm₀.key_eq]
  rw [← Registry.key_of_require hd, ← hm₀.world_eq, ← hm₀.key_eq]
  exact hcommit.fieldMap_eq hstored world key

/-- Merging a draft inserts what it proposes into the values that are stored by then. -/
theorem Engine.fieldMap_mergeDraft {id : WorldId} {d : ModuleDefinition} {owner : OwnerId}
    {proposed : List (String × String)} {s : Studio} {m : WorldModule} {s' : Studio}
    (h : Yields (mergeDraft id d owner proposed) s m s') (world : WorldId) (key : String) :
    s'.db.fieldMap world key = (s.db.fieldMap world key).insertAll
      (FieldWrite.valuesOf world key [⟨id, d.key, proposed⟩]) := by
  obtain ⟨m₀, now, hm₀, rfl, hcommit⟩ := commit_mergeDraft h
  have hstored :
      m₀.fields.insertAll proposed = (s.db.fieldMap m₀.world m₀.key).insertAll proposed := by
    rw [hm₀.fields_eq, hm₀.world_eq, hm₀.key_eq]
  rw [← hm₀.world_eq, ← hm₀.key_eq]
  exact hcommit.fieldMap_eq hstored world key

/-- A draft is not merged while its module has a job that waits or runs. -/
theorem Engine.idle_of_ensureNotQueued {world : WorldId} {module : String} {s : Studio} {u : Unit}
    {s' : Studio} (h : Yields (ensureNotQueued world module) s u s') (hdb : s.db.Sound) :
    ∀ r ∈ s.db.jobs, r.world = .text world.text → r.moduleKey = .text module →
      r.isOutstanding = false := by
  intro r hr hworld hkey
  simp only [ensureNotQueued, yields_bind, yields_store] at h
  obtain ⟨found, t, ⟨db, hfind, rfl⟩, h⟩ := h
  rcases Jobs.find?_cases hfind with ⟨job, rfl, q, hq, hqworld, hqkey, hdecode⟩ | ⟨rfl, habsent⟩
  · simp only [yields_ite, yields_pure, yields_throw, and_false, or_false] at h
    have heq : r = q :=
      List.inj_on_of_nodup_map hdb.jobKeys hr hq (by rw [hworld, hkey, hqworld, hqkey])
    have hstatus := (JobRow.holds_of_decode hdecode).hasStatus_iff
    rw [heq, Bool.eq_false_iff, ne_eq, JobRow.isOutstanding_iff, hstatus, hstatus]
    intro houtstanding
    rcases houtstanding with heq | heq
    · rw [heq] at h
      cases h.1
    · rw [heq] at h
      cases h.1
  · exact absurd ⟨hworld, hkey⟩ (habsent r hr)

/-- An accepted reply is merged as it was parsed. -/
theorem Engine.mergeDraft_of_acceptDraft {c : DraftCall} {reply : GenerationReply} {s : Studio}
    {m : WorldModule} {s' : Studio}
    (h : Yields (acceptDraft c.world c.definition c.owner reply) s m s') :
    ∃ t, t.db = s.db ∧
      Yields (mergeDraft c.world c.definition c.owner (c.accepted reply)) t m s' := by
  simp only [acceptDraft, yields_bind, yields_ofExcept, yields_tell] at h
  obtain ⟨text, _, ⟨rfl, rfl⟩, proposed, _, ⟨hproposed, rfl⟩, _, t, rfl, hmerge⟩ := h
  have haccepted : c.accepted (.ok text) = proposed := DraftCall.accepted_of_ok hproposed
  rw [← haccepted] at hmerge
  exact ⟨Studio.told _ _, rfl, hmerge⟩

/-! ## Events -/

/-- Whether an event is to write field values. -/
def Event.writesFields : Event → Bool
  | .command (.saveModuleFields _ _ _ _) => true
  | .mergeDraft _ _ => true
  | _ => false

/-- The modules that an operation finds and that cannot be taken over have their stored values. -/
theorem Engine.CurrentModules.fields_eq {db : Database} {world : WorldId}
    {ds : List ModuleDefinition} {ms : List WorldModule} (h : CurrentModules db world ds ms)
    {m : WorldModule} (hm : m ∈ stale ms) : m.fields = db.fieldMap m.world m.key := by
  obtain ⟨d, _, hcurrent⟩ := h.exists_definition (List.mem_filter.1 hm).1
  rw [hcurrent.fields_eq, hcurrent.world_eq, hcurrent.key_eq]

/-- What marking saves has the stored values. -/
theorem Engine.Marks.fields_eq {db : Database} {job : Job} {status : ModuleStatus} {now : Instant}
    {ws : List Write} (h : Marks db job status now ws) {m : WorldModule}
    (hm : .saveModule m ∈ ws) : m.fields = db.fieldMap m.world m.key := by
  cases h with
  | absent _ => cases hm
  | @stored m₀ hstored =>
    obtain rfl := Write.saveModule.inj (List.mem_singleton.1 hm)
    exact hstored.fields_eq_self

/-- What is saved where no fields are written: a module of a live world with its stored values, or
the module of a job that is leased or failed, with a mark. -/
inductive WorldModule.Saved (db : Database) (ws : List Write) (m : WorldModule) : Prop where
  | live {w : World} (hlive : db.LiveWorld m.world w)
      (hfields : m.fields = db.fieldMap m.world m.key)
  | leased {job : Job} {row : JobRow} {now : Instant} {vs : List Write}
      (hws : ws = .lease row now :: vs) (hworld : row.world = .text job.world.text)
      (hmarks : Marks db job .generating now vs) (hm : .saveModule m ∈ vs)
  | failed {job : Job} {id : JobId} {message : String} {now time : Instant} {vs : List Write}
      (hws : ws = .fail id message time :: vs) (hmarks : Marks db job .failed now vs)
      (hm : .saveModule m ∈ vs)

/-- What an event saves that writes no fields. -/
theorem Effect.saved {e : Engine} {s : System} {ev : Event} {opened : List Job}
    {ws : List Write} (h : Effect e s ev opened ws) (hev : ev.writesFields = false)
    (hsweep : ∀ timeout, ev ≠ .command (.recoverStaleLeases timeout)) {m : WorldModule}
    (hm : .saveModule m ∈ ws) : m.Saved s.studio.db ws := by
  cases h with
  | saveFields _ _ => cases hev
  | merge _ => cases hev
  | sweep _ => exact absurd rfl (hsweep _)
  | enqueue hlive hms _ _ _ =>
    simp only [List.mem_append, List.mem_map, Write.saveModule.injEq, List.mem_cons, reduceCtorEq,
      and_false, exists_false, or_false] at hm
    obtain ⟨m₀, hm₀, rfl⟩ := hm
    obtain ⟨d, _, hcurrent⟩ := hms.exists_definition (List.mem_filter.1 hm₀).1
    have hfields : m₀.fields = s.studio.db.fieldMap m₀.world m₀.key := hms.fields_eq hm₀
    exact .live (hcurrent.world_eq ▸ hlive) hfields
  | @retry world module owner w job m₀ now r hlive _ _ _ _ hstored =>
    obtain rfl : m = awaiting owner now m₀ := by
      split at hm <;> simpa using hm
    exact .live (hstored.world_eq ▸ hlive) hstored.fields_eq_self
  | @complete i reply c request content w m₀ now activated _ _ _ hlive hstored _ _ =>
    obtain rfl : m = completed content now m₀ := by
      split at hm <;> simpa using hm
    exact .live (hstored.world_eq ▸ hlive) hstored.fields_eq_self
  | lease hdecode hmarks =>
    exact .leased rfl (JobRow.holds_of_decode hdecode).world hmarks (by simpa using hm)
  | fail _ hmarks => exact .failed rfl hmarks (by simpa using hm)
  | release _ hmarks => exact .failed rfl hmarks (by simpa using hm)
  | _ => simp at hm

/-- Other events save modules with the values that are stored. -/
theorem Effect.fields_eq {e : Engine} {s : System} {ev : Event} {opened : List Job}
    {ws : List Write} (h : Effect e s ev opened ws) (hev : ev.writesFields = false)
    (hsweep : ∀ timeout, ev ≠ .command (.recoverStaleLeases timeout)) {m : WorldModule}
    (hm : .saveModule m ∈ ws) : m.fields = s.studio.db.fieldMap m.world m.key := by
  cases h.saved hev hsweep hm with
  | live _ hfields => exact hfields
  | leased _ _ hmarks hm => exact hmarks.fields_eq hm
  | failed _ hmarks hm => exact hmarks.fields_eq hm

/-- Only removing a world removes it. -/
theorem Effect.removeWorld_notMem {e : Engine} {s : System} {ev : Event} {opened : List Job}
    {ws : List Write} (h : Effect e s ev opened ws) {world : WorldId}
    (hev : ev ≠ .command (.hardDelete world)) : .removeWorld world ∉ ws := by
  cases h with
  | remove =>
    intro hmem
    obtain rfl := Write.removeWorld.inj (List.mem_singleton.1 hmem)
    exact hev rfl
  | sweep hws =>
    intro hmem
    have hexpires := hws _ hmem
    cases hexpires
  | lease _ hm => simp [hm.notMem]
  | fail _ hm => simp [hm.notMem]
  | release _ hm => simp [hm.notMem]
  | retry _ _ _ _ _ _ => split <;> simp
  | complete _ _ _ _ _ _ _ => split <;> simp
  | _ => simp

namespace System

variable {s : System} {world : WorldId} {key : String}

/-- An event that neither saves fields nor merges a draft keeps all field values. -/
theorem fieldMap_eq_of_others (h : s.Sound) (hfields : s.studio.db.FieldsWritten) (e : Engine)
    {ev : Event} (hwrites : ev.writesFields = false) (hev : ev ≠ .command (.hardDelete world)) :
    (s.step e ev).studio.db.fieldMap world key = s.studio.db.fieldMap world key := by
  by_cases hsweep : ∃ timeout, ev = .command (.recoverStaleLeases timeout)
  · obtain ⟨timeout, rfl⟩ := hsweep
    rcases s.command_cases e (c := .recoverStaleLeases timeout) rfl with ⟨js, hsweep⟩ | hsame
    · exact (marked_of_recoverStaleLeases hsweep h.db hfields).fieldMap_eq world key
    · rw [hsame.1]
  · obtain ⟨opened, ws, heffect, hcommit, _⟩ := s.step_effect e ev
    refine hcommit.journal.fieldMap_eq (fun m hm hworld hkey => ?_)
      (heffect.removeWorld_notMem hev)
    rw [heffect.fields_eq hwrites (fun timeout heq => hsweep ⟨timeout, heq⟩) hm, hworld, hkey]

/-- Saving fields is committed and writes them, or it leaves the database. -/
theorem saveModuleFields_cases (s : System) (e : Engine) (w : WorldId) (module : String)
    (owner : OwnerId) (fields : List (String × String)) :
    (s.fieldWrite? e (.command (.saveModuleFields w module owner fields)) =
        some ⟨w, module, fields⟩ ∧
      ∃ m, Yields (e.saveModuleFields w module owner fields) s.studio m
        (s.step e (.command (.saveModuleFields w module owner fields))).studio) ∨
      (s.fieldWrite? e (.command (.saveModuleFields w module owner fields)) = none ∧
        SameDb s.studio
          (s.step e (.command (.saveModuleFields w module owner fields))).studio) := by
  rcases yields_or_fails (e.saveModuleFields w module owner fields) s.studio with
    ⟨m, t, hrun⟩ | ⟨cause, t, hrun⟩
  · have hop : Yields ((Command.saveModuleFields w module owner fields).operation e) s.studio
        () t := by
      simp only [Command.operation, yields_bind, yields_pure]
      exact ⟨m, t, hrun, trivial, rfl⟩
    have ht : (s.step e (.command (.saveModuleFields w module owner fields))).studio = t :=
      congrArg Prod.snd hop
    refine Or.inl ⟨?_, m, by rw [ht]; exact hrun⟩
    simp only [fieldWrite?, show e.saveModuleFields w module owner fields s.studio = (.ok m, t)
      from hrun]
  · have hop : Fails ((Command.saveModuleFields w module owner fields).operation e) s.studio
        cause t := by
      simp only [Command.operation, fails_bind, fails_pure, and_false, exists_false, or_false]
      exact hrun
    have ht : (s.step e (.command (.saveModuleFields w module owner fields))).studio = t :=
      congrArg Prod.snd hop
    refine Or.inr ⟨?_, by rw [ht]; exact failsClean_operation e _ hop⟩
    simp only [fieldWrite?, show e.saveModuleFields w module owner fields s.studio =
      (.error cause, t) from hrun]

/-- A merge is committed and writes what the reply proposes, or it leaves the database. -/
theorem mergeDraft_cases (s : System) (e : Engine) (i : Nat) (reply : GenerationReply) :
    (∃ c t m, s.drafts[i]? = some c ∧ t.db = s.studio.db ∧
      s.fieldWrite? e (.mergeDraft i reply) =
        some ⟨c.world, c.definition.key, c.accepted reply⟩ ∧
      Yields (mergeDraft c.world c.definition c.owner (c.accepted reply)) t m
        (s.step e (.mergeDraft i reply)).studio) ∨
      (s.fieldWrite? e (.mergeDraft i reply) = none ∧
        SameDb s.studio (s.step e (.mergeDraft i reply)).studio) := by
  simp only [step, onDraft, fieldWrite?]
  cases hc : s.drafts[i]? with
  | none => exact Or.inr ⟨rfl, Chain.refl _⟩
  | some c =>
    simp only [DraftCall.merge]
    cases hstage : c.stage with
    | asked request =>
      simp only
      rcases yields_or_fails (acceptDraft c.world c.definition c.owner reply) s.studio with
        ⟨m, t, hrun⟩ | ⟨cause, t, hrun⟩
      · obtain ⟨u, hu, hmerge⟩ := mergeDraft_of_acceptDraft hrun
        rw [show acceptDraft c.world c.definition c.owner reply s.studio = (.ok m, t) from hrun]
        exact Or.inl ⟨c, u, m, rfl, hu, rfl, hmerge⟩
      · rw [show acceptDraft c.world c.definition c.owner reply s.studio = (.error cause, t)
          from hrun]
        exact Or.inr ⟨rfl, failsClean_acceptDraft _ _ _ _ hrun⟩
    | loaded scope => exact Or.inr ⟨rfl, Chain.refl _⟩
    | ended result => exact Or.inr ⟨rfl, Chain.refl _⟩

/-- An event inserts into the field values of a module what it writes into them. -/
theorem fieldMap_step (h : s.Sound) (hfields : s.studio.db.FieldsWritten) (e : Engine)
    {ev : Event} (hev : ev ≠ .command (.hardDelete world)) :
    (s.step e ev).studio.db.fieldMap world key =
      (s.studio.db.fieldMap world key).insertAll
        (FieldWrite.valuesOf world key (s.fieldWrite? e ev).toList) := by
  cases ev with
  | command c =>
    cases c with
    | saveModuleFields w module owner fields =>
      rcases s.saveModuleFields_cases e w module owner fields with
        ⟨hwrite, m, hrun⟩ | ⟨hwrite, hsame⟩
      · rw [hwrite, fieldMap_saveModuleFields hrun, Option.toList_some]
      · rw [hwrite, hsame.1]
        rfl
    | _ => exact fieldMap_eq_of_others h hfields e rfl hev
  | mergeDraft i reply =>
    rcases s.mergeDraft_cases e i reply with
      ⟨c, t, m, _, ht, hwrite, hrun⟩ | ⟨hwrite, hsame⟩
    · rw [hwrite, fieldMap_mergeDraft hrun, ht, Option.toList_some]
    · rw [hwrite, hsame.1]
      rfl
  | _ => exact fieldMap_eq_of_others h hfields e rfl hev

/-- Any events insert into the field values of a module what they write into them, in the order of
the commits. -/
theorem fieldMap_foldl (h : s.Sound) (hfields : s.studio.db.FieldsWritten) (e : Engine)
    {events : List Event} (hev : .command (.hardDelete world) ∉ events) :
    (events.foldl (step e) s).studio.db.fieldMap world key =
      (s.studio.db.fieldMap world key).insertAll
        (FieldWrite.valuesOf world key (s.fieldLog e events)) := by
  induction events generalizing s with
  | nil => rfl
  | cons ev rest ih =>
    rw [List.mem_cons, not_or] at hev
    rw [List.foldl_cons, ih (h.step e ev) (fieldsWritten_step hfields e ev) hev.2,
      fieldMap_step h hfields e (Ne.symm hev.1), fieldLog, FieldWrite.valuesOf_append,
      Dictionary.insertAll_append]

/-- The stored cell of a module changes only by what is written into its fields. -/
theorem fields_eq_of_unwritten (h : s.Sound) (hfields : s.studio.db.FieldsWritten) (e : Engine)
    {ev : Event} (hwrite : ∀ w, s.fieldWrite? e ev = some w → ¬ (w.world = world ∧ w.key = key))
    {r r' : ModuleRow}
    (hr : r ∈ s.studio.db.modules) (hr' : r' ∈ (s.step e ev).studio.db.modules)
    (hof : Modules.isOf world key r = true) (hof' : Modules.isOf world key r' = true) :
    r'.fields = r.fields := by
  by_cases hev : ev = .command (.hardDelete world)
  · subst hev
    obtain ⟨opened, ws, heffect, hcommit, _⟩ := s.step_effect e (.command (.hardDelete world))
    cases heffect with
    | nothing ev =>
      rw [Journal.nil_iff.1 hcommit.journal] at hr'
      have hfound := Modules.find?_isOf h.db.moduleKeys hr hof
      rw [Modules.find?_isOf h.db.moduleKeys hr' hof'] at hfound
      rw [Option.some.inj hfound]
    | remove =>
      rw [Journal.nil_iff.1 (Journal.cons_iff.1 hcommit.journal).2] at hr'
      have hother := (List.mem_filter.1 hr').2
      rw [Modules.isOf, Bool.and_eq_true] at hof'
      rw [hof'.1] at hother
      cases hother
  · have hnone : FieldWrite.valuesOf world key (s.fieldWrite? e ev).toList = [] := by
      cases hw : s.fieldWrite? e ev with
      | none => rfl
      | some w => simp [FieldWrite.valuesOf, hwrite w hw]
    rw [(fieldsWritten_step hfields e ev).fields_eq (h.step e ev).db hr' hof',
      hfields.fields_eq h.db hr hof, fieldMap_step h hfields e hev, hnone]
    rfl

/-! ## Histories of fields -/

/-- No update of a field is lost. -/
structure FieldHistory (e : Engine) (events : List Event) : Prop where
  /-- The field values of a module are those of all committed writes, in the order of the commits,
  as long as its world is not removed. -/
  folded : ∀ world key, .command (.hardDelete world) ∉ events →
    (run e events).studio.db.fieldMap world key =
      .ofList (FieldWrite.valuesOf world key (initial.fieldLog e events))
  /-- The stored cell holds these values and nothing else. -/
  stored : ∀ world key, .command (.hardDelete world) ∉ events →
    ∀ r ∈ (run e events).studio.db.modules, Modules.isOf world key r = true →
      r.fields = .text (FieldMap.toJson
        (.ofList (FieldWrite.valuesOf world key (initial.fieldLog e events)))).compact
  /-- What is not a committed write of the fields of a module leaves its cell. -/
  unwritten : ∀ ev world key,
    (∀ w, (run e events).fieldWrite? e ev = some w → ¬ (w.world = world ∧ w.key = key)) →
    ∀ r ∈ (run e events).studio.db.modules, Modules.isOf world key r = true →
    ∀ r' ∈ ((run e events).step e ev).studio.db.modules, Modules.isOf world key r' = true →
      r'.fields = r.fields
  /-- What a committed write does not give a value keeps the value that it had then, whenever the
  prompt was read. -/
  kept : ∀ ev w, (run e events).fieldWrite? e ev = some w → ∀ field,
    (∀ v ∈ w.values, v.1 ≠ field) →
    (((run e events).step e ev).studio.db.fieldMap w.world w.key).find? field =
      ((run e events).studio.db.fieldMap w.world w.key).find? field
  /-- A draft is merged only while its module has no job that waits or runs. -/
  idle : ∀ i reply w, (run e events).fieldWrite? e (.mergeDraft i reply) = some w →
    ∀ r ∈ (run e events).studio.db.jobs, r.world = .text w.world.text →
      r.moduleKey = .text w.key → r.isOutstanding = false

/-- What writes fields removes no world. -/
theorem ne_hardDelete_of_fieldWrite {e : Engine} {ev : Event} {w : FieldWrite}
    (h : s.fieldWrite? e ev = some w) : ev ≠ .command (.hardDelete world) := by
  rintro rfl
  cases h

theorem idle_of_fieldWrite (h : s.Sound) {e : Engine} {i : Nat} {reply : GenerationReply}
    {w : FieldWrite} (hwrite : s.fieldWrite? e (.mergeDraft i reply) = some w) :
    ∀ r ∈ s.studio.db.jobs, r.world = .text w.world.text → r.moduleKey = .text w.key →
      r.isOutstanding = false := by
  rcases s.mergeDraft_cases e i reply with ⟨c, t, m, _, ht, hc, hrun⟩ | ⟨hnone, _⟩
  · obtain rfl := Option.some.inj (hc.symm.trans hwrite)
    simp only [mergeDraft, yields_atomically, yields_bind] at hrun
    obtain ⟨_, _, hqueued, _⟩ := hrun
    rw [← ht]
    exact idle_of_ensureNotQueued hqueued (by rw [ht]; exact h.db)
  · rw [hnone] at hwrite
    cases hwrite

/-- Whatever happens in whatever order, no update of a field is lost. -/
theorem fieldHistory_run (e : Engine) (events : List Event) : FieldHistory e events where
  folded world key hev := fieldMap_foldl Sound.initial (fieldsWritten e []) e hev
  stored world key hev r hr hof := by
    rw [(fieldsWritten e events).fields_eq (Sound.run e events).db hr hof]
    exact congrArg (fun fields => Cell.text (FieldMap.toJson fields).compact)
      (fieldMap_foldl Sound.initial (fieldsWritten e []) e hev)
  unwritten ev world key hwrite r hr hof r' hr' hof' :=
    fields_eq_of_unwritten (Sound.run e events) (fieldsWritten e events) e hwrite hr hr' hof hof'
  kept ev w hwrite field hfield := by
    rw [fieldMap_step (Sound.run e events) (fieldsWritten e events) e
      (ne_hardDelete_of_fieldWrite hwrite), hwrite]
    refine Dictionary.find?_insertAll_of_ne (fun v hv => ?_) _
    simp only [FieldWrite.valuesOf, Option.toList_some, and_self, decide_true,
      List.filter_cons_of_pos, List.filter_nil, List.flatMap_cons, List.flatMap_nil,
      List.append_nil] at hv
    exact hfield v hv
  idle i reply w hwrite := idle_of_fieldWrite (Sound.run e events) hwrite

end System

end Lorebook
