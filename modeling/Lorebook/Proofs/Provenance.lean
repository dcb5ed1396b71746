import Lorebook.Proofs.Integrity

set_option autoImplicit false

/-! # Where content comes from

The content of a completed module is the answer to a prompt that a call rendered from a stored row
of the module, and its fingerprint is that of the fields at the time of the answer. The fields can
be edited between the prompt and the answer. The module is then taken over at the next publication
though its content was made from other fields, and only then (`System.provenance_run`). -/

namespace Lorebook

open Studio Operation Engine

/-! ## Prompts -/

/-- A prompt for a job was rendered from a stored module of the job. -/
structure Engine.PromptedFrom (e : Engine) (db : Database) (job : Job) (m : WorldModule)
    (prompt : String) : Prop where
  stored : ∃ r ∈ db.modules, Modules.isOf job.world job.moduleKey r = true ∧ r.decode = .ok m
  rendered : ∃ input : ContextInput, db.LiveWorld job.world input.world ∧
    e.registry.require job.moduleKey = .ok input.definition ∧ input.module = m ∧
    (e.catalog.template .final input.definition.key).render e.functions
      (Context.final input e.registry) = .ok prompt

theorem Engine.promptedFrom_of_requestFor {e : Engine} {job : Job} {s : Studio}
    {request : GenerationRequest} {s' : Studio} (h : Yields (e.requestFor job) s request s') :
    ∃ m, e.PromptedFrom s.db job m request.prompt := by
  simp only [requestFor, definition, yields_bind, yields_ofExcept, yields_store,
    yields_pure] at h
  obtain ⟨d, _, ⟨hd, rfl⟩, ⟨w, siblings⟩, t, ⟨db, ⟨w', u, hworld, ms, v, hlist, hpair, rfl⟩, rfl⟩,
    h⟩ := h
  rw [Prod.mk.injEq] at hpair
  obtain ⟨rfl, rfl⟩ := hpair
  have hlive := Worlds.liveWorld_of_require hworld
  have hu := (Worlds.reads_require _).of_yields hworld
  subst hu
  simp only at h
  split at h
  · simp at h
  · rename_i m hm
    simp only [renderPrompt, yields_bind, yields_ofExcept, yields_pure] at h
    obtain ⟨prompt, _, ⟨hrender, rfl⟩, credentials, _, _, rfl, rfl⟩ := h
    obtain ⟨r, hr, hrworld, hdecode⟩ := Modules.mem_of_listForWorld hlist
      (List.mem_of_find?_eq_some hm)
    have hkey := List.find?_some hm
    refine ⟨m, ⟨⟨r, hr, ?_, hdecode⟩, ⟨_, hlive, hd, rfl, hrender⟩⟩⟩
    rw [Modules.isOf_iff, (ModuleRow.holds_of_decode hdecode).key, beq_iff_eq.1 hkey]
    exact ⟨hrworld, rfl⟩

/-! ## Calls -/

/-- The call has come to an end. -/
def QueueCall.HasEnded (c : QueueCall) : Prop :=
  ∃ outcome, c.stage = .ended outcome

/-- What a call asks its generator is what it read from the studio that it notes. -/
def QueueCall.Asked (e : Engine) (c : QueueCall) : Prop :=
  ∀ request, c.stage = .asked request →
    ∃ s t, c.promptedOn = some s ∧ Yields (e.requestFor c.job) s request t

namespace QueueCall

variable {e : Engine} {c : QueueCall}

theorem ask_of_ended (h : c.HasEnded) (e : Engine) (s : Studio) : (c.ask e s).1 = c := by
  obtain ⟨outcome, h⟩ := h
  simp only [ask, h]

theorem settle_of_ended (h : c.HasEnded) (reply : GenerationReply) (s : Studio) :
    (c.settle reply s).1 = c := by
  obtain ⟨outcome, h⟩ := h
  simp only [settle, h]

theorem release_of_ended (h : c.HasEnded) (s : Studio) : (c.release s).1 = c := by
  obtain ⟨outcome, h⟩ := h
  simp only [release, h]

/-- A call that has recorded something does not ask. -/
theorem asked_record (content : Except EngineError String) (s : Studio) :
    (c.record content s).1.Asked e := by
  intro request hstage
  unfold record at hstage
  split at hstage <;> cases hstage

theorem Asked.ask (h : c.Asked e) (s : Studio) : (c.ask e s).1.Asked e := by
  unfold QueueCall.ask
  cases hstage : c.stage with
  | leased =>
    simp only [askFor]
    rw [StateM.bind_run, perform_run]
    rcases hrun : e.requestFor c.job s with ⟨cause | request, t⟩
    · intro request hasked
      cases hasked
    · intro request' hasked
      cases hasked
      exact ⟨s, t, rfl, hrun⟩
  | asked request => exact h
  | refused cause => exact h
  | discarding cause => exact h
  | ended outcome => exact h

theorem Asked.settle (h : c.Asked e) (reply : GenerationReply) (s : Studio) :
    (c.settle reply s).1.Asked e := by
  unfold QueueCall.settle
  cases c.stage with
  | asked request => exact asked_record _ _
  | refused cause => exact asked_record _ _
  | leased => exact h
  | discarding cause => exact h
  | ended outcome => exact h

theorem Asked.release (h : c.Asked e) (s : Studio) : (c.release s).1.Asked e := by
  unfold QueueCall.release
  cases c.stage with
  | discarding cause =>
    intro request hasked
    cases hasked
  | asked request => exact h
  | refused cause => exact h
  | leased => exact h
  | ended outcome => exact h

end QueueCall

namespace System

/-- After a step on one call, the calls are the one that it left and others that were there. -/
theorem mem_onCall {s : System} {f : QueueCall → Studio → QueueCall × Studio} {i : Nat}
    {c : QueueCall} (h : c ∈ (s.onCall f i).calls) :
    c ∈ s.calls ∨ ∃ c₀ ∈ s.calls, c = (f c₀ s.studio).1 := by
  cases hi : s.calls[i]? with
  | none =>
    rw [onCall_of_none hi] at h
    exact Or.inl h
  | some c₀ =>
    rw [onCall_of_some hi] at h
    rcases List.mem_or_eq_of_mem_set h with h | rfl
    · exact Or.inl h
    · exact Or.inr ⟨c₀, List.mem_of_getElem? hi, rfl⟩

/-- A step that leaves ended calls keeps them. -/
theorem mem_onCall_of_ended {s : System} {f : QueueCall → Studio → QueueCall × Studio} {i : Nat}
    (hf : ∀ c : QueueCall, c.HasEnded → ∀ t, (f c t).1 = c) {c : QueueCall} (hc : c ∈ s.calls)
    (hended : c.HasEnded) : c ∈ (s.onCall f i).calls := by
  cases hi : s.calls[i]? with
  | none =>
    rw [onCall_of_none hi]
    exact hc
  | some c₀ =>
    rw [onCall_of_some hi]
    obtain ⟨k, hk⟩ := List.mem_iff_getElem?.1 hc
    refine List.mem_iff_getElem?.2 ⟨k, ?_⟩
    by_cases hki : i = k
    · subst hki
      obtain rfl := Option.some.inj (hi.symm.trans hk)
      obtain ⟨hlt, _⟩ := List.getElem?_eq_some_iff.1 hi
      simp [hlt, hf c₀ hended]
    · rw [List.getElem?_set_ne hki]
      exact hk

/-- Ended calls stay as they are. -/
theorem mem_step_of_ended {s : System} (e : Engine) (ev : Event) {c : QueueCall}
    (hc : c ∈ s.calls) (hended : c.HasEnded) : c ∈ (s.step e ev).calls := by
  cases ev with
  | ask i => exact mem_onCall_of_ended (fun c h t => c.ask_of_ended h e t) hc hended
  | settle i reply => exact mem_onCall_of_ended (fun c h t => c.settle_of_ended h reply t) hc hended
  | release i => exact mem_onCall_of_ended (fun c h t => c.release_of_ended h t) hc hended
  | lease =>
    obtain ⟨opened, _, _, _, hcalls⟩ := lease_effect e s
    show c ∈ s.lease.calls
    rw [hcalls]
    exact List.mem_append_left _ hc
  | openDraft world module owner =>
    show c ∈ (s.openDraft e world module owner).calls
    rw [(openDraft_effect e s world module owner).2]
    exact hc
  | askDraft i =>
    simp only [step, onDraft]
    split <;> exact hc
  | mergeDraft i reply =>
    simp only [step, onDraft]
    split <;> exact hc
  | setClock time => exact hc
  | command cmd => exact hc

/-- Every event keeps what calls note about their prompts. -/
theorem asked_step {e : Engine} {s : System} (h : ∀ c ∈ s.calls, c.Asked e) (ev : Event) :
    ∀ c ∈ (s.step e ev).calls, c.Asked e := by
  intro c hc
  have honCall {f : QueueCall → Studio → QueueCall × Studio} {i : Nat}
      (hf : ∀ c : QueueCall, c.Asked e → ∀ t, (f c t).1.Asked e)
      (hc : c ∈ (s.onCall f i).calls) : c.Asked e := by
    rcases mem_onCall hc with hc | ⟨c₀, hc₀, rfl⟩
    · exact h c hc
    · exact hf c₀ (h c₀ hc₀) s.studio
  cases ev with
  | ask i => exact honCall (fun c hasked t => hasked.ask t) hc
  | settle i reply => exact honCall (fun c hasked t => hasked.settle reply t) hc
  | release i => exact honCall (fun c hasked t => hasked.release t) hc
  | lease =>
    obtain ⟨opened, _, _, _, hcalls⟩ := lease_effect e s
    rw [show (s.step e .lease).calls = s.lease.calls from rfl, hcalls, List.mem_append,
      List.mem_map] at hc
    rcases hc with hc | ⟨job, _, rfl⟩
    · exact h c hc
    · intro request hasked
      cases hasked
  | openDraft world module owner =>
    rw [show (s.step e (.openDraft world module owner)).calls =
      (s.openDraft e world module owner).calls from rfl,
      (openDraft_effect e s world module owner).2] at hc
    exact h c hc
  | askDraft i =>
    simp only [step, onDraft] at hc
    split at hc <;> exact h c hc
  | mergeDraft i reply =>
    simp only [step, onDraft] at hc
    split at hc <;> exact h c hc
  | setClock time => exact h c hc
  | command cmd => exact h c hc

end System

/-! ## Contents -/

/-- A call made the content of a module. Its prompt was rendered from the module as `prompted`; when
the answer was recorded, the module was stored as `answered`, and it has had these fields since. -/
structure MadeBy (e : Engine) (c : QueueCall) (prompted answered m : WorldModule) : Prop where
  world : m.world = c.job.world
  key : m.key = c.job.moduleKey
  asked : ∃ s t request, c.promptedOn = some s ∧ Yields (e.requestFor c.job) s request t ∧
    e.PromptedFrom s.db c.job prompted request.prompt
  recorded : ∃ s reply content, c.answeredOn = some (s, reply) ∧ contentOf reply = .ok content ∧
    m.content = some content ∧ s.db.StoredModule c.job.world c.job.moduleKey answered
  fields : m.fields = answered.fields

theorem MadeBy.of_holds {e : Engine} {c : QueueCall} {prompted answered m n : WorldModule}
    (h : MadeBy e c prompted answered m) {r : ModuleRow} (hm : r.Holds m) (hn : r.Holds n) :
    MadeBy e c prompted answered n where
  world := by
    rw [← h.world]
    exact WorldId.eq_of_text (Cell.text.inj (hn.world.symm.trans hm.world))
  key := by
    rw [← h.key]
    exact Cell.text.inj (hn.key.symm.trans hm.key)
  asked := h.asked
  recorded := by
    rw [hn.content_eq hm]
    exact h.recorded
  fields := (hn.fields_eq hm).trans h.fields

/-- The row holds a module whose content an ended call made. -/
def System.Made (e : Engine) (s : System) (r : ModuleRow) : Prop :=
  ∃ c ∈ s.calls, c.HasEnded ∧ ∃ prompted answered m, r.Holds m ∧ m.isReusable = true ∧
    MadeBy e c prompted answered m

theorem System.Made.step {e : Engine} {s : System} {r : ModuleRow} (h : s.Made e r) (ev : Event) :
    (s.step e ev).Made e r := by
  obtain ⟨c, hc, hended, hmade⟩ := h
  exact ⟨c, mem_step_of_ended e ev hc hended, hended, hmade⟩

/-- Whether the write stores a completed module. -/
def Write.completes : Write → Bool
  | saveModule m => m.status = .completed
  | _ => false

/-- A write that stores no completed module leaves the completed ones that were there. -/
theorem Write.mem_of_completed {w : Write} (hw : w.completes = false) {rows : List ModuleRow}
    {r : ModuleRow} (hr : r ∈ w.onModules rows)
    (hcompleted : r.status = .text ModuleStatus.completed.text) : r ∈ rows := by
  cases w with
  | saveModule m =>
    have hother : (ModuleRow.ofModule m).status ≠ .text ModuleStatus.completed.text := fun heq =>
      of_decide_eq_false hw (ModuleStatus.text_inj (Cell.text.inj heq))
    simp only [onModules] at hr
    split at hr
    · obtain ⟨r₀, hr₀, rfl⟩ := List.mem_map.1 hr
      by_cases hof : Modules.isOf m.world m.key r₀ = true
      · rw [if_pos hof] at hcompleted
        exact absurd hcompleted hother
      · rw [if_neg hof]
        exact hr₀
    · rcases List.mem_append.1 hr with hr | hr
      · exact hr
      · rw [List.mem_singleton.1 hr] at hcompleted
        exact absurd hcompleted hother
  | removeWorld id => exact (List.mem_filter.1 hr).1
  | _ => exact hr

theorem Journal.mem_of_completed {db db' : Database} {ws : List Write} (h : Journal db ws db')
    (hws : ∀ w ∈ ws, w.completes = false) {r : ModuleRow} (hr : r ∈ db'.modules)
    (hcompleted : r.status = .text ModuleStatus.completed.text) : r ∈ db.modules :=
  h.invariant (I := fun d => ∀ r ∈ d.modules,
    r.status = .text ModuleStatus.completed.text → r ∈ db.modules)
    (fun w hw _ _ hd r hr hstatus => hd r (Write.mem_of_completed (hws w hw) hr hstatus) hstatus)
    (fun _ hr _ => hr) r hr hcompleted

theorem Engine.Marks.completes_eq_false {db : Database} {job : Job} {status : ModuleStatus}
    {now : Instant} {ws : List Write} (h : Marks db job status now ws)
    (hstatus : status ≠ .completed) : ∀ w ∈ ws, w.completes = false := by
  intro w hw
  obtain ⟨m, rfl, _, _, hm⟩ := h.eq_saveModule hw
  exact decide_eq_false (hm ▸ hstatus)

/-- Storing a completed module leaves the other rows, and one that holds the module. -/
theorem Write.mem_of_saveModule {db : Database} (hdb : db.Sound) {m : WorldModule}
    (hm : db.StoredModule m.world m.key m) {n : WorldModule}
    (hnames : n.id = m.id ∧ n.world = m.world ∧ n.key = m.key) {r : ModuleRow}
    (hr : r ∈ (saveModule n).onModules db.modules) : r ∈ db.modules ∨ r.Holds n := by
  obtain ⟨row, hfind, hdecode⟩ := hm
  obtain ⟨hid, hworld, hkey⟩ := hnames
  have hmem := List.mem_of_find?_eq_some hfind
  have hof := List.find?_some hfind
  simp only [onModules, hworld, hkey] at hr
  rw [if_pos (List.any_eq_true.2 ⟨row, hmem, hof⟩)] at hr
  obtain ⟨r₀, hr₀, rfl⟩ := List.mem_map.1 hr
  -- There is one row of these names, and it keeps the name of the module.
  by_cases hof₀ : Modules.isOf m.world m.key r₀ = true
  · rw [if_pos hof₀]
    obtain ⟨hworld₀, hkey₀⟩ := Modules.isOf_iff.1 hof₀
    have hfound := Modules.find?_isOf hdb.moduleKeys hr₀ hof₀
    have heq : row = r₀ := Option.some.inj (hfind.symm.trans hfound)
    have hnew := ModuleRow.holds_ofModule n
    refine Or.inr ⟨?_, ?_, ?_, hnew.fields, hnew.status, hnew.hash, hnew.content⟩
    · rw [hid, ← heq]
      exact (ModuleRow.holds_of_decode hdecode).id
    · rw [hworld]
      exact hworld₀
    · rw [hkey]
      exact hkey₀
  · rw [if_neg hof₀]
    exact Or.inl hr₀

theorem isReusable_completed (content : String) (now : Instant) (m : WorldModule) :
    (completed content now m).isReusable = true := by
  simp [WorldModule.isReusable, WorldModule.hashMatches, completed, WorldModule.touch]

namespace System

variable {e : Engine} {s : System}

/-- A completion leaves the content of the completed module to the call that completed it. -/
theorem made_complete (hs : s.Sound) {i : Nat} {reply : GenerationReply} {c : QueueCall}
    {request : GenerationRequest} {content : String} {m : WorldModule} {now : Instant}
    {outcome : QueueOutcome} {ws : List Write} (hc : s.calls[i]? = some c)
    (hasked : c.Asked e) (hstage : c.stage = .asked request)
    (hcontent : contentOf reply = .ok content)
    (hm : s.studio.db.StoredModule c.job.world c.job.moduleKey m)
    (hcalls : (s.step e (.settle i reply)).calls = s.calls.set i { c with
      stage := .ended outcome, answeredOn := some (s.studio, reply) })
    (hws : ∀ w ∈ ws, w.completes = false) {db' : Database} (hjournal : Journal s.studio.db
      ([.succeed c.job.id now, .saveModule (completed content now m)] ++ ws) db')
    {r : ModuleRow} (hr : r ∈ db'.modules)
    (hcompleted : r.status = .text ModuleStatus.completed.text) :
    r ∈ s.studio.db.modules ∨ (s.step e (.settle i reply)).Made e r := by
  rw [List.cons_append, List.cons_append, List.nil_append, Journal.cons_iff, Journal.cons_iff]
    at hjournal
  obtain ⟨_, _, hrest⟩ := hjournal
  have hr' := hrest.mem_of_completed hws hr hcompleted
  have hstored : s.studio.db.StoredModule m.world m.key m := by
    rw [hm.world_eq, hm.key_eq]
    exact hm
  -- The row is an old one, or it holds what the call has just recorded.
  rcases Write.mem_of_saveModule hs.db hstored (n := completed content now m) ⟨rfl, rfl, rfl⟩ hr'
    with hold | hnew
  · exact Or.inl hold
  · obtain ⟨s₀, t, hprompted, hrequest⟩ := hasked request hstage
    obtain ⟨prompted, hfrom⟩ := promptedFrom_of_requestFor hrequest
    refine Or.inr ⟨{ c with stage := .ended outcome, answeredOn := some (s.studio, reply) }, ?_,
      ⟨outcome, rfl⟩, prompted, m, completed content now m, hnew,
      isReusable_completed content now m, ?_⟩
    · rw [hcalls]
      obtain ⟨hlt, _⟩ := List.getElem?_eq_some_iff.1 hc
      exact List.mem_iff_getElem?.2 ⟨i, List.getElem?_set_self hlt⟩
    · exact ⟨hm.world_eq, hm.key_eq, ⟨s₀, t, request, hprompted, hrequest, hfrom⟩,
        ⟨s.studio, reply, content, rfl, hcontent, rfl, hm⟩, rfl⟩

/-- Every event leaves the contents of completed modules to calls that made them. -/
theorem made_step (hs : s.Sound) (hasked : ∀ c ∈ s.calls, c.Asked e)
    (hmade : ∀ r ∈ s.studio.db.modules, r.status = .text ModuleStatus.completed.text → s.Made e r)
    (ev : Event) : ∀ r ∈ (s.step e ev).studio.db.modules,
      r.status = .text ModuleStatus.completed.text → (s.step e ev).Made e r := by
  obtain ⟨opened, ws, heffect, hcommit, _⟩ := s.step_effect e ev
  intro r hr hcompleted
  have hkept (hws : ∀ w ∈ ws, w.completes = false) : (s.step e ev).Made e r :=
    (hmade r (hcommit.journal.mem_of_completed hws hr hcompleted) hcompleted).step ev
  cases heffect with
  | @complete _ _ _ _ _ w _ now activated hc hstage hcontent _ hm _ hcalls =>
    have hactivate : ∀ v ∈ (if activated then [Write.changeWorld (w.activate now)] else []),
        v.completes = false := by
      split <;> simp [Write.completes]
    rcases made_complete hs hc (hasked _ (List.mem_of_getElem? hc)) hstage hcontent hm hcalls
      hactivate hcommit.journal hr hcompleted with hold | hnew
    · exact (hmade r hold hcompleted).step _
    · exact hnew
  | saveFields _ _ =>
    exact hkept (List.forall_mem_singleton.2 (decide_eq_false (derive_ne_completed _ _)))
  | retry _ _ _ _ _ _ => exact hkept (by split <;> simp [Write.completes])
  | sweep hws =>
    refine hkept fun w hw => ?_
    cases hws w hw with
    | job id message now => rfl
    | module m hm => simp [Write.completes, hm]
  | merge _ => exact hkept (by simp [Write.completes, drafted, WorldModule.touch])
  | lease _ hmarks =>
    exact hkept (List.forall_mem_cons.2 ⟨rfl, hmarks.completes_eq_false (by decide)⟩)
  | fail _ hmarks =>
    exact hkept (List.forall_mem_cons.2 ⟨rfl, hmarks.completes_eq_false (by decide)⟩)
  | release _ hmarks =>
    exact hkept (List.forall_mem_cons.2 ⟨rfl, hmarks.completes_eq_false (by decide)⟩)
  | _ => exact hkept (by simp [Write.completes, or_imp, forall_and])

end System

/-! ## Runs -/

/-- A module that is stored as a reusable one is reusable as it is read. -/
theorem isReusable_of_holds {r : ModuleRow} {m n : WorldModule} (hm : r.Holds m) (hn : r.Holds n)
    (h : m.isReusable = true) : n.isReusable = true := by
  unfold WorldModule.isReusable WorldModule.hashMatches at h ⊢
  rwa [hn.status_eq hm, hn.fields_eq hm, hn.hash_eq hm]

/-- The content of a module was made from the fields that the module has. -/
def System.UpToDate (e : Engine) (s : System) (m : WorldModule) : Prop :=
  ∃ c ∈ s.calls, ∃ prompted answered, MadeBy e c prompted answered m ∧ prompted.fields = m.fields

/-- The content of a module was made by a call that found the fields as it had left them: they were
not edited between its prompt and its answer. -/
def System.Undisturbed (e : Engine) (s : System) (m : WorldModule) : Prop :=
  ∃ c ∈ s.calls, ∃ prompted answered, MadeBy e c prompted answered m ∧
    prompted.fields = answered.fields

/-- Where the contents of a system come from. -/
structure System.Provenance (e : Engine) (s : System) : Prop where
  /-- The content of a reusable module was made by a call. -/
  made : ∀ r ∈ s.studio.db.modules, ∀ m, r.decode = .ok m → m.isReusable = true →
    ∃ c ∈ s.calls, ∃ prompted answered, MadeBy e c prompted answered m
  /-- So was that of a module that a publication takes over. -/
  reused : ∀ world owner p t, Yields (e.publish world owner) s.studio p t → ∀ key ∈ p.reuse,
    ∃ m, s.studio.db.StoredModule world key m ∧
      ∃ c ∈ s.calls, ∃ prompted answered, MadeBy e c prompted answered m
  /-- It is up to date exactly where nothing came between the call's prompt and its answer. -/
  upToDate_iff : ∀ m, s.UpToDate e m ↔ s.Undisturbed e m

theorem System.made_run (e : Engine) (events : List Event) :
    ∀ r ∈ (System.run e events).studio.db.modules,
      r.status = .text ModuleStatus.completed.text → (System.run e events).Made e r := by
  have hrun : (System.run e events).Sound ∧ (∀ c ∈ (System.run e events).calls, c.Asked e) ∧
      ∀ r ∈ (System.run e events).studio.db.modules,
        r.status = .text ModuleStatus.completed.text → (System.run e events).Made e r := by
    refine run_induction (P := fun s => s.Sound ∧ (∀ c ∈ s.calls, c.Asked e) ∧
      ∀ r ∈ s.studio.db.modules, r.status = .text ModuleStatus.completed.text → s.Made e r)
      ⟨Sound.initial, ?_, ?_⟩ (fun s ev ⟨hs, hasked, hmade⟩ => ?_) events
    · intro c hc
      cases hc
    · intro r hr
      cases hr
    · exact ⟨hs.step e ev, asked_step hasked ev, made_step hs hasked hmade ev⟩
  exact hrun.2.2

/-- In every system that is reached, the content of a reusable module was made by a call, from the
fields that the module has or else from those that it had before an edit during the call. -/
theorem System.provenance_run (e : Engine) (events : List Event) :
    (System.run e events).Provenance e := by
  have hmade : ∀ r ∈ (System.run e events).studio.db.modules, ∀ m, r.decode = .ok m →
      m.isReusable = true → ∃ c ∈ (System.run e events).calls, ∃ prompted answered,
        MadeBy e c prompted answered m := by
    intro r hr m hdecode hreuse
    have hholds := ModuleRow.holds_of_decode hdecode
    have hcompleted : r.status = .text ModuleStatus.completed.text := by
      rw [hholds.status, status_of_isReusable hreuse]
    obtain ⟨c, hc, _, prompted, answered, n, hn, _, hmade⟩ := made_run e events r hr hcompleted
    exact ⟨c, hc, prompted, answered, hmade.of_holds hn hholds⟩
  refine ⟨hmade, fun world owner p t hpublish key hkey => ?_, fun m => ?_⟩
  · obtain ⟨w, ms, now, ws, _, _, hms, _, hreuse, _, _⟩ := (published_of_publish hpublish).found
    rw [hreuse] at hkey
    obtain ⟨m, hm, rfl⟩ := List.mem_map.1 hkey
    obtain ⟨hm, hreusable⟩ := List.mem_filter.1 hm
    obtain ⟨d, _, hcurrent⟩ := CurrentModules.exists_definition hms hm
    have hstored := hcurrent.stored_of_isReusable hreusable
    rw [← hcurrent.key_eq] at hstored
    obtain ⟨row, hfind, hdecode⟩ := id hstored
    exact ⟨m, hstored, hmade row (List.mem_of_find?_eq_some hfind) m hdecode hreusable⟩
  · constructor
    · rintro ⟨c, hc, prompted, answered, hmade, hfields⟩
      exact ⟨c, hc, prompted, answered, hmade, hfields.trans hmade.fields⟩
    · rintro ⟨c, hc, prompted, answered, hmade, hfields⟩
      exact ⟨c, hc, prompted, answered, hmade, hfields.trans hmade.fields.symm⟩

/-- A run in which the field of the module is filled in while the generator is asked. -/
def editingEvents : List Event :=
  [.createFirst, .publishFirst, .lease, .ask 0,
    .command (.saveModuleFields (.mint 0) "m" ⟨"owner"⟩ [("f", "new")]), .settle 0 (.ok "prose")]

/-- The module is reusable then, but its content was made from a blank field. -/
theorem System.not_upToDate_editing :
    ∃ r ∈ (System.run .minimal editingEvents).studio.db.modules, ∃ m, r.decode = .ok m ∧
      m.isReusable = true ∧ ¬ (System.run .minimal editingEvents).UpToDate .minimal m := by
  have hrows : (System.run .minimal editingEvents).studio.db.modules.map
      (fun r => (r.status, r.fields, r.decode.isOk)) =
        [(.text "COMPLETED", .text "\x7b\"f\":\"new\"\x7d", true)] := by decide +kernel
  have hprompts : ∀ c ∈ (System.run .minimal editingEvents).calls, ∀ s ∈ c.promptedOn,
      ∀ r ∈ s.db.modules, r.fields = .text "\x7b\x7d" := by decide +kernel
  -- What the field is in the one text and in the other.
  have hblank : ((Json.parseRecord? "\x7b\x7d").bind (Json.decodeMap Json.decodeText)).map
      (·.find? "f") = some none := by decide +kernel
  have hfilled : ((Json.parseRecord? "\x7b\"f\":\"new\"\x7d").bind
      (Json.decodeMap Json.decodeText)).map (·.find? "f") = some (some "new") := by decide +kernel
  obtain ⟨r, hr, hcells⟩ := List.map_eq_singleton_iff.1 hrows
  rw [Prod.mk.injEq, Prod.mk.injEq] at hcells
  obtain ⟨hstatus, hfields, hok⟩ := hcells
  have hmem : r ∈ (System.run .minimal editingEvents).studio.db.modules := by
    rw [hr]
    exact List.mem_singleton.2 rfl
  cases hdecode : r.decode with
  | error err =>
    rw [hdecode] at hok
    cases hok
  | ok m =>
    have hholds := ModuleRow.holds_of_decode hdecode
    obtain ⟨_, _, _, _, _, n, hn, hreusable, _⟩ := made_run .minimal editingEvents r hmem hstatus
    refine ⟨r, hmem, m, hdecode, isReusable_of_holds hn hholds hreusable, ?_⟩
    rintro ⟨c, hc, prompted, answered, hmade, heq⟩
    obtain ⟨s, t, request, hs, _, hfrom⟩ := hmade.asked
    obtain ⟨q, hq, _, hqdecode⟩ := hfrom.stored
    have hread := (ModuleRow.holds_of_decode hqdecode).fields_of_text (hprompts c hc s hs q hq)
    rw [hread, heq] at hblank
    rw [hholds.fields_of_text hfields, hblank] at hfilled
    cases hfilled

end Lorebook
