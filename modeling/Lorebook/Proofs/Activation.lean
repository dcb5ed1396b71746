import Lorebook.Proofs.ExactPublication
import Lorebook.Proofs.FieldHistory
import Lorebook.Proofs.LifeCycle
import Lorebook.Proofs.WorldRows
import Mathlib.Data.List.Induction

set_option autoImplicit false

/-! # What is known of a world that is activated

A world is validated when it is published, in the transaction that activates it or queues its
modules; the call that activates it later does not look at its fields again. So a publication
leaves the world complete, and a world that a call activates is complete as long as none of its
fields was written since it was published (`System.activation_run`); fields that were written in
between may leave it incomplete (`System.not_complete_activated`). -/

namespace Lorebook

open Studio Operation Engine

/-! ## Complete worlds -/

/-- The stored value of a field is that among the stored values of its module. -/
theorem Engine.CurrentModule.fieldValue?_eq_find? {db : Database} {world : WorldId}
    {d : ModuleDefinition} {m : WorldModule} (h : CurrentModule db world d m) (field : String) :
    db.fieldValue? world d.key field = (db.fieldMap world d.key).find? field := by
  rw [h.fieldValue?_eq, WorldModule.field?, h.fields_eq]

/-- No stored value of a required field of the world stands in the way of publication. -/
def Engine.Complete (e : Engine) (db : Database) (world : WorldId) : Prop :=
  ∀ d ∈ e.registry.modules, ∀ f ∈ d.requiredFields,
    f.violation? ((db.fieldMap world d.key).find? f.key) = none

/-- What is written passes for the required fields of its module. -/
def Engine.Accepts (e : Engine) (w : FieldWrite) : Prop :=
  ∀ d ∈ e.registry.modules, d.key = w.key → ∀ f ∈ d.requiredFields, ∀ v ∈ w.values,
    v.1 = f.key → f.violation? (some v.2) = none

namespace Engine.Complete

variable {e : Engine} {db db' : Database} {world : WorldId}

instance (e : Engine) (db : Database) (world : WorldId) : Decidable (e.Complete db world) :=
  inferInstanceAs (Decidable (∀ d ∈ e.registry.modules, ∀ f ∈ d.requiredFields,
    f.violation? ((db.fieldMap world d.key).find? f.key) = none))

/-- Whether a world is complete depends on its field values only. -/
theorem of_fieldMap_eq (h : e.Complete db world)
    (hfields : ∀ key, db'.fieldMap world key = db.fieldMap world key) : e.Complete db' world := by
  intro d hd f hf
  rw [hfields]
  exact h d hd f hf

/-- A world that is published is complete. -/
theorem of_publish {owner : OwnerId} {s : Studio} (h : Succeeds (e.publish world owner) s) :
    e.Complete s.db world := by
  obtain ⟨p, s', hpublish⟩ := h
  obtain ⟨_, _, _, _, _, _, hcurrent, _⟩ := (published_of_publish hpublish).found
  intro d hd f hf
  obtain ⟨m, _, hm⟩ := hcurrent.exists_module hd
  rw [← hm.fieldValue?_eq_find?]
  exact (canPublish_of_publish hpublish).valid d hd f hf

end Engine.Complete

namespace System

variable {s : System} {world : WorldId}

/-- Publishing a world leaves it complete. -/
theorem complete_publish (h : s.Sound) (hfields : s.studio.db.FieldsWritten) {e : Engine}
    {owner : OwnerId} (hpublish : Succeeds (e.publish world owner) s.studio) :
    e.Complete (s.step e (.command (.publish world owner))).studio.db world :=
  (Engine.Complete.of_publish hpublish).of_fieldMap_eq fun _ =>
    fieldMap_eq_of_others h hfields e rfl (by simp)

/-- A complete world stays so as long as what is written into its fields passes. -/
theorem complete_foldl (h : s.Sound) (hfields : s.studio.db.FieldsWritten) {e : Engine}
    (hcomplete : e.Complete s.studio.db world) {later : List Event}
    (hkept : .command (.hardDelete world) ∉ later)
    (hlog : ∀ w ∈ s.fieldLog e later, w.world = world → e.Accepts w) :
    e.Complete (later.foldl (step e) s).studio.db world := by
  intro d hd f hf
  rw [fieldMap_foldl h hfields e hkept]
  rcases Dictionary.find?_insertAll_cases (s.studio.db.fieldMap world d.key)
    (FieldWrite.valuesOf world d.key (s.fieldLog e later)) f.key with hsame | ⟨v, hv, hset⟩
  · rw [hsame]
    exact hcomplete d hd f hf
  · rw [hset]
    obtain ⟨w, hw, hvalue⟩ := List.mem_flatMap.1 hv
    obtain ⟨hmem, hof⟩ := List.mem_filter.1 hw
    obtain ⟨hworld, hkey⟩ := of_decide_eq_true hof
    exact hlog w hmem hworld d hd hkey.symm f hf (f.key, v) hvalue rfl

/-! ## Activations -/

/-- The event activates a world: the world is active after it, in another version than before. -/
def Activates (e : Engine) (s : System) (ev : Event) (world : WorldId) : Prop :=
  ∃ r ∈ s.studio.db.worlds, ∃ r' ∈ (s.step e ev).studio.db.worlds,
    r.id = .text world.text ∧ r'.id = .text world.text ∧
      r'.status = .text WorldStatus.active.text ∧ r'.version ≠ r.version

instance (e : Engine) (s : System) (ev : Event) (world : WorldId) :
    Decidable (s.Activates e ev world) :=
  inferInstanceAs (Decidable (∃ r ∈ s.studio.db.worlds, ∃ r' ∈ (s.step e ev).studio.db.worlds,
    r.id = .text world.text ∧ r'.id = .text world.text ∧
      r'.status = .text WorldStatus.active.text ∧ r'.version ≠ r.version))

/-- What activates a world is a publication of it, or a call that settles a job of it. -/
theorem Activates.mayActivate {e : Engine} {ev : Event} (hactivates : s.Activates e ev world)
    (h : s.Sound) (hnamed : s.WorldsNamed) :
    ∃ r ∈ s.studio.db.worlds, r.id = .text world.text ∧ ev.MayActivate e s r := by
  obtain ⟨r, hr, r', hr', hid, hid', -, hversion⟩ := hactivates
  cases world_step h e ev r' hr' with
  | @kept q hq hsame hmay =>
    obtain rfl : q = r :=
      List.inj_on_of_nodup_map h.db.worldIds hq hr (hsame.symm.trans (hid'.trans hid.symm))
    exact ⟨q, hr, hid, hmay.resolve_left hversion⟩
  | created hnew _ hname =>
    obtain ⟨n, hlt, hgiven⟩ := hnamed r hr
    have heq := mintedName_inj
      (Cell.text.inj (hgiven.symm.trans (hid.trans (hid'.symm.trans hname))))
    omega

/-! ## Where the jobs come from -/

/-- The event is a transaction that replaces the queue of a world, and is committed. -/
inductive Queues (e : Engine) (s : System) (world : WorldId) : Event → Prop where
  | publish {owner : OwnerId} (h : Succeeds (e.publish world owner) s.studio) :
      Queues e s world (.command (.publish world owner))
  | initializeJobs {keys : List String} (h : Succeeds (e.initializeJobs world keys) s.studio) :
      Queues e s world (.command (.initializeJobs world keys))

/-- In a run, a job was put in the queue of a world by an event that came after others. -/
structure QueuedBy (e : Engine) (before : List Event) (ev : Event) (world : WorldId)
    (id : Cell) : Prop where
  queues : (run e before).Queues e world ev
  absent : ∀ r ∈ (run e before).studio.db.jobs, r.id ≠ id
  added : ∃ r ∈ ((run e before).step e ev).studio.db.jobs, r.id = id ∧ r.world = .text world.text

/-- A job that an event queues is new, and the event is committed. -/
theorem queues_of_queued (h : s.Sound) {e : Engine} {ev : Event} {r : JobRow}
    (hr : r ∈ (s.step e ev).studio.db.jobs) (hqueued : r.Queued s ev) :
    ∃ world, r.world = .text world.text ∧ s.Queues e world ev := by
  obtain ⟨world, hrebuilds, hworld⟩ := hqueued.rebuilt
  refine ⟨world, hworld, ?_⟩
  -- What is not committed queues nothing.
  have hcommitted (hsame : SameDb s.studio (s.step e ev).studio) : False := by
    rw [hsame.1] at hr
    exact hqueued.id_ne (h.named r hr) rfl
  cases ev with
  | command c =>
    cases c with
    | publish id owner =>
      obtain rfl := Option.some.inj hrebuilds
      rcases s.command_cases e (c := .publish id owner) rfl with ⟨p, hpublish⟩ | hsame
      · exact .publish ⟨p, _, hpublish⟩
      · exact (hcommitted hsame).elim
    | initializeJobs id keys =>
      obtain rfl := Option.some.inj hrebuilds
      rcases s.command_cases e (c := .initializeJobs id keys) rfl with ⟨js, hqueue⟩ | hsame
      · exact .initializeJobs ⟨js, _, hqueue⟩
      · exact (hcommitted hsame).elim
    | _ => cases hrebuilds
  | _ => cases hrebuilds

/-- Every job of a run was queued by one of its events. -/
theorem exists_queuedBy (e : Engine) (events : List Event) :
    ∀ r ∈ (run e events).studio.db.jobs, ∃ before ev after world,
      events = before ++ ev :: after ∧ r.world = .text world.text ∧
        QueuedBy e before ev world r.id := by
  induction events using List.reverseRecOn with
  | nil => intro r hr; cases hr
  | append_singleton events ev ih =>
    intro r hr
    rw [run_append] at hr
    have hsound := Sound.run e events
    rcases hsound.row_step (staged e events) e ev r hr with
      ⟨q, hq, hsame, _⟩ | hqueued
    · obtain ⟨before, v, after, world, rfl, hworld, hby⟩ := ih q hq
      exact ⟨before, v, after ++ [ev], world, by simp, hsame.world.trans hworld, hsame.id ▸ hby⟩
    · obtain ⟨world, hworld, hqueues⟩ := queues_of_queued hsound hr hqueued
      exact ⟨events, ev, [], world, rfl, hworld, hqueues,
        fun q hq heq => hqueued.id_ne (hsound.named q hq) heq.symm, r, hr, rfl, hworld⟩

/-- The job that a call settles was queued by an event of the run. -/
theorem queuedBy_of_settle {e : Engine} {events : List Event} {i : Nat} {reply : GenerationReply}
    {r : WorldRow} (hof : r.id = .text world.text)
    (hmay : Event.MayActivate e (run e events) r (.settle i reply)) :
    ∃ c, (run e events).calls[i]? = some c ∧ c.job.world = world ∧
      ∃ before ev after, events = before ++ ev :: after ∧
        QueuedBy e before ev world (.text c.job.id.text) := by
  cases hmay with
  | @settle _ _ c q hworld hc hq hid =>
    have hsame : c.job.world = world :=
      WorldId.eq_of_text (Cell.text.inj (hworld.symm.trans hof))
    obtain ⟨before, ev, after, id, hevents, hqueue, hby⟩ := exists_queuedBy e events q hq
    have htracked := ((Sound.run e events).tracked c.job (job_mem_leases hc) q hq hid).1
    obtain rfl : id = world :=
      (WorldId.eq_of_text (Cell.text.inj (hqueue.symm.trans htracked))).trans hsame
    exact ⟨c, hc, hsame, before, ev, after, hevents, hid ▸ hby⟩

/-- A world that is activated by a call is complete if it was published before and what was written
into its fields since then passes. -/
theorem complete_settle {e : Engine} {before after : List Event} {owner : OwnerId} {i : Nat}
    {reply : GenerationReply} (hpublish : Succeeds (e.publish world owner) (run e before).studio)
    (hlog : ∀ w ∈ ((run e before).step e (.command (.publish world owner))).fieldLog e after,
      w.world = world → e.Accepts w)
    (hactivates : (run e (before ++ .command (.publish world owner) :: after)).Activates e
      (.settle i reply) world) :
    e.Complete ((run e (before ++ .command (.publish world owner) :: after)).step e
      (.settle i reply)).studio.db world := by
  have hrun : run e (before ++ .command (.publish world owner) :: after) =
      after.foldl (step e) ((run e before).step e (.command (.publish world owner))) := by
    rw [run, List.foldl_append, List.foldl_cons]
    rfl
  have hsound := (Sound.run e before).step e (.command (.publish world owner))
  have hfields := fieldsWritten_step (fieldsWritten e before) e (.command (.publish world owner))
  by_cases hremove : .command (.hardDelete world) ∈ after
  · -- A world that was removed since then is not there to be activated.
    obtain ⟨p, _, hfound⟩ := hpublish
    obtain ⟨w, _, _, _, ⟨row, hfind, _⟩, _⟩ := (published_of_publish hfound).found
    have hnamed : (run e before).Named world := (worldsNamed e before).named
      (List.mem_of_find?_eq_some hfind) (Worlds.isLive_iff.1 (List.find?_some hfind)).1
    have hgone := (hnamed.step e (.command (.publish world owner))).gone_foldl hsound e hremove
    obtain ⟨r, hr, _, _, hid, _⟩ := hactivates
    rw [hrun] at hr
    exact absurd hid (hgone.absent r hr)
  · have hcomplete := complete_foldl hsound hfields
      (complete_publish (Sound.run e before) (fieldsWritten e before) hpublish) hremove hlog
    rw [← hrun] at hcomplete
    exact hcomplete.of_fieldMap_eq fun _ =>
      fieldMap_eq_of_others (Sound.run e _) (fieldsWritten e _) e rfl (by simp)

/-! ## What an activation means -/

/-- What is known of the worlds that are published and activated in a run. -/
structure Activation (e : Engine) (events : List Event) : Prop where
  /-- A publication leaves its world complete, whether it activates it or queues its modules. -/
  published : ∀ world owner, Succeeds (e.publish world owner) (run e events).studio →
    e.Complete ((run e events).step e (.command (.publish world owner))).studio.db world
  /-- What activates a world is a publication of it, or a call that settles a job of it that was
  queued before. -/
  activated : ∀ ev world, (run e events).Activates e ev world →
    (∃ owner, ev = .command (.publish world owner) ∧
      Succeeds (e.publish world owner) (run e events).studio) ∨
    ∃ i reply c, ev = .settle i reply ∧ (run e events).calls[i]? = some c ∧ c.job.world = world ∧
      ∃ before v after, events = before ++ v :: after ∧
        QueuedBy e before v world (.text c.job.id.text)
  /-- A world that a call activates is complete if it was published before and what was written
  into its fields since then passes. -/
  settled : ∀ i reply world, (run e events).Activates e (.settle i reply) world →
    ∀ before owner after, events = before ++ .command (.publish world owner) :: after →
    Succeeds (e.publish world owner) (run e before).studio →
    (∀ w ∈ ((run e before).step e (.command (.publish world owner))).fieldLog e after,
      w.world = world → e.Accepts w) →
    e.Complete ((run e events).step e (.settle i reply)).studio.db world

/-- Whatever happens in whatever order, this is known of the worlds that are activated. -/
theorem activation_run (e : Engine) (events : List Event) : Activation e events where
  published _ _ hpublish := complete_publish (Sound.run e events) (fieldsWritten e events) hpublish
  activated ev world hactivates := by
    obtain ⟨r, _, hid, hmay⟩ :=
      hactivates.mayActivate (Sound.run e events) (worldsNamed e events)
    cases ev with
    | command c =>
      cases c with
      | publish id owner =>
        cases hmay with
        | publish hof hpublish =>
          obtain rfl : id = world := WorldId.eq_of_text (Cell.text.inj (hof.symm.trans hid))
          exact Or.inl ⟨owner, rfl, hpublish⟩
      | _ => cases hmay
    | settle i reply =>
      obtain ⟨c, hc, hworld, hqueued⟩ := queuedBy_of_settle hid hmay
      exact Or.inr ⟨i, reply, c, rfl, hc, hworld, hqueued⟩
    | _ => cases hmay
  settled i reply world hactivates before owner after hevents hpublish hlog := by
    subst hevents
    exact complete_settle hpublish hlog hactivates

end System

/-! ## A world that is activated incomplete -/

/-- The minimal engine, but its field is required. -/
def Engine.strict : Engine :=
  { Engine.minimal with
    registry := {
      modules := [{
        key := "m", label := "M", order := 1
        fields := [{ key := "f", label := "F", required := true }] }]
      ne_nil := by simp
      sound := by decide } }

/-- The owner writes the field of the world of the first name. -/
def Event.writeFirst (value : String) : Event :=
  .command (.saveModuleFields (.mint 0) "m" ⟨"owner"⟩ [("f", value)])

/-- A run in which a required field is blanked after its world was published. -/
def System.blankingEvents : List Event :=
  [.createFirst, .writeFirst "x", .publishFirst, .writeFirst "", .lease, .ask 0]

/-- The call activates the world nevertheless, with the field blank. -/
theorem System.not_complete_activated :
    (run .strict blankingEvents).Activates .strict (.settle 0 (.ok "prose")) (.mint 0) ∧
      ¬ Engine.strict.Complete ((run .strict blankingEvents).step .strict
        (.settle 0 (.ok "prose"))).studio.db (.mint 0) :=
  ⟨by decide +kernel, by decide +kernel⟩

end Lorebook
