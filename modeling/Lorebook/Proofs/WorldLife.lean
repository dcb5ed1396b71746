import Lorebook.Proofs.Activation
import Lorebook.Proofs.ExactPublication
import Lorebook.Proofs.StoredText
import Lorebook.Proofs.WorldRows

set_option autoImplicit false

/-! # The life of a world

A world is written back by publications, by completions and by retries, each of which reads it in
the transaction that writes it. `System.Turn` says what an event does to the table of worlds, and
with it whether the event committed an activation or a publication; `WorldRow.Turns` says it of one
row. So the version of a world counts the activations that were committed, a draft is a world that
was never published or activated, and what its owner gave it at first stays (`Engine.worldLife`). -/

namespace Lorebook

open Studio Operation Engine

/-! ## Activations and publications -/

namespace System

/-- The world that an event activates, if it commits an activation: a publication that takes over
every module, or a completion that leaves no job of the world outstanding. -/
def activation? (e : Engine) (s : System) : Event → Option WorldId
  | .command (.publish world owner) =>
    match e.publish world owner s.studio with
    | (.ok p, _) => if p.activated then some world else none
    | (.error _, _) => none
  | .settle i reply =>
    match s.calls[i]? with
    | some c =>
      match c.stage, contentOf reply with
      | .asked _, .ok content =>
        match complete c.job content s.studio with
        | (.ok activated, _) => if activated then some c.job.world else none
        | (.error _, _) => none
      | _, _ => none
    | none => none
  | _ => none

/-- The world that an event publishes, if the publication is accepted. -/
def publication? (e : Engine) (s : System) : Event → Option WorldId
  | .command (.publish world owner) =>
    match e.publish world owner s.studio with
    | (.ok _, _) => some world
    | (.error _, _) => none
  | _ => none

/-- What is noted of the events of a list, in their order. -/
def notes {α : Type} (note? : System → Event → Option α) (e : Engine) :
    System → List Event → List α
  | _, [] => []
  | s, ev :: rest => (note? s ev).toList ++ (s.step e ev).notes note? e rest

theorem notes_append {α : Type} (note? : System → Event → Option α) (e : Engine) (s : System)
    (events rest : List Event) : s.notes note? e (events ++ rest) =
      s.notes note? e events ++ (events.foldl (step e) s).notes note? e rest := by
  induction events generalizing s with
  | nil => rfl
  | cons ev events ih =>
    rw [List.cons_append, notes, notes, ih, List.append_assoc]
    rfl

/-- How often a world is activated in a run. -/
def activations (e : Engine) (events : List Event) (world : WorldId) : Nat :=
  (initial.notes (activation? e) e events).count world

/-- How often a publication of a world is accepted in a run. -/
def publications (e : Engine) (events : List Event) (world : WorldId) : Nat :=
  (initial.notes (publication? e) e events).count world

variable {e : Engine} {events : List Event} {ev : Event} {world : WorldId}

theorem activations_append (rest : List Event) : activations e (events ++ rest) world =
    activations e events world + ((run e events).notes (activation? e) e rest).count world := by
  rw [activations, notes_append, List.count_append]
  rfl

theorem publications_append (rest : List Event) : publications e (events ++ rest) world =
    publications e events world + ((run e events).notes (publication? e) e rest).count world := by
  rw [publications, notes_append, List.count_append]
  rfl

/-! ## What events do to the table of worlds -/

/-- What an event does to the table of worlds, and which world it activates or publishes. -/
inductive Turn (s : System) : Event → List WorldRow → Option WorldId → Option WorldId → Prop where
  | kept (ev : Event) : Turn s ev s.studio.db.worlds none none
  | created {owner : OwnerId} {name : String} {tagline : Option String} {themes : List String}
      {w : World} {t : Studio}
      (hcreate : Yields (createWorld owner name tagline themes) s.studio w t) :
      Turn s (.command (.createWorld owner name tagline themes))
        (s.studio.db.worlds ++ [WorldRow.ofWorld w]) none none
  | activated (ev : Event) {id : WorldId} {w : World} (hlive : s.studio.db.LiveWorld id w)
      (now : Instant) {published : Option WorldId} (hpublished : ∀ i ∈ published, i = id) :
      Turn s ev ((Write.changeWorld (w.activate now)).onWorlds s.studio.db.worlds) (some id)
        published
  | began (ev : Event) {id : WorldId} {w : World} (hlive : s.studio.db.LiveWorld id w)
      (now : Instant) {published : Option WorldId} (hpublished : ∀ i ∈ published, i = id) :
      Turn s ev ((Write.changeWorld (w.beginGeneration now)).onWorlds s.studio.db.worlds) none
        published
  | hidden (id : WorldId) (now : Instant) : Turn s (.command (.softDelete id))
      ((Write.hideWorld id now).onWorlds s.studio.db.worlds) none none
  | removed (id : WorldId) : Turn s (.command (.hardDelete id))
      ((Write.removeWorld id).onWorlds s.studio.db.worlds) none none

/-- What an event does to the table of worlds. -/
abbrev TurnOf (e : Engine) (s : System) (ev : Event) : Prop :=
  s.Turn ev (s.step e ev).studio.db.worlds (s.activation? e ev) (s.publication? e ev)

theorem Turn.of_rows {s : System} {rows : List WorldRow} (ev : Event)
    (h : rows = s.studio.db.worlds) : s.Turn ev rows none none := by
  rw [h]
  exact .kept ev

/-- Publishing writes its world back, as active if every module is taken over, or leaves the
database. -/
theorem turn_publish (e : Engine) (s : System) (world : WorldId) (owner : OwnerId) :
    TurnOf e s (.command (.publish world owner)) := by
  rw [TurnOf, studio_step_command rfl]
  rcases hrun : e.publish world owner s.studio with ⟨cause | p, t⟩
  · have hdb : t.db = s.studio.db := (failsClean_publish e world owner hrun).1
    simp only [activation?, publication?, hrun]
    exact .of_rows _ (by rw [hdb])
  · have hpublished := published_of_publish hrun
    by_cases hnone : p.generate = []
    · obtain ⟨_, w, now, hlive, hdb⟩ := hpublished.activated hnone
      have hactivated : p.activated = true := List.isEmpty_iff.2 hnone
      simp only [activation?, publication?, hrun, hactivated, if_true, hdb]
      exact .activated _ hlive now fun i hi => (Option.some.inj hi).symm
    · obtain ⟨_, _, _, _, w, now, hlive, hworlds⟩ := hpublished.queued hnone
      have hactivated : ¬ p.activated = true := fun h => hnone (List.isEmpty_iff.1 h)
      simp only [activation?, publication?, hrun, if_neg hactivated, hworlds]
      exact .began _ hlive now fun i hi => (Option.some.inj hi).symm

/-- Creating a world adds its row, or leaves the database. -/
theorem turn_createWorld (e : Engine) (s : System) (owner : OwnerId) (name : String)
    (tagline : Option String) (themes : List String) :
    TurnOf e s (.command (.createWorld owner name tagline themes)) := by
  rcases s.command_cases e (c := .createWorld owner name tagline themes) rfl with
    ⟨w, hcreate⟩ | hsame
  · have hjournal := (commit_createWorld hcreate).2.journal
    have hworlds := congrArg Database.worlds (Journal.nil_iff.1 (Journal.cons_iff.1 hjournal).2)
    rw [TurnOf, hworlds]
    exact .created hcreate
  · exact .of_rows _ (by rw [hsame.1])

/-- A command writes back or adds at most one world, or it hides or removes one. -/
theorem turn_command (e : Engine) (s : System) (c : Command) : TurnOf e s (.command c) := by
  obtain ⟨ws, heffect, hcommit⟩ := command_effect e s c
  have hkept (hws : ∀ w ∈ ws, ∀ rows, w.onWorlds rows = rows) :
      s.Turn (.command c) (s.step e (.command c)).studio.db.worlds none none :=
    .of_rows _ (hcommit.journal.worlds_eq hws)
  cases c with
  | publish world owner => exact turn_publish e s world owner
  | createWorld owner name tagline themes => exact turn_createWorld e s owner name tagline themes
  | saveModuleFields world module owner fields =>
    refine hkept ?_
    cases heffect <;> simp [Write.onWorlds]
  | initializeJobs world keys =>
    refine hkept ?_
    cases heffect <;> simp +contextual [Write.onWorlds, or_imp]
  | retryModule world module owner =>
    cases heffect with
    | nothing => exact hkept (by simp)
    | @retry _ _ _ w _ _ now _ hlive _ _ _ _ _ =>
      by_cases hstatus : w.status = .generating
      · rw [if_pos hstatus, List.append_nil] at hcommit
        exact .of_rows _ (hcommit.journal.worlds_eq (by simp [Write.onWorlds]))
      · rw [if_neg hstatus] at hcommit
        have hdb := Journal.nil_iff.1 (Journal.cons_iff.1
          (Journal.cons_iff.1 (Journal.cons_iff.1 hcommit.journal).2).2).2
        rw [TurnOf, show (s.step e (.command (.retryModule world module owner))).studio.db.worlds =
          (Write.changeWorld (w.beginGeneration now)).onWorlds s.studio.db.worlds from
            congrArg Database.worlds hdb]
        exact .began _ hlive now fun i hi => by cases hi
  | recoverStaleLeases timeout =>
    refine hkept ?_
    cases heffect with
    | nothing => simp
    | sweep hws =>
      intro w hw
      cases hws w hw <;> exact fun _ => rfl
  | softDelete world =>
    cases heffect with
    | nothing => exact hkept (by simp)
    | hide =>
      have hdb := Journal.nil_iff.1 (Journal.cons_iff.1 hcommit.journal).2
      rw [TurnOf, show (s.step e (.command (.softDelete world))).studio.db.worlds = _ from
        congrArg Database.worlds hdb]
      exact .hidden world _
  | hardDelete world =>
    cases heffect with
    | nothing => exact hkept (by simp)
    | remove =>
      have hdb := Journal.nil_iff.1 (Journal.cons_iff.1 hcommit.journal).2
      rw [TurnOf, show (s.step e (.command (.hardDelete world))).studio.db.worlds = _ from
        congrArg Database.worlds hdb]
      exact .removed world
  | generationStatus world owner =>
    refine hkept ?_
    cases heffect
    simp
  | refineField world module field owner text instruction reply =>
    refine hkept ?_
    cases heffect
    simp

/-- Completing a job leaves the worlds, or activates that of the job. -/
theorem turn_complete {s : System} (ev : Event) {job : Job} {content : String} {activated : Bool}
    {t : Studio} (h : Yields (complete job content) s.studio activated t) :
    s.Turn ev t.db.worlds (if activated then some job.world else none) none := by
  obtain ⟨w, m, now, hlive, _, _, hcommit⟩ := commit_complete h
  cases activated with
  | false => exact .of_rows _ (hcommit.journal.worlds_eq (by simp [Write.onWorlds]))
  | true =>
    have hdb := Journal.nil_iff.1 (Journal.cons_iff.1
      (Journal.cons_iff.1 (Journal.cons_iff.1 hcommit.journal).2).2).2
    rw [show t.db.worlds = (Write.changeWorld (w.activate now)).onWorlds s.studio.db.worlds from
      congrArg Database.worlds hdb]
    exact .activated _ hlive now fun i hi => by cases hi

theorem onWorlds_of_marks {db : Database} {job : Job} {status : ModuleStatus} {now : Instant}
    {ws : List Write} (hmarks : Marks db job status now ws) :
    ∀ w ∈ ws, ∀ rows, w.onWorlds rows = rows := by
  intro w hw rows
  obtain ⟨m, rfl, _⟩ := hmarks.eq_saveModule hw
  rfl

/-- Recording a failure leaves the worlds. -/
theorem worlds_recordFailure (c : QueueCall) (cause : EngineError) (s : Studio) :
    (c.record (.error cause) s).2.db.worlds = s.db.worlds := by
  rcases (c.commit_recordFailure cause s).2 with hsame | ⟨message, now, ws, hmarks, hcommit⟩
  · rw [hsame.1]
  · exact hcommit.journal.worlds_eq
      (List.forall_mem_cons.2 ⟨fun _ => rfl, onWorlds_of_marks hmarks⟩)

/-- Settling a job may activate its world, and else leaves the worlds. -/
theorem turn_settle (e : Engine) (s : System) (i : Nat) (reply : GenerationReply) :
    TurnOf e s (.settle i reply) := by
  show s.Turn _ (s.onCall (·.settle reply) i).studio.db.worlds _ none
  rcases hc : s.calls[i]? with _ | c
  · simp only [onCall_of_none hc, activation?, hc]
    exact .kept _
  rw [onCall_of_some hc]
  rcases hstage : c.stage with _ | request | cause | cause | outcome
  · simp only [QueueCall.settle, activation?, hc, hstage]
    exact .kept _
  · rcases hcontent : contentOf reply with cause | content
    · simp only [QueueCall.settle, activation?, hc, hstage, hcontent]
      exact .of_rows _ (worlds_recordFailure _ cause s.studio)
    · simp only [QueueCall.settle, activation?, hc, hstage, hcontent, QueueCall.record,
        Engine.record, recordSuccess_run]
      rcases hrun : complete c.job content s.studio with ⟨cause | activated, t⟩
      · exact .of_rows _ (by rw [(failsClean_complete _ _ hrun).1])
      · have hturn := turn_complete (.settle i reply) hrun
        exact hturn
  · simp only [QueueCall.settle, activation?, hc, hstage]
    exact .of_rows _ (worlds_recordFailure _ cause s.studio)
  · simp only [QueueCall.settle, activation?, hc, hstage]
    exact .kept _
  · simp only [QueueCall.settle, activation?, hc, hstage]
    exact .kept _

theorem turn_step (e : Engine) (s : System) (ev : Event) : TurnOf e s ev := by
  obtain ⟨opened, ws, heffect, hcommit, _⟩ := s.step_effect e ev
  have hkept (hws : ∀ w ∈ ws, ∀ rows, w.onWorlds rows = rows) :
      s.Turn ev (s.step e ev).studio.db.worlds none none :=
    .of_rows _ (hcommit.journal.worlds_eq hws)
  cases ev with
  | command c => exact turn_command e s c
  | settle i reply => exact turn_settle e s i reply
  | setClock time =>
    cases heffect
    exact hkept (by simp)
  | lease =>
    cases heffect with
    | nothing => exact hkept (by simp)
    | lease _ hmarks =>
      exact hkept (List.forall_mem_cons.2 ⟨fun _ => rfl, onWorlds_of_marks hmarks⟩)
  | ask i =>
    cases heffect
    exact hkept (by simp)
  | release i =>
    cases heffect with
    | nothing => exact hkept (by simp)
    | release _ hmarks =>
      exact hkept (List.forall_mem_cons.2 ⟨fun _ => rfl, onWorlds_of_marks hmarks⟩)
  | openDraft world module owner =>
    cases heffect
    exact hkept (by simp)
  | askDraft i =>
    cases heffect
    exact hkept (by simp)
  | mergeDraft i reply =>
    cases heffect with
    | nothing => exact hkept (by simp)
    | merge _ => exact hkept (List.forall_mem_singleton.2 fun _ => rfl)

end System

/-! ## What events make of a row -/

/-- What an event makes of the row of a world, and whether it activates or publishes the world. -/
inductive WorldRow.Turns (r : WorldRow) : WorldRow → Bool → Bool → Prop where
  | kept : Turns r r false false
  | hidden (time : Cell) : Turns r { r with deletedAt := time, updatedAt := time } false false
  | activated {w : World} (hr : r.decode = .ok w) (now : Instant) (published : Bool) :
      Turns r (Worlds.overwritten (w.activate now) r) true published
  | began {w : World} (hr : r.decode = .ok w) (now : Instant) (published : Bool) :
      Turns r (Worlds.overwritten (w.beginGeneration now) r) false published

/-- A live world is read from a row of its name that is not hidden. -/
theorem Database.LiveWorld.exists_row {db : Database} {id : WorldId} {w : World}
    (h : db.LiveWorld id w) :
    ∃ r ∈ db.worlds, Worlds.isLive id r = true ∧ r.id = .text id.text ∧ r.decode = .ok w := by
  obtain ⟨r, hfind, hdecode⟩ := h
  have hlive := List.find?_some hfind
  exact ⟨r, List.mem_of_find?_eq_some hfind, hlive, (Worlds.isLive_iff.1 hlive).1, hdecode⟩

/-- The row of a live world decodes to it. -/
theorem Database.LiveWorld.decode_eq {db : Database} {id : WorldId} {w : World}
    (h : db.LiveWorld id w) (hdb : db.Sound) {r : WorldRow} (hr : r ∈ db.worlds)
    (hid : r.id = .text id.text) : r.decode = .ok w := by
  obtain ⟨row, hrow, _, hname, hdecode⟩ := h.exists_row
  rwa [List.inj_on_of_nodup_map hdb.worldIds hr hrow (hid.trans hname.symm)]

/-- Of the rows of a world that is written back, its own is overwritten and others stay. -/
theorem Write.exists_of_changeWorld {db : Database} {id : WorldId} {w v : World}
    (hlive : db.LiveWorld id w) (hdb : db.Sound) (hv : v.id = w.id) {r' : WorldRow}
    (hr' : r' ∈ (changeWorld v).onWorlds db.worlds) :
    ∃ r ∈ db.worlds, r'.id = r.id ∧
      ((r.id = .text id.text ∧ r.decode = .ok w ∧ r' = Worlds.overwritten v r) ∨
        (r.id ≠ .text id.text ∧ r' = r)) := by
  obtain ⟨r, hr, rfl⟩ := List.mem_map.1 hr'
  rw [hv, hlive.id_eq]
  by_cases hid : r.id = .text id.text
  · rw [if_pos (hlive.row_eq hdb hr hid).1]
    exact ⟨r, hr, rfl, Or.inl ⟨hid, hlive.decode_eq hdb hr hid, rfl⟩⟩
  · rw [if_neg fun h => hid (Worlds.isLive_iff.1 h).1]
    exact ⟨r, hr, rfl, Or.inr ⟨hid, rfl⟩⟩

/-- A row after an event is what the event makes of one before it, or that of a new world. -/
theorem System.Turn.row {s : System} {ev : Event} {rows : List WorldRow}
    {activated published : Option WorldId} (h : s.Turn ev rows activated published)
    (hs : s.Sound) {id : WorldId} {r' : WorldRow} (hr' : r' ∈ rows) (hid : r'.id = .text id.text) :
    (∃ r ∈ s.studio.db.worlds, r'.id = r.id ∧
      r.Turns r' (decide (activated = some id)) (decide (published = some id))) ∨
    ∃ owner name tagline themes w t, ev = .command (.createWorld owner name tagline themes) ∧
      Yields (createWorld owner name tagline themes) s.studio w t ∧ r' = .ofWorld w ∧
      activated = none ∧ published = none := by
  have hother {i : WorldId} {o : Option WorldId} (ho : ∀ j ∈ o, j = i) {r : WorldRow}
      (hr : r.id ≠ .text i.text) (hr_id : r.id = .text id.text) : decide (o = some id) = false := by
    refine decide_eq_false fun heq => hr ?_
    rw [hr_id, ho id heq]
  cases h with
  | kept => exact Or.inl ⟨r', hr', rfl, .kept⟩
  | created hcreate =>
    rcases List.mem_append.1 hr' with hr | hr
    · exact Or.inl ⟨r', hr, rfl, .kept⟩
    · exact Or.inr ⟨_, _, _, _, _, _, rfl, hcreate, List.mem_singleton.1 hr, rfl, rfl⟩
  | @activated _ i w hlive now _ hpublished =>
    obtain ⟨r, hr, hsame, ⟨hof, hdecode, rfl⟩ | ⟨hne, rfl⟩⟩ :=
      Write.exists_of_changeWorld hlive hs.db (v := w.activate now) rfl hr'
    · have hi : i = id := WorldId.eq_of_text (Cell.text.inj (hof.symm.trans (hsame.symm.trans hid)))
      rw [hi, decide_eq_true rfl]
      exact Or.inl ⟨r, hr, hsame, .activated hdecode now _⟩
    · rw [hother (fun j hj => (Option.some.inj hj).symm) hne hid, hother hpublished hne hid]
      exact Or.inl ⟨r', hr, rfl, .kept⟩
  | @began _ i w hlive now _ hpublished =>
    obtain ⟨r, hr, hsame, ⟨hof, hdecode, rfl⟩ | ⟨hne, rfl⟩⟩ :=
      Write.exists_of_changeWorld hlive hs.db (v := w.beginGeneration now) rfl hr'
    · exact Or.inl ⟨r, hr, hsame, .began hdecode now _⟩
    · rw [hother hpublished hne hid]
      exact Or.inl ⟨r', hr, rfl, .kept⟩
  | hidden i now =>
    obtain ⟨r, hr, rfl⟩ := List.mem_map.1 hr'
    split
    · exact Or.inl ⟨r, hr, rfl, .hidden _⟩
    · exact Or.inl ⟨r, hr, rfl, .kept⟩
  | removed i => exact Or.inl ⟨r', (List.mem_filter.1 hr').1, rfl, .kept⟩

/-! ## The life of a row -/

/-- The status of a world that was activated and published so many times. -/
inductive WorldRow.Stage (r : WorldRow) : Nat → Nat → Prop where
  | draft (h : r.status = .text WorldStatus.draft.text) : Stage r 0 0
  | generating (h : r.status = .text WorldStatus.generating.text) (n k : Nat) : Stage r n k
  | active (h : r.status = .text WorldStatus.active.text) (n k : Nat) : Stage r (n + 1) k

theorem WorldRow.Stage.of_status_eq {r r' : WorldRow} {n k : Nat} (h : r.Stage n k)
    (hstatus : r'.status = r.status) : r'.Stage n k := by
  cases h with
  | draft h => exact .draft (hstatus.trans h)
  | generating h => exact .generating (hstatus.trans h) n k
  | active h n k => exact .active (hstatus.trans h) n k

namespace WorldRow.Stage

variable {r : WorldRow} {n k : Nat}

theorem status_cases (h : r.Stage n k) : r.status = .text WorldStatus.draft.text ∨
    r.status = .text WorldStatus.generating.text ∨ r.status = .text WorldStatus.active.text := by
  cases h with
  | draft h => exact Or.inl h
  | generating h => exact Or.inr (Or.inl h)
  | active h => exact Or.inr (Or.inr h)

theorem eq_zero_of_draft (h : r.Stage n k) (hdraft : r.status = .text WorldStatus.draft.text) :
    n = 0 ∧ k = 0 := by
  cases h with
  | draft h => exact ⟨rfl, rfl⟩
  | generating h =>
    rw [h] at hdraft
    exact absurd (WorldStatus.text_inj (Cell.text.inj hdraft)) (by decide)
  | active h =>
    rw [h] at hdraft
    exact absurd (WorldStatus.text_inj (Cell.text.inj hdraft)) (by decide)

theorem pos_of_active (h : r.Stage n k) (hactive : r.status = .text WorldStatus.active.text) :
    0 < n := by
  cases h with
  | draft h =>
    rw [h] at hactive
    exact absurd (WorldStatus.text_inj (Cell.text.inj hactive)) (by decide)
  | generating h =>
    rw [h] at hactive
    exact absurd (WorldStatus.text_inj (Cell.text.inj hactive)) (by decide)
  | active h n k => exact Nat.succ_pos n

end WorldRow.Stage

/-- The row of a world that was activated and published so many times. -/
structure WorldRow.Lives (r : WorldRow) (n k : Nat) : Prop where
  version : r.version = .int n
  publishedAt : r.publishedAt = .null ↔ n = 0
  stage : r.Stage n k
  /-- The themes are stored in the form in which they are written back. -/
  themes : ∃ themes, r.themes = .text (Json.strings themes).compact

/-- What a later row of a world keeps of an earlier one, and that the world is a draft only if it
has been one so far. -/
structure WorldRow.Later (r r' : WorldRow) : Prop where
  owner : r'.owner = r.owner
  name : r'.name = r.name
  tagline : r'.tagline = r.tagline
  themes : r'.themes = r.themes
  createdAt : r'.createdAt = r.createdAt
  draft : r'.status = .text WorldStatus.draft.text → r.status = .text WorldStatus.draft.text

theorem WorldRow.Later.refl (r : WorldRow) : r.Later r :=
  ⟨rfl, rfl, rfl, rfl, rfl, fun h => h⟩

theorem WorldRow.Later.trans {r r' r'' : WorldRow} (h : r.Later r') (h' : r'.Later r'') :
    r.Later r'' where
  owner := h'.owner.trans h.owner
  name := h'.name.trans h.name
  tagline := h'.tagline.trans h.tagline
  themes := h'.themes.trans h.themes
  createdAt := h'.createdAt.trans h.createdAt
  draft hdraft := h.draft (h'.draft hdraft)

theorem Cell.HoldsTime?.isNull_iff {c : Cell} {t : Option Instant} (h : c.HoldsTime? t) :
    c = .null ↔ t = none := by
  cases t with
  | none => exact iff_of_true h rfl
  | some t =>
    obtain ⟨raw, rfl, _⟩ := h
    simp

/-- A world that is written back as it was read, but for its status, version and times. -/
theorem WorldRow.Lives.later_overwritten {r : WorldRow} {n k : Nat} (h : r.Lives n k) {w v : World}
    (hr : r.decode = .ok w) (hname : v.name = w.name) (htagline : v.tagline = w.tagline)
    (hthemes : v.themes = w.themes) (hstatus : v.status ≠ .draft) :
    r.Later (Worlds.overwritten v r) ∧
      ∃ themes, (Worlds.overwritten v r).themes = .text (Json.strings themes).compact := by
  have hreads := WorldRow.decode_eq_ok.1 hr
  obtain ⟨themes, hcompact⟩ := h.themes
  obtain ⟨raw, hraw, hdecode⟩ := hreads.themes
  -- What is read of the themes are those that were written.
  have hsame : w.themes = themes := by
    obtain rfl := Cell.text.inj (hcompact.symm.trans hraw)
    rw [Json.decode_strings] at hdecode
    exact (Option.some.inj hdecode).symm
  have hkept : (Worlds.overwritten v r).themes = r.themes := by
    rw [hcompact, ← hsame, ← hthemes]
    rfl
  refine ⟨⟨rfl, ?_, ?_, hkept, rfl, fun hdraft => ?_⟩, themes, hkept.trans hcompact⟩
  · rw [hreads.name, ← hname]
    rfl
  · rw [hreads.tagline, ← htagline]
    rfl
  · exact absurd (WorldStatus.text_inj (Cell.text.inj hdraft)) hstatus

/-- What an event makes of a row has one more activation or publication if the event is one, and is
a later row. -/
theorem WorldRow.Turns.lives {r r' : WorldRow} {activated published : Bool} {n k : Nat}
    (h : r.Turns r' activated published) (hr : r.Lives n k) :
    r'.Lives (n + activated.toNat) (k + published.toNat) ∧ r.Later r' := by
  cases h with
  | kept => exact ⟨hr, .refl r⟩
  | hidden time =>
    refine ⟨⟨hr.version, hr.publishedAt, ?_, hr.themes⟩, rfl, rfl, rfl, rfl, rfl, fun h => h⟩
    exact hr.stage.of_status_eq rfl
  | @activated w hdecode now published =>
    have hreads := WorldRow.decode_eq_ok.1 hdecode
    obtain ⟨hlater, hthemes⟩ := hr.later_overwritten (v := w.activate now) hdecode rfl rfl rfl
      (by simp [World.activate])
    have hversion : w.version = n := Cell.int.inj (hreads.version.symm.trans hr.version)
    refine ⟨⟨?_, ?_, .active rfl n _, hthemes⟩, hlater⟩
    · show Cell.int (w.version + 1) = _
      rw [hversion]
      rfl
    · simp [Worlds.overwritten, WorldRow.ofWorld, World.activate, Cell.ofTime, Cell.ofOption]
  | @began w hdecode now published =>
    have hreads := WorldRow.decode_eq_ok.1 hdecode
    obtain ⟨hlater, hthemes⟩ := hr.later_overwritten (v := w.beginGeneration now) hdecode rfl rfl
      rfl (by simp [World.beginGeneration])
    refine ⟨⟨?_, ?_, .generating rfl _ _, hthemes⟩, hlater⟩
    · show Cell.int w.version = _
      rw [← hreads.version, hr.version]
      rfl
    · show Cell.ofTime w.publishedAt = .null ↔ n = 0
      rw [← hr.publishedAt, hreads.publishedAt.isNull_iff]
      cases w.publishedAt <;> simp [Cell.ofTime, Cell.ofOption]

/-- A new world is a draft of the given texts. -/
theorem Engine.world_of_createWorld {owner : OwnerId} {name : String} {tagline : Option String}
    {themes : List String} {s : Studio} {w : World} {t : Studio}
    (h : Yields (createWorld owner name tagline themes) s w t) :
    ∃ title, Text.trimmed? name = some title ∧ w = { World.new (.mint s.minted) owner title s.clock
      with tagline := tagline, themes := themes } := by
  unfold createWorld at h
  split at h
  · simp at h
  · rename_i title htitle
    simp only [yields_bind, yields_mint, yields_readClock, yields_store, yields_pure] at h
    obtain ⟨_, _, ⟨rfl, rfl⟩, _, _, ⟨rfl, rfl⟩, _, _, _, rfl, _⟩ := h
    exact ⟨title, htitle, rfl⟩

theorem WorldRow.lives_of_createWorld {owner : OwnerId} {name : String} {tagline : Option String}
    {themes : List String} {s : Studio} {w : World} {t : Studio}
    (h : Yields (createWorld owner name tagline themes) s w t) : (ofWorld w).Lives 0 0 := by
  obtain ⟨title, _, rfl⟩ := world_of_createWorld h
  exact ⟨rfl, by simp [ofWorld, World.new, Cell.ofTime, Cell.ofOption], .draft rfl, themes, rfl⟩

/-! ## Runs -/

namespace System

variable {s : System}

/-- What is activated or published is a world that is there. -/
theorem Turn.named {ev : Event} {rows : List WorldRow} {activated published : Option WorldId}
    (h : s.Turn ev rows activated published) (hnamed : s.WorldsNamed) {id : WorldId}
    (hid : activated = some id ∨ published = some id) : s.Named id := by
  have hlives {i : WorldId} {w : World} (hlive : s.studio.db.LiveWorld i w) : s.Named i := by
    obtain ⟨row, hrow, _, hname, _⟩ := hlive.exists_row
    exact hnamed.named hrow hname
  cases h with
  | activated _ hlive _ hpublished =>
    rcases hid with hid | hid
    · exact Option.some.inj hid ▸ hlives hlive
    · exact hpublished id hid ▸ hlives hlive
  | began _ hlive _ hpublished =>
    rcases hid with hid | hid
    · cases hid
    · exact hpublished id hid ▸ hlives hlive
  | _ => rcases hid with hid | hid <;> cases hid

/-- The rows of worlds are those of worlds activated and published so many times, and only worlds
whose names were given out were. -/
structure Lives (s : System) (activations publications : WorldId → Nat) : Prop where
  rows : ∀ r ∈ s.studio.db.worlds, ∀ id : WorldId, r.id = .text id.text →
    r.Lives (activations id) (publications id)
  named : ∀ id, activations id ≠ 0 ∨ publications id ≠ 0 → s.Named id

/-- A new world has a name that was not given out. -/
theorem not_named_of_createWorld {owner : OwnerId} {name : String} {tagline : Option String}
    {themes : List String} {w : World} {t : Studio}
    (h : Yields (createWorld owner name tagline themes) s.studio w t) : ¬ s.Named w.id := by
  rintro ⟨n, hlt, hname⟩
  rw [(name_of_createWorld h).1] at hname
  exact absurd (mintedName_inj hname) (Nat.ne_of_gt hlt)

theorem lives_step {activations publications : WorldId → Nat} (hs : s.Sound)
    (hnamed : s.WorldsNamed) (h : s.Lives activations publications) (e : Engine) (ev : Event) :
    (s.step e ev).Lives
      (fun id => activations id + (decide (s.activation? e ev = some id)).toNat)
      (fun id => publications id + (decide (s.publication? e ev = some id)).toNat) where
  rows r' hr' id hid := by
    rcases (turn_step e s ev).row hs hr' hid with
      ⟨r, hr, hsame, hturns⟩ | ⟨_, _, _, _, w, t, rfl, hcreate, rfl, hact, hpub⟩
    · exact (hturns.lives (h.rows r hr id (hsame.symm.trans hid))).1
    · -- Nothing happened to a world of a name that is given out only now.
      have hw : w.id = id := WorldId.eq_of_text (Cell.text.inj hid)
      have hnew : ¬ s.Named id := hw ▸ not_named_of_createWorld hcreate
      have hzero : activations id = 0 ∧ publications id = 0 := by
        by_contra hsome
        exact hnew (h.named id (by omega))
      simp only [hact, hpub, hzero]
      exact WorldRow.lives_of_createWorld hcreate
  named id hid := by
    by_cases hbefore : activations id ≠ 0 ∨ publications id ≠ 0
    · exact (h.named id hbefore).step e ev
    · have hnow : s.activation? e ev = some id ∨ s.publication? e ev = some id := by
        by_contra hnone
        rw [not_or] at hnone
        simp only [decide_eq_false hnone.1, decide_eq_false hnone.2] at hid
        exact hbefore hid
      exact ((turn_step e s ev).named hnamed hnow).step e ev

theorem count_toList (o : Option WorldId) (id : WorldId) :
    o.toList.count id = (decide (o = some id)).toNat := by
  cases o with
  | none => rfl
  | some i => by_cases h : i = id <;> simp [h]

/-- In every run, the rows of worlds are those of worlds activated and published as often as events
of the run did. -/
theorem lives_run (e : Engine) (events : List Event) :
    (run e events).Lives (activations e events) (publications e events) := by
  induction events using List.reverseRecOn with
  | nil =>
    refine ⟨fun r hr => ?_, fun id hid => ?_⟩
    · cases hr
    · rcases hid with hid | hid <;> exact absurd rfl hid
  | append_singleton events ev ih =>
    have hstep := lives_step (Sound.run e events) (worldsNamed e events) ih e ev
    rw [run_append]
    convert hstep using 1
    · funext id
      rw [activations_append, notes, notes, List.append_nil, count_toList]
    · funext id
      rw [publications_append, notes, notes, List.append_nil, count_toList]

/-- A row later in a run is a later row of its world. -/
theorem later_run (e : Engine) (before after : List Event) {id : WorldId} {r r' : WorldRow}
    (hr : r ∈ (run e before).studio.db.worlds) (hid : r.id = .text id.text)
    (hr' : r' ∈ (run e (before ++ after)).studio.db.worlds) (hid' : r'.id = .text id.text) :
    r.Later r' := by
  induction after using List.reverseRecOn generalizing r' with
  | nil =>
    rw [List.append_nil] at hr'
    rw [List.inj_on_of_nodup_map (Sound.run e before).db.worldIds hr hr' (hid.trans hid'.symm)]
    exact .refl r'
  | append_singleton after ev ih =>
    rw [← List.append_assoc, run_append] at hr'
    rcases (turn_step e (run e (before ++ after)) ev).row (Sound.run e _) hr' hid' with
      ⟨q, hq, hsame, hturns⟩ | ⟨_, _, _, _, w, t, _, hcreate, rfl, _⟩
    · have hlives := (lives_run e (before ++ after)).rows q hq id (hsame.symm.trans hid')
      exact (ih hq (hsame.symm.trans hid')).trans (hturns.lives hlives).2
    · -- The name of the world was given out before.
      have hw : w.id = id := WorldId.eq_of_text (Cell.text.inj hid')
      have hgiven : (run e (before ++ after)).Named id := by
        rw [run, List.foldl_append]
        exact ((worldsNamed e before).named hr hid).foldl e after
      exact absurd hgiven (hw ▸ not_named_of_createWorld hcreate)

/-- The row of a world of a run is a later row of the world as a call created it in the run. -/
theorem created_run (e : Engine) (events : List Event) {r : WorldRow}
    (hr : r ∈ (run e events).studio.db.worlds) {id : WorldId} (hid : r.id = .text id.text) :
    ∃ before owner name tagline themes after w t,
      events = before ++ .command (.createWorld owner name tagline themes) :: after ∧
        Yields (createWorld owner name tagline themes) (run e before).studio w t ∧ w.id = id ∧
          (WorldRow.ofWorld w).Later r := by
  induction events using List.reverseRecOn generalizing r with
  | nil => cases hr
  | append_singleton events ev ih =>
    rw [run_append] at hr
    rcases (turn_step e (run e events) ev).row (Sound.run e events) hr hid with
      ⟨q, hq, hsame, hturns⟩ | ⟨owner, name, tagline, themes, w, t, rfl, hcreate, rfl, _⟩
    · have hlives := (lives_run e events).rows q hq id (hsame.symm.trans hid)
      obtain ⟨before, owner, name, tagline, themes, after, w, t, rfl, hcreate, hw, hlater⟩ :=
        ih hq (hsame.symm.trans hid)
      exact ⟨before, owner, name, tagline, themes, after ++ [ev], w, t,
        by rw [List.append_assoc, List.cons_append], hcreate, hw,
        hlater.trans (hturns.lives hlives).2⟩
    · exact ⟨events, owner, name, tagline, themes, [], w, t, rfl, hcreate,
        WorldId.eq_of_text (Cell.text.inj hid), .refl _⟩

/-- A settled call reports an activation exactly where one is committed. -/
theorem activation?_settle_iff {e : Engine} {i : Nat} {c : QueueCall} {request : GenerationRequest}
    {reply : GenerationReply} {world : WorldId} (hc : s.calls[i]? = some c)
    (hstage : c.stage = .asked request) : s.activation? e (.settle i reply) = some world ↔
      (c.settle reply s.studio).1.stage =
        .ended (.succeeded c.job.id world c.job.moduleKey true) := by
  rcases hcontent : contentOf reply with cause | content
  · simp only [activation?, QueueCall.settle, hc, hstage, hcontent, QueueCall.record,
      Engine.record, recordFailure_run]
    rcases fail c.job cause.message (s.studio.told _) with ⟨err | u, t⟩ <;> simp
  · simp only [activation?, QueueCall.settle, hc, hstage, hcontent, QueueCall.record,
      Engine.record, recordSuccess_run]
    rcases complete c.job content s.studio with ⟨cause | activated, t⟩
    · simp
    · cases activated <;> simp

/-- What is activated is the world of a row that is written back as active. -/
theorem Turn.exists_of_activated {ev : Event} {rows : List WorldRow} {id : WorldId}
    {published : Option WorldId} (h : s.Turn ev rows (some id) published) :
    ∃ r ∈ s.studio.db.worlds, r.id = .text id.text ∧ ∃ w now, r.decode = .ok w ∧
      Worlds.overwritten (w.activate now) r ∈ rows := by
  cases h with
  | @activated _ _ w hlive now =>
    obtain ⟨r, hr, hof, hid, hdecode⟩ := hlive.exists_row
    refine ⟨r, hr, hid, w, now, hdecode, ?_⟩
    have hmem : (if Worlds.isLive (w.activate now).id r then Worlds.overwritten (w.activate now) r
        else r) ∈ (Write.changeWorld (w.activate now)).onWorlds s.studio.db.worlds :=
      List.mem_map_of_mem hr
    rwa [show (w.activate now).id = id from hlive.id_eq, if_pos hof] at hmem

/-- An activation is committed exactly where the world of the event becomes active in another
version. -/
theorem activation?_eq_some_iff (hs : s.Sound) (hnamed : s.WorldsNamed) {e : Engine} {ev : Event}
    {world : WorldId} : s.activation? e ev = some world ↔ s.Activates e ev world := by
  have hturn : s.Turn ev (s.step e ev).studio.db.worlds _ _ := turn_step e s ev
  constructor
  · intro h
    rw [h] at hturn
    obtain ⟨r, hr, hid, w, now, hdecode, hr'⟩ := hturn.exists_of_activated
    refine ⟨r, hr, _, hr', hid, hid, rfl, ?_⟩
    rw [(WorldRow.holds_of_decode hdecode).version]
    intro heq
    have hversion : w.version + 1 = w.version := Cell.int.inj heq
    omega
  · rintro ⟨r, hr, r', hr', hid, hid', hactive, hversion⟩
    rcases hturn.row hs hr' hid' with
      ⟨q, hq, hsame, hturns⟩ | ⟨_, _, _, _, w, _, _, hcreate, rfl, _⟩
    · obtain rfl : q = r :=
        List.inj_on_of_nodup_map hs.db.worldIds hq hr (hsame.symm.trans (hid'.trans hid.symm))
      generalize hact : decide (s.activation? e ev = some world) = activated at hturns
      generalize decide (s.publication? e ev = some world) = published at hturns
      cases hturns with
      | activated => exact of_decide_eq_true hact
      | kept => exact absurd rfl hversion
      | hidden => exact absurd rfl hversion
      | began hdecode => exact absurd (WorldRow.holds_of_decode hdecode).version.symm hversion
    · have hw : w.id = world := WorldId.eq_of_text (Cell.text.inj hid')
      exact absurd (hnamed.named hr hid) (hw ▸ not_named_of_createWorld hcreate)

end System

/-- The row of a world after a run. -/
structure WorldRow.LifeIn (e : Engine) (events : List Event) (id : WorldId) (r : WorldRow) :
    Prop where
  /-- The version counts the activations. -/
  version : r.version = .int (System.activations e events id)
  publishedAt : r.publishedAt ≠ .null ↔ 0 < System.activations e events id
  status : r.status = .text WorldStatus.draft.text ∨ r.status = .text WorldStatus.generating.text ∨
    r.status = .text WorldStatus.active.text
  /-- A draft was never activated, and no publication of it was ever accepted. -/
  draft : r.status = .text WorldStatus.draft.text →
    System.activations e events id = 0 ∧ System.publications e events id = 0
  active : r.status = .text WorldStatus.active.text → 0 < System.activations e events id

/-- How worlds live in the runs of an engine. -/
structure Engine.WorldLife (e : Engine) : Prop where
  /-- Every world was created in the run; what it was given then, it still has. -/
  created : ∀ events, ∀ r ∈ (System.run e events).studio.db.worlds, ∀ id : WorldId,
    r.id = .text id.text → ∃ before owner name tagline themes after w t,
      events = before ++ .command (.createWorld owner name tagline themes) :: after ∧
        Yields (createWorld owner name tagline themes) (System.run e before).studio w t ∧
          w.id = id ∧ (WorldRow.ofWorld w).Later r
  row : ∀ events, ∀ r ∈ (System.run e events).studio.db.worlds, ∀ id : WorldId,
    r.id = .text id.text → r.LifeIn e events id
  /-- From one point of a run to a later one, a world keeps what it was given, its version does not
  decrease, and it does not become a draft. -/
  later : ∀ before after, ∀ r ∈ (System.run e before).studio.db.worlds,
    ∀ r' ∈ (System.run e (before ++ after)).studio.db.worlds, ∀ id : WorldId,
      r.id = .text id.text → r'.id = .text id.text → r.Later r' ∧
        ∃ n n' : Nat, r.version = .int n ∧ r'.version = .int n' ∧ n ≤ n'
  /-- What is counted are the events at which the world becomes active in another version. -/
  activates : ∀ events ev world, (System.run e events).activation? e ev = some world ↔
    (System.run e events).Activates e ev world
  /-- The activations by completions are those that calls of the queue report. -/
  reported : ∀ (s : System) i c request reply world, s.calls[i]? = some c →
    c.stage = .asked request → (s.activation? e (.settle i reply) = some world ↔
      (c.settle reply s.studio).1.stage =
        .ended (.succeeded c.job.id world c.job.moduleKey true))

theorem WorldRow.Lives.lifeIn {e : Engine} {events : List Event} {id : WorldId} {r : WorldRow}
    (h : r.Lives (System.activations e events id) (System.publications e events id)) :
    r.LifeIn e events id where
  version := h.version
  publishedAt := by rw [Ne, h.publishedAt, Nat.pos_iff_ne_zero]
  status := h.stage.status_cases
  draft := h.stage.eq_zero_of_draft
  active := h.stage.pos_of_active

/-- In every run the version of a world is the number of its committed activations, and the time of
publication is set once there is one. A world is a draft only as long as it was neither activated
nor published, active only once it was activated, and never archived; and it keeps what it was
given. -/
theorem Engine.worldLife (e : Engine) : e.WorldLife where
  created events _ hr _ hid := System.created_run e events hr hid
  row events r hr id hid := ((System.lives_run e events).rows r hr id hid).lifeIn
  later before after r hr r' hr' id hid hid' := by
    have hlives := (System.lives_run e before).rows r hr id hid
    have hlives' := (System.lives_run e (before ++ after)).rows r' hr' id hid'
    refine ⟨System.later_run e before after hr hid hr' hid', _, _, hlives.version,
      hlives'.version, ?_⟩
    rw [System.activations_append]
    exact Nat.le_add_right _ _
  activates events _ _ :=
    System.activation?_eq_some_iff (System.Sound.run e events) (System.worldsNamed e events)
  reported _ _ _ _ _ _ hc hstage := System.activation?_settle_iff hc hstage

/-- A run in which a world is published, and activated when its one job is completed. -/
example : System.activations .minimal [.createFirst, .publishFirst, .lease, .ask 0,
      .settle 0 (.ok "prose")] (.mint 0) = 1 ∧
    System.publications .minimal [.createFirst, .publishFirst, .lease, .ask 0,
      .settle 0 (.ok "prose")] (.mint 0) = 1 := by
  decide +kernel

end Lorebook
