import Lorebook.Proofs.Consistency
import Lorebook.Proofs.Readability

set_option autoImplicit false

/-! # The rows of worlds

A world is added under a new name and its name is not given to another one, so a world that was
removed is gone for good (`System.Gone`). The version of its row counts its activations: only a
publication and a call that settles a job of it change that version (`System.world_step`). -/

namespace Lorebook

open Studio Operation Engine

/-! ## What writes make of rows -/

/-- What writes make of the rows of worlds: a row after them is one before them in the same version,
or in that of a world that was written back, or it was added. -/
inductive WorldRow.After (db : Database) (ws : List Write) (r' : WorldRow) : Prop where
  | kept {r : WorldRow} (hr : r ∈ db.worlds) (hid : r'.id = r.id)
      (hversion : r'.version = r.version)
  | changed {r : WorldRow} {w : World} (hr : r ∈ db.worlds) (hid : r'.id = r.id)
      (hw : .changeWorld w ∈ ws) (hof : r.id = .text w.id.text)
      (hversion : r'.version = .int w.version)
  | added {w : World} (hw : .addWorld w ∈ ws) (hid : r'.id = .text w.id.text)

theorem Journal.worldRow_after {db db' : Database} {ws : List Write} (h : Journal db ws db') :
    ∀ r' ∈ db'.worlds, WorldRow.After db ws r' := by
  refine h.invariant (I := fun d => ∀ r' ∈ d.worlds, WorldRow.After db ws r')
    (fun w hw d _ hd r' hr' => ?_) fun r hr => .kept hr rfl rfl
  cases w with
  | addWorld w =>
    rcases List.mem_append.1 hr' with hr' | hr'
    · exact hd r' hr'
    · rw [List.mem_singleton.1 hr']
      exact .added hw rfl
  | changeWorld w =>
    obtain ⟨q, hq, rfl⟩ := List.mem_map.1 hr'
    split
    · rename_i hlive
      have hid := (Worlds.isLive_iff.1 hlive).1
      cases hd q hq with
      | kept hr hsame _ => exact .changed hr hsame hw (hsame.symm.trans hid) rfl
      | changed hr hsame _ _ _ => exact .changed hr hsame hw (hsame.symm.trans hid) rfl
      | added hadd hnew => exact .added hadd hnew
    · exact hd q hq
  | hideWorld id now =>
    obtain ⟨q, hq, rfl⟩ := List.mem_map.1 hr'
    split
    · cases hd q hq with
      | kept hr hid hversion => exact .kept hr hid hversion
      | changed hr hid hw hof hversion => exact .changed hr hid hw hof hversion
      | added hadd hnew => exact .added hadd hnew
    · exact hd q hq
  | removeWorld id => exact hd r' (List.mem_filter.1 hr').1
  | _ => exact hd r' hr'

namespace Worlds

/-- A world can be removed, whether it is there or not. -/
theorem succeeds_hardDelete {db : Database} (hcomplete : db.dropped = []) (id : WorldId) :
    Succeeds (hardDelete id) db := by
  refine Yields.bind_succeeds (Statement.yields_needs_complete hcomplete _)
    (Yields.bind_succeeds (Yields.get db) ?_)
  split
  · exact Yields.bind_succeeds (Yields.modify _ db) (Yields.pure true _).succeeds
  · exact (Yields.pure false db).succeeds

/-- A removal leaves no world of the name. -/
theorem absent_of_hardDelete {id : WorldId} {db : Database} {found : Bool} {db' : Database}
    (h : Yields (hardDelete id) db found db') : ∀ r ∈ db'.worlds, r.id ≠ .text id.text := by
  simp only [hardDelete, yields_bind, Statement.yields_needs, yields_get, yields_ite, yields_pure,
    yields_modify] at h
  intro r hr heq
  obtain ⟨_, _, ⟨_, rfl⟩, _, _, ⟨rfl, rfl⟩, ⟨_, _, _, rfl, _, rfl⟩ | ⟨hnone, _, rfl⟩⟩ := h
  · have hother := (List.mem_filter.1 hr).2
    rw [heq, Cell.isText_iff.2 rfl] at hother
    cases hother
  · exact hnone (List.any_eq_true.2 ⟨r, hr, Cell.isText_iff.2 heq⟩)

end Worlds

/-! ## What events make of rows -/

/-- A new world has the next name. -/
theorem Engine.name_of_createWorld {owner : OwnerId} {name : String} {tagline : Option String}
    {themes : List String} {s : Studio} {w : World} {s' : Studio}
    (h : Yields (createWorld owner name tagline themes) s w s') :
    w.id = .mint s.minted ∧ s'.minted = s.minted + 1 := by
  unfold createWorld at h
  split at h
  · simp at h
  · simp only [yields_bind, yields_mint, yields_readClock, yields_store, yields_pure] at h
    obtain ⟨_, _, ⟨rfl, rfl⟩, _, _, ⟨rfl, rfl⟩, _, _, ⟨db, _, rfl⟩, rfl, rfl⟩ := h
    exact ⟨rfl, rfl⟩

/-- Only creating a world adds one. -/
theorem Effect.addWorld_notMem {e : Engine} {s : System} {ev : Event} {opened : List Job}
    {ws : List Write} (h : Effect e s ev opened ws)
    (hev : ∀ owner name tagline themes, ev ≠ .command (.createWorld owner name tagline themes))
    (w : World) : .addWorld w ∉ ws := by
  cases h with
  | createWorld _ => exact absurd rfl (hev _ _ _ _)
  | sweep hws =>
    intro hmem
    cases hws _ hmem
  | lease _ hm => simp [hm.notMem]
  | fail _ hm => simp [hm.notMem]
  | release _ hm => simp [hm.notMem]
  | retry _ _ _ _ _ _ => split <;> simp
  | complete _ _ _ _ _ _ _ => split <;> simp
  | _ => simp

/-- The event activates the world of a row, if it activates one: a publication of the world, or a
call that settles a job of it. -/
inductive Event.MayActivate (e : Engine) (s : System) (r : WorldRow) : Event → Prop where
  | publish {id : WorldId} {owner : OwnerId} (hof : r.id = .text id.text)
      (hpublish : Succeeds (e.publish id owner) s.studio) :
      MayActivate e s r (.command (.publish id owner))
  | settle {i : Nat} {reply : GenerationReply} {c : QueueCall} {q : JobRow}
      (hof : r.id = .text c.job.world.text) (hc : s.calls[i]? = some c) (hq : q ∈ s.studio.db.jobs)
      (hid : q.id = .text c.job.id.text) : MayActivate e s r (.settle i reply)

/-- A world that is written back is activated, or it keeps its version. -/
theorem Effect.version_cases {e : Engine} {s : System} {ev : Event} {opened : List Job}
    {ws : List Write} (h : Effect e s ev opened ws) (hdb : s.studio.db.Sound) {db : Database}
    (hjournal : Journal s.studio.db ws db) {w : World} (hw : .changeWorld w ∈ ws) {r : WorldRow}
    (hr : r ∈ s.studio.db.worlds) (hof : r.id = .text w.id.text) :
    r.version = .int w.version ∨ (∃ owner, ev = .command (.publish w.id owner)) ∨
      ev.MayActivate e s r := by
  -- What is written back at the start of a generation is the world as it is stored.
  have hstarts {id : WorldId} {v : World} {t : Instant} (hlive : s.studio.db.LiveWorld id v)
      (heq : w = v.beginGeneration t) : r.version = .int w.version := by
    subst heq
    have hid : r.id = .text id.text := by
      rw [hof]
      exact congrArg (fun i : WorldId => Cell.text i.text) hlive.id_eq
    exact (hlive.row_eq hdb hr hid).2.version
  cases h with
  | @activate id owner v ms now hlive _ _ =>
    obtain rfl := Write.changeWorld.inj (List.mem_singleton.1 hw)
    exact Or.inr (Or.inl ⟨owner, by rw [show (v.activate now).id = id from hlive.id_eq]⟩)
  | enqueue hlive _ _ _ _ =>
    simp only [List.mem_append, List.mem_map, reduceCtorEq, and_false, exists_false, false_or,
      List.mem_cons, Write.changeWorld.injEq, or_false] at hw
    exact Or.inl (hstarts hlive hw)
  | retry hlive _ _ _ _ _ =>
    split at hw
    · simp at hw
    · simp only [List.cons_append, List.nil_append, List.mem_cons, reduceCtorEq, false_or,
        Write.changeWorld.injEq, List.not_mem_nil, or_false] at hw
      exact Or.inl (hstarts hlive hw)
  | @complete i reply c request content v m now activated hc _ _ hlive _ _ _ =>
    obtain ⟨q, hq, hid, _⟩ := (Journal.cons_iff.1 hjournal).1
    split at hw
    · simp only [List.cons_append, List.nil_append, List.mem_cons, reduceCtorEq, false_or,
        Write.changeWorld.injEq, List.not_mem_nil, or_false] at hw
      refine Or.inr (Or.inr (.settle ?_ hc hq hid))
      rw [hof, hw]
      exact congrArg (fun i : WorldId => Cell.text i.text) hlive.id_eq
    · simp at hw
  | sweep hws => cases hws _ hw
  | lease _ hm => simp [hm.notMem] at hw
  | fail _ hm => simp [hm.notMem] at hw
  | release _ hm => simp [hm.notMem] at hw
  | _ => simp at hw

namespace System

variable {s : System}

/-- What an event may make of the row of a world: it is that of a world before it, in the same
version unless the event may activate the world, or of a world that has a new name. -/
inductive RowAfter (e : Engine) (s : System) (ev : Event) (r' : WorldRow) : Prop where
  | kept {r : WorldRow} (hr : r ∈ s.studio.db.worlds) (hid : r'.id = r.id)
      (hversion : r'.version = r.version ∨ ev.MayActivate e s r)
  | created {n : Nat} (hnew : s.studio.minted ≤ n) (hgiven : n < (s.step e ev).studio.minted)
      (hid : r'.id = .text (WorldId.mint n).text)

/-- Creating a world adds it under the next name, or leaves the database. -/
theorem world_createWorld (e : Engine) (owner : OwnerId) (name : String) (tagline : Option String)
    (themes : List String) :
    ∀ r' ∈ (s.step e (.command (.createWorld owner name tagline themes))).studio.db.worlds,
      RowAfter e s (.command (.createWorld owner name tagline themes)) r' := by
  intro r' hr'
  rcases s.command_cases e (c := .createWorld owner name tagline themes) rfl with
    ⟨w, hcreate⟩ | hsame
  · obtain ⟨hname, hminted⟩ := name_of_createWorld hcreate
    have hjournal := (commit_createWorld hcreate).2.journal
    cases hjournal.worldRow_after r' hr' with
    | kept hr hid hversion => exact .kept hr hid (Or.inl hversion)
    | changed _ _ hw _ _ => simp at hw
    | added hw hid =>
      obtain rfl := Write.addWorld.inj (List.mem_singleton.1 hw)
      exact .created (Nat.le_refl _) (hminted ▸ Nat.lt_succ_self _) (hname ▸ hid)
  · exact .kept (hsame.1 ▸ hr') rfl (Or.inl rfl)

theorem world_step (h : s.Sound) (e : Engine) (ev : Event) :
    ∀ r' ∈ (s.step e ev).studio.db.worlds, RowAfter e s ev r' := by
  by_cases hev : ∃ owner name tagline themes,
      ev = .command (.createWorld owner name tagline themes)
  · obtain ⟨owner, name, tagline, themes, rfl⟩ := hev
    exact world_createWorld e owner name tagline themes
  intro r' hr'
  obtain ⟨opened, ws, heffect, hcommit, _⟩ := s.step_effect e ev
  cases hcommit.journal.worldRow_after r' hr' with
  | kept hr hid hversion => exact .kept hr hid (Or.inl hversion)
  | @changed r w hr hid hw hof hversion =>
    rcases heffect.version_cases h.db hcommit.journal hw hr hof with
      hstays | ⟨owner, rfl⟩ | hmay
    · exact .kept hr hid (Or.inl (hversion.trans hstays.symm))
    · rcases s.command_cases e (c := .publish w.id owner) rfl with ⟨p, hpublish⟩ | hsame
      · exact .kept hr hid (Or.inr (.publish hof ⟨p, _, hpublish⟩))
      · exact .kept (hsame.1 ▸ hr') rfl (Or.inl rfl)
    · exact .kept hr hid (Or.inr hmay)
  | @added w hw _ =>
    exact absurd hw (heffect.addWorld_notMem
      (fun owner name tagline themes heq => hev ⟨owner, name, tagline, themes, heq⟩) w)

/-! ## Names of worlds -/

/-- Worlds have names that were given out. -/
def WorldsNamed (s : System) : Prop :=
  ∀ r ∈ s.studio.db.worlds, ∃ n < s.studio.minted, r.id = .text (WorldId.mint n).text

theorem minted_step (s : System) (e : Engine) (ev : Event) :
    s.studio.minted ≤ (s.step e ev).studio.minted := by
  obtain ⟨_, _, _, hcommit, _⟩ := s.step_effect e ev
  exact hcommit.names

theorem worldsNamed_step (h : s.Sound) (hnamed : s.WorldsNamed) (e : Engine) (ev : Event) :
    (s.step e ev).WorldsNamed := by
  intro r' hr'
  cases world_step h e ev r' hr' with
  | kept hr hid _ =>
    obtain ⟨n, hlt, hname⟩ := hnamed _ hr
    exact ⟨n, Nat.lt_of_lt_of_le hlt (s.minted_step e ev), hid.trans hname⟩
  | created _ hgiven hid => exact ⟨_, hgiven, hid⟩

/-- In every run, worlds have names that were given out. -/
theorem worldsNamed (e : Engine) (events : List Event) : (run e events).WorldsNamed :=
  Sound.induction_of (P := WorldsNamed) (fun r hr => by cases hr)
    fun _ ev _ h hnamed => worldsNamed_step h hnamed e ev

/-- The name of the world was given out. -/
def Named (s : System) (world : WorldId) : Prop :=
  ∃ n < s.studio.minted, world.text = (WorldId.mint n).text

/-- There is no world of a name that was given out. -/
structure Gone (s : System) (world : WorldId) : Prop where
  named : s.Named world
  absent : ∀ r ∈ s.studio.db.worlds, r.id ≠ .text world.text

variable {world : WorldId}

theorem WorldsNamed.named (h : s.WorldsNamed) {r : WorldRow} (hr : r ∈ s.studio.db.worlds)
    (hid : r.id = .text world.text) : s.Named world := by
  obtain ⟨n, hlt, hname⟩ := h r hr
  exact ⟨n, hlt, Cell.text.inj (hid.symm.trans hname)⟩

theorem Named.step (h : s.Named world) (e : Engine) (ev : Event) : (s.step e ev).Named world := by
  obtain ⟨n, hlt, hname⟩ := h
  exact ⟨n, Nat.lt_of_lt_of_le hlt (s.minted_step e ev), hname⟩

theorem Named.foldl (h : s.Named world) (e : Engine) (later : List Event) :
    (later.foldl (System.step e) s).Named world := by
  induction later generalizing s with
  | nil => exact h
  | cons ev later ih => exact ih (h.step e ev)

theorem Gone.step (hgone : s.Gone world) (h : s.Sound) (e : Engine) (ev : Event) :
    (s.step e ev).Gone world := by
  refine ⟨hgone.named.step e ev, fun r' hr' heq => ?_⟩
  cases world_step h e ev r' hr' with
  | kept hr hid _ => exact hgone.absent _ hr (hid.symm.trans heq)
  | created hnew _ hid =>
    obtain ⟨n, hlt, hname⟩ := hgone.named
    have hsame := mintedName_inj (hname.symm.trans (Cell.text.inj (heq.symm.trans hid)))
    omega

/-- A world that is gone does not come back. -/
theorem Gone.foldl (hgone : s.Gone world) (h : s.Sound) (e : Engine) (later : List Event) :
    (later.foldl (System.step e) s).Gone world := by
  induction later generalizing s with
  | nil => exact hgone
  | cons ev later ih => exact ih (hgone.step h e ev) (h.step e ev)

/-- A world that is removed is gone. -/
theorem Named.gone (hnamed : s.Named world) (h : s.Sound) (e : Engine) :
    (s.step e (.command (.hardDelete world))).Gone world := by
  refine ⟨hnamed.step e _, ?_⟩
  obtain ⟨found, db, hdelete⟩ := Worlds.succeeds_hardDelete h.db.complete world
  have hrun : Yields ((Command.hardDelete world).operation e) s.studio () (s.studio.withDb db) :=
    Yields.bind (Yields.store s.studio hdelete) (Yields.pure () _)
  have hstudio : (s.step e (.command (.hardDelete world))).studio = s.studio.withDb db :=
    congrArg Prod.snd hrun
  rw [hstudio]
  exact Worlds.absent_of_hardDelete hdelete

/-- Whatever is removed among events is gone after them. -/
theorem Named.gone_foldl (hnamed : s.Named world) (h : s.Sound) (e : Engine) {later : List Event}
    (hremove : .command (.hardDelete world) ∈ later) :
    (later.foldl (System.step e) s).Gone world := by
  induction later generalizing s with
  | nil => cases hremove
  | cons ev later ih =>
    rcases List.mem_cons.1 hremove with rfl | hlater
    · exact (hnamed.gone h e).foldl (h.step e _) e later
    · exact ih (hnamed.step e ev) (h.step e ev) hlater

end System

end Lorebook
