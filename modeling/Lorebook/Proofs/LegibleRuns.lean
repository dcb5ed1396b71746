import Lorebook.Proofs.LegibleOperations
import Mathlib.Data.List.Induction

set_option autoImplicit false

/-! # Runs that stay legible

Every event leaves the database or keeps its rows legible. So every row can be read after a run
along which the clock stays in the years of four digits (`System.legible_run`). -/

namespace Lorebook

open Studio Operation Engine

/-! ## Events -/

/-- What led from one studio to another left the database, or kept the rows legible. -/
def Studio.Carries (s t : Studio) : Prop :=
  SameDb s t ∨ (s.Legible → t.Legible)

namespace Studio.Carries

variable {s t : Studio}

/-- Between two readings of the clock in the era, rows stay legible. -/
theorem rows (h : s.Carries t) (hs : s.clock.InEra) (ht : t.clock.InEra)
    (hdb : s.db.Legible s.minted) : t.db.Legible t.minted := by
  rcases h with ⟨hsame, hminted⟩ | h
  · rw [hsame]
    exact hdb.mono hminted
  · exact (h (.of_rows hs hdb)).rows ht.2

theorem told (h : s.Carries t) (e : LogEvent) : s.Carries (t.told e) :=
  h.imp (fun hsame => Chain.trans hsame (StudioChain.told t e)) fun hkeeps hs => (hkeeps hs).told e

theorem of_told {e : LogEvent} (h : (s.told e).Carries t) : s.Carries t :=
  h.imp (Chain.trans (StudioChain.told s e)) fun hkeeps hs => hkeeps (hs.told e)

/-- A run of an operation that fails cleanly carries the rows over if it does so when it
succeeds. -/
theorem of_run {α : Type} {op : Operation α} {result : Except EngineError α}
    (hrun : op s = (result, t)) (hfails : FailsClean op)
    (hyields : ∀ v, Yields op s v t → s.Carries t) : s.Carries t := by
  cases result with
  | ok v => exact hyields v hrun
  | error cause => exact Or.inl (hfails hrun)

end Studio.Carries

/-- Commands carry the rows over. -/
theorem Command.carries {e : Engine} (hmodules : e.registry.modules.length < twoPow 32)
    (c : Command) (s : Studio) : s.Carries (c.operation e s).2 := by
  rcases hrun : c.operation e s with ⟨result, t⟩
  refine .of_run hrun (failsClean_operation e c) fun v h => ?_
  cases c with
  | createWorld owner name tagline themes =>
    simp only [operation, yields_bind, yields_pure] at h
    obtain ⟨w, _, h, -, rfl⟩ := h
    exact Or.inr (legible_createWorld h)
  | saveModuleFields world module owner fields =>
    simp only [operation, yields_bind, yields_pure] at h
    obtain ⟨m, _, h, -, rfl⟩ := h
    exact Or.inr (legible_saveModuleFields h)
  | publish world owner =>
    simp only [operation, yields_bind, yields_pure] at h
    obtain ⟨p, _, h, -, rfl⟩ := h
    exact Or.inr (legible_publish hmodules h)
  | initializeJobs world keys =>
    simp only [operation, yields_bind, yields_pure] at h
    obtain ⟨js, _, h, -, rfl⟩ := h
    exact Or.inr (legible_initializeJobs hmodules h)
  | retryModule world module owner =>
    simp only [operation, yields_bind, yields_pure] at h
    obtain ⟨j, _, h, -, rfl⟩ := h
    exact Or.inr (legible_retryModule h)
  | recoverStaleLeases timeout =>
    simp only [operation, yields_bind, yields_pure] at h
    obtain ⟨js, _, h, -, rfl⟩ := h
    exact Or.inr (legible_recoverStaleLeases h)
  | softDelete world =>
    simp only [operation, yields_bind, yields_readClock, yields_store] at h
    obtain ⟨_, _, ⟨rfl, rfl⟩, db, hdelete, rfl⟩ := h
    exact Or.inr fun hs => hs.ticked.write (Worlds.journal_softDelete hdelete) hs.clock_inEra
  | hardDelete world =>
    simp only [operation, yields_bind, yields_store, yields_pure] at h
    obtain ⟨found, _, ⟨db, hdelete, rfl⟩, -, rfl⟩ := h
    refine Or.inr fun hs => hs.withDb (Worlds.journal_hardDelete hdelete) fun _ w hw => ?_
    cases found with
    | false => cases hw
    | true =>
      obtain rfl := List.mem_singleton.1 hw
      exact trivial
  | generationStatus world owner =>
    simp only [operation, yields_bind, yields_pure] at h
    obtain ⟨_, _, h, -, rfl⟩ := h
    exact Or.inl ((sameDb_generationStatus _ _ _).of_yields h)
  | refineField world module field owner text instruction reply =>
    simp only [operation, yields_bind, yields_pure] at h
    obtain ⟨_, _, h, -, rfl⟩ := h
    exact Or.inl (Respects.of_yields (sameDb_refineField _ _ _ _ _ _ _ _) h)

/-! ## Calls -/

namespace Engine

/-- Taking a job carries the rows over. -/
theorem carries_takeJob (s : Studio) :
    s.Carries ((takeJob : StateM Studio (Except EngineError (Option Job))) s).2 := by
  rw [takeJob_run]
  rcases hrun : leaseNext s with ⟨result, t⟩
  have h : s.Carries t := .of_run hrun failsClean_leaseNext
    fun _ h => Or.inr fun hs => (legible_leaseNext h hs).1
  rcases result with cause | _ | job
  · exact h.told _
  · exact h
  · exact h.told _

/-- Recording what a call came to carries the rows over. -/
theorem carries_record (job : Job) (content : Except EngineError String) (s : Studio) :
    s.Carries ((record job content : StateM Studio (Except EngineError QueueOutcome)) s).2 := by
  cases content with
  | ok content =>
    show s.Carries ((recordSuccess job content : StateM Studio _) s).2
    rw [recordSuccess_run]
    rcases hrun : complete job content s with ⟨result, t⟩
    have h : s.Carries t := .of_run hrun (failsClean_complete job content)
      fun _ h => Or.inr fun hs => (legible_complete h hs).1
    rcases result with cause | activated
    · exact h
    · exact h.told _
  | error cause =>
    show s.Carries ((recordFailure job cause : StateM Studio _) s).2
    rw [recordFailure_run]
    rcases hrun : fail job cause.message (s.told _) with ⟨result, t⟩
    have h := Studio.Carries.of_run hrun (failsClean_fail job cause.message)
      fun _ h => Or.inr fun hs => (legible_fail h hs).1
    rcases result with err | u
    · exact .of_told h
    · exact .of_told h

/-- Discarding a result carries the rows over. -/
theorem carries_discard (job : Job) (cause : EngineError) (s : Studio) :
    s.Carries ((discard job cause : StateM Studio QueueOutcome) s).2 := by
  rw [discard_run]
  split
  · rcases hrun : release job cause (s.told _) with ⟨result, t⟩
    have h := Studio.Carries.of_run hrun (failsClean_release job cause)
      fun _ h => Or.inr (legible_release h)
    rcases result with err | _ | _
    · exact .of_told (h.told _)
    · exact .of_told h
    · exact .of_told (h.told _)
  · exact Or.inl (StudioChain.told s _)

end Engine

namespace QueueCall

theorem carries_settle (c : QueueCall) (reply : GenerationReply) (s : Studio) :
    s.Carries (c.settle reply s).2 := by
  have hrecord (c' : QueueCall) (content : Except EngineError String) :
      s.Carries (c'.record content s).2 := by
    have h := carries_record c'.job content s
    unfold record
    rcases hrun : (Engine.record c'.job content : StateM Studio _) s with ⟨cause | outcome, t⟩
    · rwa [hrun] at h
    · rwa [hrun] at h
  unfold settle
  split
  · exact hrecord _ _
  · exact hrecord _ _
  · exact Or.inl (Chain.refl s)

theorem carries_release (c : QueueCall) (s : Studio) : s.Carries (c.release s).2 := by
  unfold release
  split
  · exact carries_discard c.job _ s
  · exact Or.inl (Chain.refl s)

end QueueCall

theorem DraftCall.carries_merge (c : DraftCall) (reply : GenerationReply) (s : Studio) :
    s.Carries (c.merge reply s).2 := by
  unfold merge
  split
  · rcases hrun : acceptDraft c.world c.definition c.owner reply s with ⟨result, t⟩
    exact .of_run hrun (failsClean_acceptDraft _ _ _ _)
      fun _ h => Or.inr (legible_acceptDraft h)
  · exact Or.inl (Chain.refl s)

/-! ## Runs -/

namespace System

variable {e : Engine} {s : System}

theorem carries_onCall {f : QueueCall → Studio → QueueCall × Studio}
    (hf : ∀ c t, Studio.Carries t (f c t).2) (i : Nat) :
    s.studio.Carries (s.onCall f i).studio := by
  unfold onCall
  split
  · exact hf _ _
  · exact Or.inl (Chain.refl _)

theorem carries_onDraft {f : DraftCall → Studio → DraftCall × Studio}
    (hf : ∀ c t, Studio.Carries t (f c t).2) (i : Nat) :
    s.studio.Carries (s.onDraft f i).studio := by
  unfold onDraft
  split
  · exact hf _ _
  · exact Or.inl (Chain.refl _)

/-- Every event carries the rows over. -/
theorem carries_step (hmodules : e.registry.modules.length < twoPow 32) (ev : Event)
    (s : System) : s.studio.Carries (s.step e ev).studio := by
  cases ev with
  | setClock time => exact Or.inl ⟨rfl, Nat.le_refl _⟩
  | command c => exact c.carries hmodules s.studio
  | lease =>
    have h := carries_takeJob s.studio
    show s.studio.Carries s.lease.studio
    unfold lease
    rcases hrun : (takeJob : StateM Studio _) s.studio with ⟨cause | _ | job, t⟩ <;>
      rwa [hrun] at h
  | ask i => exact carries_onCall (fun c t => Or.inl (c.sameDb_ask e t).1) i
  | settle i reply => exact carries_onCall (fun c t => c.carries_settle reply t) i
  | release i => exact carries_onCall (fun c t => c.carries_release t) i
  | openDraft world module owner => exact Or.inl (openDraft_effect e s world module owner).1
  | askDraft i => exact carries_onDraft (fun c t => Or.inl (sameDb_askDraft e c t)) i
  | mergeDraft i reply => exact carries_onDraft (fun c t => c.carries_merge reply t) i

/-- The clock stays in the years of four digits all along a run. -/
def InEra (e : Engine) (events : List Event) : Prop :=
  ∀ k ≤ events.length, (run e (events.take k)).studio.clock.InEra

theorem InEra.last {events : List Event} (h : InEra e events) :
    (run e events).studio.clock.InEra := by
  have hlast := h _ (Nat.le_refl _)
  rwa [List.take_length] at hlast

theorem inEra_append_singleton {events : List Event} {ev : Event} :
    InEra e (events ++ [ev]) ↔
      InEra e events ∧ (run e (events ++ [ev])).studio.clock.InEra := by
  refine ⟨fun h => ⟨fun k hk => ?_, h.last⟩, fun ⟨h, hlast⟩ k hk => ?_⟩
  · have hprefix := h k (by rw [List.length_append]; omega)
    rwa [List.take_append_of_le_length hk] at hprefix
  · rw [List.length_append, List.length_singleton] at hk
    rcases Nat.lt_or_ge events.length k with hlt | hle
    · rwa [List.take_of_length_le (by rw [List.length_append, List.length_singleton]; omega)]
    · rw [List.take_append_of_le_length hle]
      exact h k hle

/-- After a run along which the clock stays in the years of four digits, every row can be read. -/
theorem legible_run (hmodules : e.registry.modules.length < twoPow 32) {events : List Event}
    (hclock : InEra e events) :
    (run e events).studio.db.Legible (run e events).studio.minted := by
  induction events using List.reverseRecOn with
  | nil => exact Database.legible_empty
  | append_singleton events ev ih =>
    obtain ⟨hbefore, hlast⟩ := inEra_append_singleton.1 hclock
    rw [run_append] at hlast ⊢
    exact (carries_step hmodules ev _).rows hbefore.last hlast (ih hbefore)

theorem legible_studio (hmodules : e.registry.modules.length < twoPow 32) {events : List Event}
    (hclock : InEra e events) : (run e events).studio.Legible :=
  .of_rows hclock.last (legible_run hmodules hclock)

end System

end Lorebook
