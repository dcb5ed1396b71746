import Lorebook.Proofs.Readability

set_option autoImplicit false

/-! # A call gives its lease back

A call of the queue leases a job in one transaction and settles it in a later one; anything else can
be committed in between. The settling transaction can find the world, the lease, the job or the
module gone, and then a second transaction frees the lease. Whatever happens in between and whatever
the generator answers, the job does not run any more after the last transaction of the call
(`CallHistory.leaseReturned`), as long as the rows that these transactions read can be read. -/

namespace Lorebook

open Studio Operation Engine

/-! ## Modules that keep their prose -/

/-- The field values that a row of a module holds. -/
def ModuleRow.fieldValues? (r : ModuleRow) : Option FieldMap :=
  match r.fields with
  | .text raw => (Json.parseRecord? raw).bind (Json.decodeMap Json.decodeText)
  | _ => none

theorem ModuleRow.Holds.fieldValues?_eq {r : ModuleRow} {m : WorldModule} (h : r.Holds m) :
    r.fieldValues? = some m.fields := by
  obtain ⟨raw, hraw, hfields⟩ := h.fields
  unfold fieldValues?
  rw [hraw]
  exact hfields

/-- Both rows are of the same module, with the same field values, content and fingerprint. -/
structure ModuleRow.SameProse (r r' : ModuleRow) : Prop where
  id : r'.id = r.id
  world : r'.world = r.world
  key : r'.key = r.key
  fields : r'.fieldValues? = r.fieldValues?
  content : r'.content = r.content
  hash : r'.hash = r.hash

theorem ModuleRow.SameProse.refl (r : ModuleRow) : r.SameProse r :=
  ⟨rfl, rfl, rfl, rfl, rfl, rfl⟩

/-- The rows of the modules are the same but for their status and their last change. -/
abbrev Database.SameProse (db db' : Database) : Prop :=
  List.Forall₂ ModuleRow.SameProse db.modules db'.modules

/-- Writing back a stored module with its prose keeps the prose of all. -/
theorem Database.StoredModule.sameProse {db : Database} (hdb : db.Sound) {world : WorldId}
    {key : String} {m n : WorldModule} (h : db.StoredModule world key m) (hworld : n.world = world)
    (hkey : n.key = key) (hfields : n.fields = m.fields) (hcontent : n.content = m.content)
    (hhash : n.hash = m.hash) : db.SameProse ((Write.saveModule n).apply db) := by
  obtain ⟨row, hfind, hdecode⟩ := h
  have hholds := ModuleRow.holds_of_decode hdecode
  have hrow : row ∈ db.modules := List.mem_of_find?_eq_some hfind
  have hof := List.find?_some hfind
  have hany : db.modules.any (Modules.isOf n.world n.key) = true := by
    rw [hworld, hkey]
    exact List.any_eq_true.2 ⟨row, hrow, hof⟩
  have htable : ((Write.saveModule n).apply db).modules = db.modules.map fun r =>
      if Modules.isOf n.world n.key r then Modules.overwritten (ModuleRow.ofModule n) r else r :=
    if_pos hany
  rw [Database.SameProse, htable, List.forall₂_map_right_iff, List.forall₂_same]
  intro r hr
  by_cases hsame : Modules.isOf n.world n.key r = true
  · -- Keys are distinct, so this is the row that the module was read from.
    have heq : r = row := by
      rw [hworld, hkey] at hsame
      have hfound := Modules.find?_isOf hdb.moduleKeys hr hsame
      exact Option.some.inj (hfound.symm.trans hfind)
    rw [if_pos hsame, heq]
    refine ⟨rfl, rfl, rfl, ?_, ?_, ?_⟩
    · rw [hholds.fieldValues?_eq, ← hfields]
      exact FieldMap.decode_compact n.fields
    · rw [hholds.content, ← hcontent]
      rfl
    · rw [hholds.hash, ← hhash]
      rfl
  · rw [if_neg hsame]
    exact .refl r

/-- Marking a module keeps the prose of all. -/
theorem Engine.Marks.sameProse {db db' : Database} (hdb : db.Sound) {job : Job}
    {status : ModuleStatus} {now : Instant} {ws : List Write} (h : Marks db job status now ws)
    (hjournal : Journal db ws db') : db.SameProse db' := by
  cases h with
  | absent _ =>
    rw [Journal.nil_iff.1 hjournal]
    exact List.forall₂_same.2 fun r _ => .refl r
  | stored hm =>
    rw [Journal.nil_iff.1 (Journal.cons_iff.1 hjournal).2]
    exact hm.sameProse hdb hm.world_eq hm.key_eq rfl rfl rfl

/-! ## The last transactions of a call -/

/-- The outcome says that the job was settled. -/
inductive QueueOutcome.Settled (job : Job) : QueueOutcome → Prop where
  | succeeded (activated : Bool) :
    Settled job (.succeeded job.id job.world job.moduleKey activated)
  | failed (message : String) : Settled job (.failed job.id job.world job.moduleKey message)

/-- The job is gone or does not run. -/
def Database.Released (db : Database) (job : Job) : Prop :=
  ∀ r ∈ db.jobs, r.id = .text job.id.text → r.hasStatus .running = false

/-- After a job was settled, and writes that leave the jobs, it does not run. -/
theorem Database.released_of_settled {db db' : Database} (hdb : db.Sound) {job : Job} {w : Write}
    {ws : List Write}
    (hw : (∃ now, w = .succeed job.id now) ∨ ∃ message now, w = .fail job.id message now)
    (hws : ∀ v ∈ ws, v.Settles job) (hkept : ∀ v ∈ ws, ∀ rows, v.onJobs rows = rows)
    (hjournal : Journal db (w :: ws) db') : db'.Released job := by
  have hfirst : w.Settles job := by
    rcases hw with ⟨now, rfl⟩ | ⟨message, now, rfl⟩
    · exact .succeed now
    · exact .fail message now
  have hsettles : SettlesFirst job (w :: ws) :=
    ⟨⟨w, ws, rfl, hkept, hw⟩, fun v hv => by
      rcases List.mem_cons.1 hv with rfl | hv
      · exact hfirst
      · exact hws v hv⟩
  exact (hsettles.ended hdb hjournal).2

namespace QueueCall

variable {s : Studio} {c : QueueCall}

/-- Recording content completes the job, or it was lost and nothing was changed. -/
theorem recordSuccess_cases (hdb : s.db.Sound) (hrows : s.db.Readable) (content : String) :
    (∃ outcome, outcome.Settled c.job ∧ (c.record (.ok content) s).1.stage = .ended outcome ∧
        (c.record (.ok content) s).2.db.Released c.job) ∨
      ∃ cause, cause.isLoss = true ∧ (c.record (.ok content) s).1.stage = .discarding cause ∧
        (c.record (.ok content) s).2.db = s.db := by
  unfold QueueCall.record Engine.record
  simp only [recordSuccess_run]
  rcases succeeds_or_loses_complete hdb.complete hrows c.job content with
    ⟨activated, t, h⟩ | ⟨e, t, h, hloss⟩
  · obtain ⟨w, m, now, hlive, hm, _, hcommit⟩ := commit_complete h
    rw [show complete c.job content s = (.ok activated, t) from h]
    refine Or.inl ⟨_, .succeeded activated, rfl, ?_⟩
    have hrest : ∀ v ∈ .saveModule (completed content now m) ::
        (if activated then [Write.changeWorld (w.activate now)] else []),
        v = .saveModule (completed content now m) ∨ v = .changeWorld (w.activate now) := by
      intro v hv
      rcases List.mem_cons.1 hv with rfl | hv
      · exact Or.inl rfl
      · split at hv
        · exact Or.inr (List.mem_singleton.1 hv)
        · cases hv
    refine Database.released_of_settled hdb (Or.inl ⟨now, rfl⟩) (fun v hv => ?_)
      (fun v hv rows => ?_) hcommit.journal
    · rcases hrest v hv with rfl | rfl
      · exact .saveModule hm.world_eq hm.key_eq
      · exact .changeWorld hlive.id_eq
    · rcases hrest v hv with rfl | rfl <;> rfl
  · rw [show complete c.job content s = (.error e, t) from h]
    exact Or.inr ⟨e, hloss, rfl, (failsClean_complete _ _ h).1⟩

/-- Recording a failure fails the job, or it was lost and nothing was changed. -/
theorem recordFailure_cases (hdb : s.db.Sound) (hrows : s.db.Readable) (cause : EngineError) :
    (∃ outcome, outcome.Settled c.job ∧ (c.record (.error cause) s).1.stage = .ended outcome ∧
        (c.record (.error cause) s).2.db.Released c.job) ∨
      ∃ e, e.isLoss = true ∧ (c.record (.error cause) s).1.stage = .discarding e ∧
        (c.record (.error cause) s).2.db = s.db := by
  unfold QueueCall.record Engine.record
  simp only [recordFailure_run]
  generalize htold : s.told _ = u
  have hu : u.db = s.db := by
    rw [← htold]
    rfl
  rcases succeeds_or_loses_fail (s := u) (by rw [hu]; exact hdb.complete) (by rwa [hu]) c.job
    cause.message with ⟨_, t, h⟩ | ⟨e, t, h, hloss⟩
  · obtain ⟨now, ws, hmarks, hcommit⟩ := commit_fail h
    rw [show fail c.job cause.message u = (.ok (), t) from h]
    refine Or.inl ⟨_, .failed _, rfl, ?_⟩
    rw [hu] at hmarks
    have hsettles := (hmarks.settlesFirst cause.message now).ended hdb (hu ▸ hcommit.journal)
    exact hsettles.2
  · rw [show fail c.job cause.message u = (.error e, t) from h]
    exact Or.inr ⟨e, hloss, rfl, ((failsClean_fail _ _ h).1).trans hu⟩

/-- Settling ends the call with its job settled, or the job was lost and nothing was changed. -/
theorem settle_cases (hdb : s.db.Sound) (hrows : s.db.Readable) (reply : GenerationReply)
    (hstage : (∃ request, c.stage = .asked request) ∨ ∃ cause, c.stage = .refused cause) :
    (∃ outcome, outcome.Settled c.job ∧ (c.settle reply s).1.stage = .ended outcome ∧
        (c.settle reply s).2.db.Released c.job) ∨
      ∃ cause, cause.isLoss = true ∧ (c.settle reply s).1.stage = .discarding cause ∧
        (c.settle reply s).2.db = s.db := by
  rcases hstage with ⟨request, hstage⟩ | ⟨cause, hstage⟩
  · simp only [QueueCall.settle, hstage]
    cases contentOf reply with
    | ok content =>
      exact recordSuccess_cases (c := ⟨c.job, .asked request, _, some (s, reply)⟩) hdb hrows content
    | error cause =>
      exact recordFailure_cases (c := ⟨c.job, .asked request, _, some (s, reply)⟩) hdb hrows cause
  · simp only [QueueCall.settle, hstage]
    exact recordFailure_cases hdb hrows cause

/-- Discarding a result that was lost ends the call and frees its lease; worlds and the prose of
modules stay. -/
theorem release_of_loss (hdb : s.db.Sound) (hrows : s.db.Readable) {cause : EngineError}
    (hloss : cause.isLoss = true) (hstage : c.stage = .discarding cause) :
    (c.release s).1.stage = .ended (.leaseLost c.job.id) ∧ (c.release s).2.db.Released c.job ∧
      (c.release s).2.db.worlds = s.db.worlds ∧ s.db.SameProse (c.release s).2.db := by
  simp only [QueueCall.release, hstage, discard_run, if_pos hloss]
  generalize htold : s.told _ = u
  have hu : u.db = s.db := by
    rw [← htold]
    rfl
  obtain ⟨released, t, hrelease, hidle⟩ := yields_release (s := u) (by rw [hu]; exact hdb.complete)
    (by rwa [hu]) c.job cause
  rw [hu] at hidle
  rw [show Engine.release c.job cause u = (.ok released, t) from hrelease]
  cases released with
  | false =>
    obtain ⟨ht, hidle⟩ := hidle rfl
    refine ⟨rfl, ?_, ?_, ?_⟩
    · show t.db.Released c.job
      rw [ht]
      exact hidle
    · show t.db.worlds = _
      rw [ht]
    · show s.db.SameProse t.db
      rw [ht]
      exact List.forall₂_same.2 fun r _ => .refl r
  | true =>
    rcases Engine.commit_release hrelease with ⟨hfalse, _⟩ | ⟨_, message, now, ws, hmarks, hcommit⟩
    · cases hfalse
    have hjournal := hcommit.journal
    rw [hu] at hmarks hjournal
    obtain ⟨hallowed, hrest⟩ := Journal.cons_iff.1 hjournal
    have hmarks' : Marks ((Write.fail c.job.id message now).apply s.db) c.job .failed now ws :=
      hmarks.of_modules_eq rfl
    have hprose : ((Write.fail c.job.id message now).apply s.db).SameProse t.db :=
      hmarks'.sameProse (hdb.apply hallowed) hrest
    refine ⟨rfl, ?_, ?_, hprose⟩
    · exact ((hmarks.settlesFirst message now).ended hdb hjournal).2
    · refine hjournal.worlds_eq fun w hw rows => ?_
      rcases List.mem_cons.1 hw with rfl | hw
      · rfl
      · obtain ⟨m, rfl, _⟩ := hmarks.eq_saveModule hw
        rfl

end QueueCall

/-! ## The events of others -/

/-- Whether an event is a transaction of the call of a number. -/
def Event.isOf (i : Nat) : Event → Bool
  | .ask j => j == i
  | .settle j _ => j == i
  | .release j => j == i
  | _ => false

namespace System

variable {e : Engine} {s : System} {i : Nat}

theorem calls_onCall_of_ne {f : QueueCall → Studio → QueueCall × Studio} {j : Nat} (h : j ≠ i) :
    (s.onCall f j).calls[i]? = s.calls[i]? := by
  cases hc : s.calls[j]? with
  | none => rw [onCall_of_none hc]
  | some c =>
    rw [onCall_of_some hc]
    exact List.getElem?_set_ne h

/-- A call that goes on is left as its transaction leaves it, and so is the studio. -/
theorem onCall_call {c : QueueCall} (f : QueueCall → Studio → QueueCall × Studio)
    (hc : s.calls[i]? = some c) :
    (s.onCall f i).calls[i]? = some (f c s.studio).1 ∧
      (s.onCall f i).studio = (f c s.studio).2 := by
  rw [onCall_of_some hc]
  exact ⟨List.getElem?_set_self (List.getElem?_eq_some_iff.1 hc).1, rfl⟩

/-- A call stays as it is in the events of others. -/
theorem calls_step_of_other {ev : Event} (hev : ev.isOf i = false) (hi : i < s.calls.length) :
    (s.step e ev).calls[i]? = s.calls[i]? := by
  cases ev with
  | setClock time => rfl
  | command c => rfl
  | lease =>
    obtain ⟨opened, ws, _, _, hcalls⟩ := lease_effect e s
    show s.lease.calls[i]? = _
    rw [hcalls, List.getElem?_append_left hi]
  | ask j => exact calls_onCall_of_ne fun h => by simp [Event.isOf, h] at hev
  | settle j reply => exact calls_onCall_of_ne fun h => by simp [Event.isOf, h] at hev
  | release j => exact calls_onCall_of_ne fun h => by simp [Event.isOf, h] at hev
  | openDraft world module owner =>
    show (s.openDraft e world module owner).calls[i]? = _
    rw [(openDraft_effect e s world module owner).2]
  | askDraft j =>
    simp only [step, onDraft]
    cases s.drafts[j]? <;> rfl
  | mergeDraft j reply =>
    simp only [step, onDraft]
    cases s.drafts[j]? <;> rfl

theorem length_calls_step (e : Engine) (s : System) (ev : Event) :
    s.calls.length ≤ (s.step e ev).calls.length := by
  obtain ⟨opened, ws, _, _, hcalls⟩ := s.step_effect e ev
  have hlength := congrArg List.length hcalls
  rw [List.length_append, List.length_map, List.length_map] at hlength
  omega

theorem calls_foldl_of_other {events : List Event} (hevents : ∀ ev ∈ events, ev.isOf i = false)
    (hi : i < s.calls.length) : (events.foldl (step e) s).calls[i]? = s.calls[i]? := by
  induction events generalizing s with
  | nil => rfl
  | cons ev events ih =>
    have hnext : i < (s.step e ev).calls.length := Nat.lt_of_lt_of_le hi (length_calls_step e s ev)
    rw [List.foldl_cons, ih (fun v hv => hevents v (List.mem_cons_of_mem ev hv)) hnext,
      calls_step_of_other (hevents ev List.mem_cons_self) hi]

theorem Sound.foldl (h : s.Sound) (e : Engine) (events : List Event) :
    (events.foldl (System.step e) s).Sound := by
  induction events generalizing s with
  | nil => exact h
  | cons ev events ih => exact ih (h.step e ev)

end System

/-! ## Histories of calls -/

/-- One call of the queue from its lease to its end, with what others commit in between. -/
structure CallHistory where
  /-- What happens before the call begins. -/
  before : List Event
  /-- What happens between the lease and the reading of the prompt. -/
  leased : List Event
  /-- What happens while the generator is asked. -/
  asked : List Event
  reply : GenerationReply
  /-- What happens between the settling transaction and the one that discards the result. -/
  discarded : List Event

namespace CallHistory

variable (e : Engine) (h : CallHistory)

/-- The system that the call begins in. -/
def start : System :=
  System.run e h.before

/-- The number of the call. -/
def number : Nat :=
  (h.start e).calls.length

/-- The system that the call reads its prompt from. -/
def atPrompt : System :=
  h.leased.foldl (System.step e) ((h.start e).step e .lease)

/-- The system that the call settles its job in. -/
def atSettlement : System :=
  h.asked.foldl (System.step e) ((h.atPrompt e).step e (.ask (h.number e)))

/-- The system right after the settling transaction. -/
def afterSettlement : System :=
  (h.atSettlement e).step e (.settle (h.number e) h.reply)

/-- The system that the call discards its result in, if it does. -/
def atDiscard : System :=
  h.discarded.foldl (System.step e) (h.afterSettlement e)

/-- The system right after the result was discarded. -/
def afterDiscard : System :=
  (h.atDiscard e).step e (.release (h.number e))

/-- What taking a job gives. -/
def taken : Except EngineError (Option Job) :=
  ((takeJob : StateM Studio _) (h.start e).studio).1

/-- Whether the call has ended with its settling transaction. -/
def endsSettled : Bool :=
  match (h.afterSettlement e).calls[h.number e]? with
  | some c => match c.stage with
    | .ended _ => true
    | _ => false
  | none => false

/-- The system right after the last transaction of the call. -/
def final : System :=
  if h.endsSettled e then h.afterSettlement e else h.afterDiscard e

/-- What the call comes to. -/
def outcome : QueueOutcome :=
  match h.taken e with
  | .error cause => .storeUnavailable cause.message
  | .ok none => .idle
  | .ok (some _) => ((h.final e).calls[h.number e]?).elim .idle (·.outcome)

/-- The other events are not transactions of the call, and rows can be read when it leases, settles
and discards. -/
structure Admissible : Prop where
  leased : ∀ ev ∈ h.leased, ev.isOf (h.number e) = false
  asked : ∀ ev ∈ h.asked, ev.isOf (h.number e) = false
  discarded : ∀ ev ∈ h.discarded, ev.isOf (h.number e) = false
  readableAtLease : (h.start e).studio.Readable
  readableAtSettlement : (h.atSettlement e).studio.db.Readable
  readableAtDiscard : (h.atDiscard e).studio.db.Readable

/-- What a call that leased a job comes to. -/
structure Returned (job : Job) : Prop where
  outcome : (h.outcome e).Settled job ∨ h.outcome e = .leaseLost job.id
  /-- After its last transaction, the job is gone or does not run. -/
  released : (h.final e).studio.db.Released job
  /-- A call that lost its lease changed no world and nothing that a module says. -/
  harmless : h.outcome e = .leaseLost job.id →
    (h.afterSettlement e).studio.db = (h.atSettlement e).studio.db ∧
      (h.final e).studio.db.worlds = (h.atDiscard e).studio.db.worlds ∧
      (h.atDiscard e).studio.db.SameProse (h.final e).studio.db

/-- The call is idle, or it leases a job and gives the lease back. -/
inductive ReturnsLease : Prop where
  | idle (taken : h.taken e = .ok none) (outcome : h.outcome e = .idle)
    (unchanged : ((h.start e).step e .lease).studio.db = (h.start e).studio.db)
  | returned {job : Job} (taken : h.taken e = .ok (some job)) (h : h.Returned e job)

variable {e h}

theorem sound_start : (h.start e).Sound :=
  System.Sound.run e h.before

theorem sound_atSettlement : (h.atSettlement e).Sound :=
  (((sound_start.step e _).foldl e _).step e _).foldl e _

theorem sound_atDiscard : (h.atDiscard e).Sound :=
  (sound_atSettlement.step e _).foldl e _

/-- A job that is taken opens the call. -/
theorem call_of_taken {job : Job} (htaken : h.taken e = .ok (some job)) :
    ((h.start e).step e .lease).calls = (h.start e).calls ++ [.opened job] := by
  show (h.start e).lease.calls = _
  unfold System.lease
  rcases htake : (takeJob : StateM Studio _) (h.start e).studio with ⟨result, t⟩
  rw [taken, htake] at htaken
  obtain rfl : result = .ok (some job) := htaken
  rfl

/-- Asking prepares the call for settling. -/
theorem stage_ask {c : QueueCall} (hc : c.stage = .leased) (s : Studio) :
    (∃ request, (c.ask e s).1.stage = .asked request) ∨
      ∃ cause, (c.ask e s).1.stage = .refused cause := by
  simp only [QueueCall.ask, hc]
  rcases (e.askFor c.job : StateM Studio _) s with ⟨cause | request, t⟩
  · exact Or.inr ⟨cause, rfl⟩
  · exact Or.inl ⟨request, rfl⟩

/-- A call that has taken a job comes to its settling transaction with a reply or a refusal. -/
theorem call_atSettlement (hothers : h.Admissible e) {job : Job}
    (htaken : h.taken e = .ok (some job)) :
    ∃ c, (h.atSettlement e).calls[h.number e]? = some c ∧ c.job = job ∧
      ((∃ request, c.stage = .asked request) ∨ ∃ cause, c.stage = .refused cause) := by
  have hopened := call_of_taken htaken
  have hcall : ((h.start e).step e .lease).calls[h.number e]? = some (.opened job) := by
    rw [hopened]
    exact List.getElem?_concat_length
  have hlength : h.number e < ((h.start e).step e .lease).calls.length :=
    (List.getElem?_eq_some_iff.1 hcall).1
  have hprompt : (h.atPrompt e).calls[h.number e]? = some (.opened job) := by
    rw [atPrompt, System.calls_foldl_of_other hothers.leased hlength, hcall]
  have hasked : ((h.atPrompt e).step e (.ask (h.number e))).calls[h.number e]? =
      some ((QueueCall.opened job).ask e (h.atPrompt e).studio).1 :=
    (System.onCall_call (·.ask e) hprompt).1
  refine ⟨_, ?_, ((QueueCall.opened job).sameDb_ask e (h.atPrompt e).studio).2, stage_ask rfl _⟩
  rw [atSettlement, System.calls_foldl_of_other hothers.asked
    (List.getElem?_eq_some_iff.1 hasked).1, hasked]

/-- A call that ended with its settling transaction comes to what that transaction came to. -/
theorem outcome_of_settled {job : Job} (htaken : h.taken e = .ok (some job)) {c : QueueCall}
    (hc : (h.afterSettlement e).calls[h.number e]? = some c) {outcome : QueueOutcome}
    (hstage : c.stage = .ended outcome) :
    h.final e = h.afterSettlement e ∧ h.outcome e = outcome := by
  have hfinal : h.final e = h.afterSettlement e := by
    simp only [final, endsSettled, hc, hstage, if_true]
  refine ⟨hfinal, ?_⟩
  simp only [CallHistory.outcome, htaken, hfinal, hc, Option.elim_some, QueueCall.outcome, hstage]

/-- A call that discards its result comes to what discarding came to. -/
theorem outcome_of_discarded {job : Job} (htaken : h.taken e = .ok (some job)) {c d : QueueCall}
    (hc : (h.afterSettlement e).calls[h.number e]? = some c) {cause : EngineError}
    (hstage : c.stage = .discarding cause)
    (hd : (h.afterDiscard e).calls[h.number e]? = some d) {outcome : QueueOutcome}
    (hended : d.stage = .ended outcome) :
    h.final e = h.afterDiscard e ∧ h.outcome e = outcome := by
  have hfinal : h.final e = h.afterDiscard e := by
    simp only [final, endsSettled, hc, hstage, Bool.false_eq_true, if_false]
  refine ⟨hfinal, ?_⟩
  simp only [CallHistory.outcome, htaken, hfinal, hd, Option.elim_some, QueueCall.outcome, hended]

/-- A call that has taken a job gives its lease back. -/
theorem returned_of_taken (hothers : h.Admissible e) {job : Job}
    (htaken : h.taken e = .ok (some job)) : h.Returned e job := by
  obtain ⟨c, hc, rfl, hstage⟩ := call_atSettlement hothers htaken
  have hsettled : (h.afterSettlement e).calls[h.number e]? =
      some (c.settle h.reply (h.atSettlement e).studio).1 :=
    (System.onCall_call (·.settle h.reply) hc).1
  have hstudio : (h.afterSettlement e).studio = (c.settle h.reply (h.atSettlement e).studio).2 :=
    (System.onCall_call (·.settle h.reply) hc).2
  have hjob : (c.settle h.reply (h.atSettlement e).studio).1.job = c.job :=
    (System.settle_effect e h.reply hc).1
  rcases QueueCall.settle_cases (sound_atSettlement (h := h)).db hothers.readableAtSettlement
    h.reply hstage with ⟨outcome, houtcome, hended, hreleased⟩ | ⟨cause, hloss, hdiscarding, hsame⟩
  · obtain ⟨hfinal, hequal⟩ := outcome_of_settled htaken hsettled hended
    rw [← hstudio] at hreleased
    refine ⟨Or.inl (hequal ▸ houtcome), by rwa [hfinal], fun hlost => ?_⟩
    rw [hequal] at hlost
    rw [hlost] at houtcome
    cases houtcome
  · have hkept : (h.atDiscard e).calls[h.number e]? =
        some (c.settle h.reply (h.atSettlement e).studio).1 := by
      rw [atDiscard, System.calls_foldl_of_other hothers.discarded
        (List.getElem?_eq_some_iff.1 hsettled).1, hsettled]
    generalize hd : (c.settle h.reply (h.atSettlement e).studio).1 = d at *
    have hreleasedCall : (h.afterDiscard e).calls[h.number e]? =
        some (d.release (h.atDiscard e).studio).1 := (System.onCall_call (·.release) hkept).1
    have hend : (h.afterDiscard e).studio = (d.release (h.atDiscard e).studio).2 :=
      (System.onCall_call (·.release) hkept).2
    obtain ⟨hended, hreleased, hworlds, hprose⟩ := QueueCall.release_of_loss
      (sound_atDiscard (h := h)).db hothers.readableAtDiscard hloss hdiscarding
    obtain ⟨hfinal, hequal⟩ := outcome_of_discarded htaken hsettled hdiscarding hreleasedCall hended
    rw [← hend, hjob] at hreleased
    rw [← hend] at hworlds hprose
    rw [hjob] at hequal
    rw [← hfinal] at hreleased hworlds hprose
    exact ⟨Or.inr hequal, hreleased, fun _ => ⟨by rw [hstudio, hsame], hworlds, hprose⟩⟩

/-- Settling ends the call or leaves its result to be discarded. -/
theorem stage_settle {c : QueueCall}
    (hstage : (∃ request, c.stage = .asked request) ∨ ∃ cause, c.stage = .refused cause)
    (reply : GenerationReply) (s : Studio) :
    (∃ outcome, (c.settle reply s).1.stage = .ended outcome) ∨
      ∃ cause, (c.settle reply s).1.stage = .discarding cause := by
  have hrecord (d : QueueCall) (content : Except EngineError String) :
      (∃ outcome, (d.record content s).1.stage = .ended outcome) ∨
        ∃ cause, (d.record content s).1.stage = .discarding cause := by
    unfold QueueCall.record
    rcases (Engine.record d.job content : StateM Studio _) s with ⟨cause | outcome, t⟩
    · exact Or.inr ⟨cause, rfl⟩
    · exact Or.inl ⟨outcome, rfl⟩
  rcases hstage with ⟨request, hstage⟩ | ⟨cause, hstage⟩ <;>
    · simp only [QueueCall.settle, hstage]
      exact hrecord _ _

/-- Discarding ends the call. -/
theorem stage_release {c : QueueCall} {cause : EngineError} (hstage : c.stage = .discarding cause)
    (s : Studio) : ∃ outcome, (c.release s).1.stage = .ended outcome := by
  simp only [QueueCall.release, hstage]
  exact ⟨_, rfl⟩

/-- A generator that only answers leaves the settling to its answer. -/
theorem settle_answer (e : Engine) {c : QueueCall}
    (hstage : (∃ request, c.stage = .asked request) ∨ ∃ cause, c.stage = .refused cause)
    (reply : GenerationReply) (s : Studio) :
    c.settle (c.stage.answer e (fun _ _ => pure (some reply)) s).1
        (c.stage.answer e (fun _ _ => pure (some reply)) s).2 = c.settle reply s := by
  rcases hstage with ⟨request, hstage⟩ | ⟨cause, hstage⟩
  · simp only [CallStage.answer, QueueCall.settle, hstage]
    rfl
  · simp only [CallStage.answer, QueueCall.settle, hstage]

/-- A call that nobody comes between is processing the queue once. -/
theorem processQueue_alone (e : Engine) (h : CallHistory) (hleased : h.leased = [])
    (hasked : h.asked = []) (hdiscarded : h.discarded = []) :
    (e.processQueue (fun _ _ => pure (some h.reply)) : StateM Studio _) (h.start e).studio =
      (h.outcome e, (h.final e).studio) := by
  have hsettlement : h.atSettlement e = (h.start e).lease.onCall (·.ask e) (h.number e) := by
    rw [atSettlement, hasked, atPrompt, hleased]
    rfl
  have hafter : h.afterSettlement e = (h.atSettlement e).onCall (·.settle h.reply) (h.number e) :=
    rfl
  have hdiscard : h.afterDiscard e = (h.afterSettlement e).onCall (·.release) (h.number e) := by
    rw [afterDiscard, atDiscard, hdiscarded]
    rfl
  -- A call that takes nothing leaves no transaction to come.
  have hnothing (hcall : (h.start e).lease.calls[h.number e]? = none) :
      h.final e = (h.start e).lease := by
    rw [System.onCall_of_none hcall] at hsettlement
    rw [hsettlement, System.onCall_of_none hcall] at hafter
    rw [hafter, System.onCall_of_none hcall] at hdiscard
    rw [final, hafter, hdiscard, ite_self]
  rw [processQueue_eq]
  rcases htake : (takeJob : StateM Studio _) (h.start e).studio with ⟨cause | _ | job, t⟩
  · have hlease : (h.start e).lease = { h.start e with studio := t } := by
      rw [System.lease, htake]
    have htaken : h.taken e = .error cause := by rw [taken, htake]
    rw [hnothing (by rw [hlease]; exact List.getElem?_eq_none (Nat.le_refl _)), hlease]
    simp only [CallHistory.outcome, htaken]
  · have hlease : (h.start e).lease = { h.start e with studio := t } := by
      rw [System.lease, htake]
    have htaken : h.taken e = .ok none := by rw [taken, htake]
    rw [hnothing (by rw [hlease]; exact List.getElem?_eq_none (Nat.le_refl _)), hlease]
    simp only [CallHistory.outcome, htaken]
  · have htaken : h.taken e = .ok (some job) := by rw [taken, htake]
    have hcall : (h.start e).lease.calls[h.number e]? = some (.opened job) := by
      rw [show (h.start e).lease.calls = _ from call_of_taken htaken]
      exact List.getElem?_concat_length
    have hstudio : (h.start e).lease.studio = t := by
      rw [System.lease, htake]
    have hask := System.onCall_call (·.ask e) hcall
    rw [hstudio, ← hsettlement] at hask
    have hsettle := System.onCall_call (·.settle h.reply) hask.1
    rw [hask.2, ← hafter] at hsettle
    have hrelease := System.onCall_call (·.release) hsettle.1
    rw [hsettle.2, ← hdiscard] at hrelease
    have hstage := stage_ask (e := e) (c := .opened job) rfl t
    simp only [settle_answer e hstage]
    have hsettled := stage_settle hstage h.reply ((QueueCall.opened job).ask e t).2
    generalize ((QueueCall.opened job).ask e t).1.settle h.reply
      ((QueueCall.opened job).ask e t).2 = settled at *
    rcases hsettled with ⟨outcome, hended⟩ | ⟨cause, hdiscarding⟩
    · obtain ⟨hfinal, houtcome⟩ := outcome_of_settled htaken hsettle.1 hended
      rw [hfinal, houtcome, hsettle.2]
      simp only [QueueCall.release, QueueCall.outcome, hended]
    · obtain ⟨outcome, hended⟩ := stage_release hdiscarding settled.2
      obtain ⟨hfinal, houtcome⟩ :=
        outcome_of_discarded htaken hsettle.1 hdiscarding hrelease.1 hended
      rw [hfinal, houtcome, hrelease.2]
      simp only [QueueCall.outcome, hended]

/-- Whatever others commit in between and whatever the generator answers, a call of the queue gives
its lease back. -/
theorem leaseReturned (e : Engine) (h : CallHistory) (hothers : h.Admissible e) :
    h.ReturnsLease e := by
  have hsound := (sound_start (e := e) (h := h)).db
  cases hnext : Jobs.nextRow? (h.start e).studio.db with
  | none =>
    have hlease := yields_leaseNext_none hsound.complete hnext
    have htake : (takeJob : StateM Studio _) (h.start e).studio =
        (.ok none, (h.start e).studio.ticked) := by
      rw [takeJob_run, show leaseNext (h.start e).studio = (.ok none, _) from hlease]
    have htaken : h.taken e = .ok none := congrArg Prod.fst htake
    refine .idle htaken (by simp only [CallHistory.outcome, htaken]) ?_
    show (h.start e).lease.studio.db = _
    rw [System.lease, htake]
    rfl
  | some row =>
    obtain ⟨job, t, hlease⟩ :=
      yields_leaseNext_some hsound.complete hothers.readableAtLease hnext
    have htaken : h.taken e = .ok (some job) := by
      rw [taken, takeJob_run, show leaseNext (h.start e).studio = (.ok (some job), t) from hlease]
    exact .returned htaken (returned_of_taken hothers htaken)

/-- A call whose world is deleted while the generator is asked. -/
def deletion : CallHistory where
  before := [.createFirst, .publishFirst]
  leased := []
  asked := [.command (.softDelete (.mint 0))]
  reply := .ok "prose"
  discarded := []

/-- The call whose world is deleted loses its lease and gives it back. -/
theorem leaseReturned_deletion : deletion.Admissible .minimal ∧
    deletion.outcome .minimal = .leaseLost (.mint 2) ∧ deletion.ReturnsLease .minimal := by
  have hothers : deletion.Admissible .minimal :=
    ⟨by decide, by decide, by decide, by decide +kernel, by decide +kernel, by decide +kernel⟩
  exact ⟨hothers, by decide +kernel, leaseReturned .minimal deletion hothers⟩

end CallHistory

end Lorebook
