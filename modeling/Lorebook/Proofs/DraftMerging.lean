import Lorebook.Proofs.FieldHistory
import Lorebook.Proofs.Isolation

set_option autoImplicit false

/-! # Merging a draft

A reply to a draft request is an object that proposes field values. What its last entry for a key
gives is said by `Engine.given?`, apart from how the reply is taken apart: text for the fields that
the module has, and nothing for null, for objects, for what is blank and for keys that are not
fields. A merge sets exactly these values over those that are stored by then, and everything else of
the database stays (`Database.Merged`). A call that comes to no merge leaves the database as the
generator left it (`Engine.generateModule_merges`). -/

namespace Lorebook

open Studio Operation

/-! ## What a value gives for a field -/

namespace Json

/-- The line that an item of a list gives: a string as it is, a number as it is written. -/
def line? : Json → Option String
  | .str s => some s
  | .num n => some n.text
  | _ => none

/-- The text that a value gives for a field: that of a string, a number or a boolean, or the lines of
a list; trimmed, unless nothing is left. Null and objects give none. -/
def fieldText? : Json → Option String
  | .str s => Text.trimmed? s
  | .num n => Text.trimmed? n.text
  | .bool b => Text.trimmed? (if b then "true" else "false")
  | .arr items => Text.trimmed? (String.intercalate "\n" (items.filterMap line?))
  | .null => none
  | .obj _ => none

theorem line?_canonical (v : Json) : v.canonical.line? = v.line? := by
  cases v <;> simp only [canonical, line?]

theorem filterMap_canonicalItems (items : List Json) :
    (canonicalItems items).filterMap line? = items.filterMap line? := by
  induction items with
  | nil => rfl
  | cons v rest ih =>
    rw [canonicalItems, List.filterMap_cons, List.filterMap_cons, line?_canonical, ih]

/-- The order of entries inside a value does not matter for what it gives. -/
theorem fieldText?_canonical (v : Json) : v.canonical.fieldText? = v.fieldText? := by
  cases v with
  | arr items => rw [canonical, fieldText?, fieldText?, filterMap_canonicalItems]
  | _ => simp only [canonical, fieldText?]

theorem lookup?_canonicalEntries (key : String) (entries : List (String × Json)) :
    lookup? key (canonicalEntries entries).reverse =
      (lookup? key entries.reverse).map canonical := by
  have hmap : canonicalEntries entries = entries.map fun e => (e.1, e.2.canonical) := by
    induction entries with
    | nil => rfl
    | cons e rest ih => rw [canonicalEntries, List.map_cons, ih]
  rw [hmap, ← List.map_reverse]
  generalize entries.reverse = rows
  induction rows with
  | nil => rfl
  | cons e rest ih => grind [lookup?]

end Json

namespace Dictionary

variable {α : Type}

theorem nodup_keys_reverse (d : Dictionary α) : (d.entries.reverse.map (·.1)).Nodup := by
  rw [List.map_reverse, List.nodup_reverse]
  refine (List.pairwise_map.2 d.ascending).imp ?_
  rintro a b hlt rfl
  exact String.lt_irrefl a hlt

/-- No key has two entries, so it does not matter from which end they are looked at. -/
theorem lookup?_reverse (d : Dictionary α) (k : String) :
    lookup? k d.entries.reverse = d.find? k := by
  rw [← lookup?_sortEntries, ← entries_ofList, ofList_entries]
  rfl

/-- In a list of entries the last one of a key wins. -/
theorem find?_ofList (entries : List (String × α)) (k : String) :
    (ofList entries).find? k = lookup? k entries.reverse := by
  rw [find?, entries_ofList, lookup?_sortEntries]

end Dictionary

namespace Engine

theorem line?_eq (v : Json) : v.line? = if isLine v then some (displayText (some v)) else none := by
  cases v with
  | num n => simp only [Json.line?, isLine, displayText, Json.compact, if_true]
  | _ => rfl

theorem map_filter_isLine (items : List Json) :
    (items.filter isLine).map (fun v => displayText (some v)) = items.filterMap Json.line? := by
  induction items with
  | nil => rfl
  | cons v rest ih =>
    rw [List.filter_cons, List.filterMap_cons, line?_eq]
    split
    · rw [List.map_cons, ih]
    · exact ih

theorem proposedText?_eq (v : Json) : proposedText? v = v.fieldText? := by
  cases v with
  | bool b => cases b <;> rfl
  | num n => simp only [proposedText?, displayText, Json.compact, Json.fieldText?]
  | arr items => rw [proposedText?, map_filter_isLine, Json.fieldText?]
  | _ => rfl

/-! ## What a reply gives -/

/-- The entries of the object that a reply holds, as they are written. -/
def replyObject? (reply : String) : Option (List (String × Json)) :=
  match Json.readAll false Json.maxDepth (unfenced reply) with
  | some (.obj entries) => some entries
  | _ => none

/-- The text that an object gives for a field of a module: that of its last entry for the key. -/
def given? (d : ModuleDefinition) (object : List (String × Json)) (key : String) :
    Option String :=
  if (d.field? key).isSome then (lookup? key object.reverse).bind Json.fieldText? else none

/-- Of entries with distinct keys, the one under a key decides what is gathered under the key. -/
theorem lookup?_filterMap {α β : Type} (f : String → α → Option β)
    {entries : List (String × α)} (hkeys : (entries.map (·.1)).Nodup) (key : String) :
    lookup? key (entries.filterMap fun e => (f e.1 e.2).map (e.1, ·)) =
      (lookup? key entries).bind (f key) := by
  induction entries with
  | nil => rfl
  | cons e rest ih =>
    obtain ⟨k, v⟩ := e
    obtain ⟨hnew, hrest⟩ := List.nodup_cons.1 hkeys
    have ih := ih hrest
    by_cases heq : key = k
    · -- No other entry has the key.
      subst heq
      have hnone : lookup? key rest = none :=
        List.lookup_eq_none_iff.2 fun e he => bne_iff_ne.2 fun h =>
          hnew (h ▸ List.mem_map_of_mem (f := (·.1)) he)
      rw [hnone] at ih
      rw [lookup?_cons, if_pos rfl, Option.bind_some, List.filterMap_cons]
      cases f key v with
      | none => exact ih
      | some t => exact (lookup?_cons key key t _).trans (if_pos rfl)
    · rw [lookup?_cons, if_neg heq, ← ih, List.filterMap_cons]
      cases f k v with
      | none => rfl
      | some t => exact (lookup?_cons key k t _).trans (if_neg heq)

/-- What the entries of a dictionary propose. -/
theorem lookup?_proposedFields (d : ModuleDefinition) (entries : Dictionary Json)
    (key : String) : lookup? key (proposedFields d entries.entries).reverse =
      if (d.field? key).isSome then (entries.find? key).bind Json.fieldText? else none := by
  let text? (k : String) (v : Json) : Option String :=
    if (d.field? k).isSome then v.fieldText? else none
  have hfilter : (proposedFields d entries.entries).reverse =
      entries.entries.reverse.filterMap fun e => (text? e.1 e.2).map (e.1, ·) := by
    rw [proposedFields, List.filterMap_filter, ← List.filterMap_reverse]
    refine congrArg (entries.entries.reverse.filterMap ·) (funext fun e => ?_)
    simp only [text?, proposedText?_eq]
    split <;> rfl
  rw [hfilter, lookup?_filterMap text? entries.nodup_keys_reverse, entries.lookup?_reverse]
  simp only [text?]
  split
  · rfl
  · exact Option.bind_fun_none _

/-- A reply is parsed as what its object gives, or it holds no object. -/
theorem parseProposal_cases (d : ModuleDefinition) (reply : String) :
    (∃ object proposed, replyObject? reply = some object ∧
        parseProposal d reply = .ok proposed ∧
        ∀ key, lookup? key proposed.reverse = given? d object key) ∨
      (replyObject? reply = none ∧ ∃ detail,
        parseProposal d reply = .error (.malformedResponse detail)) := by
  unfold replyObject? parseProposal Json.parse?
  rw [String.toList_ofList]
  cases hread : Json.readAll false Json.maxDepth (unfenced reply) with
  | none => exact Or.inr ⟨rfl, _, rfl⟩
  | some v =>
    cases v with
    | obj entries =>
      refine Or.inl ⟨entries, _, rfl, rfl, fun key => ?_⟩
      rw [← Dictionary.entries_ofList, lookup?_proposedFields, Dictionary.find?_ofList,
        Json.lookup?_canonicalEntries, given?, Option.bind_map]
      simp only [Function.comp_def, Json.fieldText?_canonical]
    | _ => exact Or.inr ⟨rfl, _, rfl⟩

end Engine

/-! ## What a merge leaves -/

/-- What merging an object into a module leaves: each field has what the object gives for it, or what
was stored. The module is ready, with the fingerprint of its fields; a row that was there keeps its
name, its content and its time of creation, and nothing else changes. -/
structure Database.Merged (db db' : Database) (id : WorldId) (d : ModuleDefinition)
    (owner : OwnerId) (object : List (String × Json)) (m : WorldModule) : Prop where
  fields : ∀ key, (db'.fieldMap id d.key).find? key =
    (Engine.given? d object key).or ((db.fieldMap id d.key).find? key)
  row : ∃ r', db'.modules.find? (Modules.isOf id d.key) = some r' ∧
    r'.status = .text ModuleStatus.ready.text ∧
    r'.hash = .text (contentHash (db'.fieldMap id d.key)) ∧
    r'.lastEditor = .text owner.text ∧
    ∀ r, db.modules.find? (Modules.isOf id d.key) = some r →
      r'.id = r.id ∧ r'.content = r.content ∧ r'.createdAt = r.createdAt
  modules : ∀ r : ModuleRow, Modules.isOf id d.key r = false → (r ∈ db'.modules ↔ r ∈ db.modules)
  worlds : db'.worlds = db.worlds
  jobs : db'.jobs = db.jobs
  returned : m.world = id ∧ m.key = d.key ∧ m.fields = db'.fieldMap id d.key

namespace Engine

variable {id : WorldId} {d : ModuleDefinition} {owner : OwnerId} {s s' : Studio} {m : WorldModule}

theorem merged_of_mergeDraft {proposed : List (String × String)} {object : List (String × Json)}
    (hgiven : ∀ key, lookup? key proposed.reverse = given? d object key)
    (h : Yields (mergeDraft id d owner proposed) s m s') :
    s.db.Merged s'.db id d owner object m := by
  obtain ⟨m₀, now, hm₀, rfl, hcommit⟩ := commit_mergeDraft h
  -- The module that is saved, under the names that it was found by.
  generalize hm : (drafted proposed m₀).touch (some owner) now = m at hcommit
  have hworld : m.world = id := hm ▸ hm₀.world_eq
  have hkey : m.key = d.key := hm ▸ hm₀.key_eq
  have hfields : m.fields = (s.db.fieldMap id d.key).insertAll proposed := by
    rw [← hm₀.fields_eq, ← hm]
    rfl
  have hdb : s'.db = (Write.saveModule m).apply s.db :=
    Journal.nil_iff.1 (Journal.cons_iff.1 hcommit.journal).2
  have hmap : s'.db.fieldMap id d.key = m.fields := by
    rw [hdb, Database.fieldMap_saveModule, if_pos ⟨hworld, hkey⟩]
  have hhash : m.hash = some (contentHash m.fields) := by rw [← hm]; rfl
  have hfound : s'.db.modules.find? (Modules.isOf id d.key) =
      some (((s.db.modules.find? (Modules.isOf id d.key)).map
        (Modules.overwritten (ModuleRow.ofModule m))).getD (ModuleRow.ofModule m)) := by
    rw [hdb, ← hworld, ← hkey]
    exact Write.find?_saveModule_self
  have hcells : (.text m.status.text : Cell) = .text ModuleStatus.ready.text ∧
      Cell.ofOption m.hash = .text (contentHash (s'.db.fieldMap id d.key)) ∧
      Cell.ofOption (m.lastEditor.map (·.text)) = .text owner.text := by
    rw [hmap, hhash, ← hm]
    exact ⟨rfl, rfl, rfl⟩
  obtain ⟨hstatus, hhash, heditor⟩ := hcells
  refine ⟨fun key => ?_, ⟨_, hfound, ?_⟩, fun r hr => ?_, hdb ▸ rfl, hdb ▸ rfl, hworld, hkey,
    hmap.symm⟩
  · rw [hmap, hfields, Dictionary.find?_insertAll, hgiven]
  · cases hm₀ with
    | stored hstored =>
      obtain ⟨row, hfind, hdecode⟩ := hstored
      rw [hfind]
      refine ⟨hstatus, hhash, heditor, fun r hr => ?_⟩
      obtain rfl := Option.some.inj hr
      have hcontent : m.content = _ := congrArg WorldModule.content hm.symm
      exact ⟨rfl, (congrArg Cell.ofOption hcontent).trans
        (ModuleRow.holds_of_decode hdecode).content.symm, rfl⟩
    | fresh habsent _ _ =>
      rw [Modules.find?_isOf_eq_none habsent]
      exact ⟨hstatus, hhash, heditor, fun r hr => nomatch hr⟩
  · rw [hdb]
    exact Write.mem_saveModule_of_other (by rwa [hworld, hkey])

end Engine

/-! ## What a reply comes to -/

namespace Engine

/-- What the reply to a draft request comes to, on the studio that it arrives on. -/
structure AcceptsDraft (u : Studio) (id : WorldId) (d : ModuleDefinition) (owner : OwnerId)
    (reply : GenerationReply) (result : Except EngineError WorldModule) (s' : Studio) : Prop where
  /-- What succeeds is the merge of the object that the reply holds. -/
  merges : ∀ m, result = .ok m → ∃ text object, reply = .ok text ∧
    replyObject? text = some object ∧ u.db.Merged s'.db id d owner object m
  /-- What fails changes nothing. -/
  keeps : ∀ cause, result = .error cause → s'.db = u.db
  unanswered : ∀ cause, reply = .error cause → result = .error (.generation cause)
  malformed : ∀ text, reply = .ok text → replyObject? text = none →
    ∃ detail, result = .error (.generation (.malformedResponse detail))
  /-- A job that is found then and that waits or runs is in the way. -/
  queued : ∀ text object, reply = .ok text → replyObject? text = some object →
    ∀ job, Yields (Jobs.find? id d.key) u.db (some job) u.db → job.status.isTerminal = false →
      result = .error (.conflict (.moduleQueued d.key job.status.text))

/-- How a call for a draft goes. -/
inductive DraftCourse (e : Engine) (g : Generator (StateM Studio)) (id : WorldId) (module : String)
    (owner : OwnerId) (s : Studio) : Except EngineError WorldModule → Studio → Prop where
  | unknown {cause : RegistryError} (h : e.registry.require module = .error cause) :
      DraftCourse e g id module owner s (.error (.ofRegistry cause)) s
  | refused {d : ModuleDefinition} (hd : e.registry.require module = .ok d) {cause : EngineError}
      {t : Studio} (h : Fails (e.draftRequest id d owner) s cause t) (ht : t.db = s.db) :
      DraftCourse e g id module owner s (.error cause) t
  | asked {d : ModuleDefinition} (hd : e.registry.require module = .ok d)
      {request : GenerationRequest} {t u s' : Studio} {reply : GenerationReply}
      {result : Except EngineError WorldModule}
      (h : Yields (e.draftRequest id d owner) s request t) (ht : t.db = s.db)
      (hreply : g.call e.timeout request t = (reply, u))
      (haccepts : AcceptsDraft u id d owner reply result s') :
      DraftCourse e g id module owner s result s'

section

variable {id : WorldId} {d : ModuleDefinition} {owner : OwnerId} {s s' u : Studio}

/-- What a reply proposes is merged, when it is accepted. -/
theorem merged_of_acceptDraft {reply : GenerationReply} {m : WorldModule}
    (h : Yields (acceptDraft id d owner reply) u m s') :
    ∃ text object, reply = .ok text ∧ replyObject? text = some object ∧
      u.db.Merged s'.db id d owner object m := by
  simp only [acceptDraft, yields_bind, yields_ofExcept, yields_tell] at h
  obtain ⟨text, _, ⟨rfl, rfl⟩, proposed, u, ⟨hproposed, rfl⟩, _, _, rfl, hmerge⟩ := h
  rcases parseProposal_cases d text with ⟨object, found, hobject, hparse, hgiven⟩ | ⟨_, _, hparse⟩
  · obtain rfl := Except.ok.inj (hparse.symm.trans hproposed)
    have hmerged := merged_of_mergeDraft hgiven hmerge
    exact ⟨text, object, rfl, hobject, hmerged⟩
  · rw [hparse] at hproposed
    cases hproposed

theorem fails_acceptDraft_of_malformed {text : String} (h : replyObject? text = none) :
    ∃ detail, Fails (acceptDraft id d owner (.ok text)) u
      (.generation (.malformedResponse detail)) u := by
  rcases parseProposal_cases d text with ⟨_, _, hobject, _⟩ | ⟨_, detail, hparse⟩
  · rw [h] at hobject
    cases hobject
  · refine ⟨detail, Yields.bind_fails (Yields.pure text u) (Fails.bind ?_)⟩
    rw [hparse]
    exact Fails.throw _ u

theorem fails_acceptDraft_of_queued {text : String} {object : List (String × Json)}
    (hobject : replyObject? text = some object) {job : Job}
    (hfind : Yields (Jobs.find? id d.key) u.db (some job) u.db)
    (hopen : job.status.isTerminal = false) :
    ∃ t, Fails (acceptDraft id d owner (.ok text)) u
      (.conflict (.moduleQueued d.key job.status.text)) t := by
  rcases parseProposal_cases d text with ⟨_, proposed, _, hparse, _⟩ | ⟨hnone, _⟩
  swap
  · rw [hobject] at hnone
    cases hnone
  let t := u.told ⟨.debug, .drafting, "draft reply parsed", [("fields", .nat proposed.length)]⟩
  have hqueued : Fails (ensureNotQueued id d.key) t
      (.conflict (.moduleQueued d.key job.status.text)) t := by
    refine Yields.bind_fails (Yields.store t hfind) ?_
    simp only [hopen]
    exact Fails.throw _ t
  have hmerge : Fails (mergeDraft id d owner proposed) t
      (.conflict (.moduleQueued d.key job.status.text)) t := hqueued.bind.atomically
  have hproposed : Yields (ofExcept .generation (parseProposal d text)) u proposed u :=
    (yields_ofExcept _ _ u proposed u).2 ⟨hparse, rfl⟩
  exact ⟨_, Yields.bind_fails (Yields.pure text u) (hproposed.bind_fails
    ((yields_told _ u).bind_fails hmerge))⟩

theorem acceptsDraft_acceptDraft (u : Studio) (id : WorldId) (d : ModuleDefinition)
    (owner : OwnerId) (reply : GenerationReply) :
    AcceptsDraft u id d owner reply (acceptDraft id d owner reply u).1
      (acceptDraft id d owner reply u).2 where
  merges m h := merged_of_acceptDraft (Prod.ext h rfl)
  keeps cause h := (failsClean_acceptDraft id d owner reply (Prod.ext h rfl)).1
  unanswered cause h := by
    subst h
    exact congrArg Prod.fst (Fails.bind (Fails.throw (EngineError.generation cause) u))
  malformed text h hnone := by
    subst h
    obtain ⟨detail, hfails⟩ := fails_acceptDraft_of_malformed hnone
    exact ⟨detail, congrArg Prod.fst hfails⟩
  queued text object h hobject job hfind hopen := by
    subst h
    obtain ⟨t, hfails⟩ := fails_acceptDraft_of_queued hobject hfind hopen
    exact congrArg Prod.fst hfails

end

/-- A call for a draft is refused and changes nothing, or its generator is asked. Then the object in
the reply is merged over what is stored when it arrives, or, if there is none or the module is
queued, nothing changes. -/
theorem generateModule_merges (e : Engine) (g : Generator (StateM Studio)) (id : WorldId)
    (module : String) (owner : OwnerId) (s : Studio) :
    DraftCourse e g id module owner s (e.generateModule g id module owner s).1
      (e.generateModule g id module owner s).2 := by
  unfold generateModule
  cases hd : e.registry.require module with
  | error cause => exact .unknown hd
  | ok d =>
    simp only
    rw [StateM.bind_run, perform_run]
    have hsame := sameDb_draftRequest e id d owner s
    rcases hrequest : e.draftRequest id d owner s with ⟨cause | request, t⟩
    · rw [hrequest] at hsame
      exact .refused hd hrequest hsame.1
    · rw [hrequest] at hsame
      exact .asked hd hrequest hsame.1 rfl (acceptsDraft_acceptDraft _ id d owner _)

end Engine

end Lorebook
