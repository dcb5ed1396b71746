import Lorebook.Proofs.Journal

set_option autoImplicit false

/-! # What statements find and write

Statements that read leave the database and give what a row of it holds; statements that write are
one write of the journal each, and leave the database when they fail. -/

namespace Lorebook

open Statement

/-! ## Rows of one name -/

theorem WorldId.eq_of_text {a b : WorldId} (h : a.text = b.text) : a = b := by
  cases a
  cases b
  rw [WorldId.mk.injEq]
  exact h

theorem OwnerId.eq_of_text {a b : OwnerId} (h : a.text = b.text) : a = b := by
  cases a
  cases b
  rw [OwnerId.mk.injEq]
  exact h

theorem JobId.eq_of_text {a b : JobId} (h : a.text = b.text) : a = b := by
  cases a
  cases b
  rw [JobId.mk.injEq]
  exact h

theorem Worlds.isLive_iff {id : WorldId} {r : WorldRow} :
    isLive id r = true ↔ r.id = .text id.text ∧ r.deletedAt.isNull = true := by
  simp [isLive, Cell.isText_iff]

theorem Modules.isOf_iff {world : WorldId} {key : String} {r : ModuleRow} :
    isOf world key r = true ↔ r.world = .text world.text ∧ r.key = .text key := by
  simp [isOf, Cell.isText_iff]

theorem Modules.find?_isOf_eq_none {world : WorldId} {key : String} {rows : List ModuleRow}
    (h : ∀ r ∈ rows, isOf world key r = false) : rows.find? (isOf world key) = none :=
  List.find?_eq_none.2 fun r hr => by simp [h r hr]

/-- A live world of the database. -/
def Database.LiveWorld (db : Database) (id : WorldId) (w : World) : Prop :=
  ∃ row, db.worlds.find? (Worlds.isLive id) = some row ∧ row.decode = .ok w

/-- A stored module of the database. -/
def Database.StoredModule (db : Database) (world : WorldId) (key : String) (m : WorldModule) :
    Prop :=
  ∃ row, db.modules.find? (Modules.isOf world key) = some row ∧ row.decode = .ok m

theorem Database.LiveWorld.id_eq {db : Database} {id : WorldId} {w : World}
    (h : db.LiveWorld id w) : w.id = id := by
  obtain ⟨row, hfind, hdecode⟩ := h
  have hid := (Worlds.isLive_iff.1 (List.find?_some hfind)).1
  rw [(WorldRow.holds_of_decode hdecode).id, Cell.text.injEq] at hid
  exact WorldId.eq_of_text hid

theorem Database.LiveWorld.unique {db : Database} {id : WorldId} {w v : World}
    (h : db.LiveWorld id w) (h' : db.LiveWorld id v) : w = v := by
  obtain ⟨row, hfind, hdecode⟩ := h
  obtain ⟨row', hfind', hdecode'⟩ := h'
  obtain rfl := Option.some.inj (hfind.symm.trans hfind')
  exact Except.ok.inj (hdecode.symm.trans hdecode')

theorem Database.StoredModule.world_eq {db : Database} {world : WorldId} {key : String}
    {m : WorldModule} (h : db.StoredModule world key m) : m.world = world := by
  obtain ⟨row, hfind, hdecode⟩ := h
  have hworld := (Modules.isOf_iff.1 (List.find?_some hfind)).1
  rw [(ModuleRow.holds_of_decode hdecode).world, Cell.text.injEq] at hworld
  exact WorldId.eq_of_text hworld

theorem Database.StoredModule.key_eq {db : Database} {world : WorldId} {key : String}
    {m : WorldModule} (h : db.StoredModule world key m) : m.key = key := by
  obtain ⟨row, hfind, hdecode⟩ := h
  have hkey := (Modules.isOf_iff.1 (List.find?_some hfind)).2
  rw [(ModuleRow.holds_of_decode hdecode).key, Cell.text.injEq] at hkey
  exact hkey

/-! ## Worlds -/

namespace Worlds

theorem reads_find? (id : WorldId) : Reads (find? id) := by
  refine respects_bind (reads_needs _) fun _ => respects_bind respects_get fun db => ?_
  split
  · exact respects_bind (reads_ofDecoded _) fun _ => respects_pure _
  · exact respects_pure _

theorem reads_require (id : WorldId) : Reads (require id) := by
  refine respects_bind (reads_find? id) fun found => ?_
  cases found with
  | none => exact respects_throw _
  | some w => exact respects_pure w

theorem liveWorld_of_require {id : WorldId} {db : Database} {w : World} {db' : Database}
    (h : Yields (require id) db w db') : db.LiveWorld id w := by
  simp only [require, find?, yields_bind, yields_needs, yields_get] at h
  obtain ⟨found, t, ⟨_, _, ⟨_, rfl⟩, _, _, ⟨rfl, rfl⟩, hfound⟩, h⟩ := h
  split at hfound
  · rename_i row hrow
    simp only [yields_bind, yields_ofDecoded, yields_pure] at hfound
    obtain ⟨v, _, ⟨hdecode, rfl⟩, rfl, rfl⟩ := hfound
    simp only [yields_pure] at h
    obtain ⟨rfl, -⟩ := h
    exact ⟨row, hrow, hdecode⟩
  · simp only [yields_pure] at hfound
    obtain ⟨rfl, rfl⟩ := hfound
    simp at h

theorem journal_insert {w : World} {db : Database} {u : Unit} {db' : Database}
    (h : Yields (insert w) db u db') : Journal db [.addWorld w] db' := by
  simp only [insert, yields_bind, yields_needs, yields_get, yields_ite, yields_refuse,
    yields_modify, false_and, and_false, exists_false, false_or] at h
  obtain ⟨_, _, ⟨_, rfl⟩, _, _, ⟨rfl, rfl⟩, hnew, rfl⟩ := h
  refine Journal.single (w := .addWorld w) ?_
  intro r hr heq
  exact hnew (List.any_eq_true.2 ⟨r, hr, decide_eq_true heq⟩)

theorem reads_of_fails_insert {w : World} {db : Database} {e : StoreError} {db' : Database}
    (h : Fails (insert w) db e db') : db' = db := by
  simp only [insert, fails_bind, fails_get, fails_ite, fails_modify, refuse, fails_throw,
    yields_throw, yields_get, yields_needs, and_false, exists_false, or_false, false_or] at h
  rcases h with h | ⟨_, _, ⟨_, rfl⟩, _, _, ⟨rfl, rfl⟩, _, _, rfl⟩
  · exact ((reads_needs _).of_fails h).symm
  · rfl

theorem journal_update {w : World} {db : Database} {u : Unit} {db' : Database}
    (h : Yields (update w) db u db') : Journal db [.changeWorld w] db' := by
  simp only [update, yields_bind, yields_needs, yields_get, yields_ite, yields_throw,
    yields_modify, and_false, or_false] at h
  obtain ⟨_, _, ⟨_, rfl⟩, _, _, ⟨rfl, rfl⟩, hlive, rfl⟩ := h
  exact Journal.single (w := .changeWorld w) (List.any_eq_true.1 hlive)

theorem journal_softDelete {id : WorldId} {now : Instant} {db : Database} {u : Unit}
    {db' : Database} (h : Yields (softDelete id now) db u db') :
    Journal db [.hideWorld id now] db' := by
  simp only [softDelete, yields_bind, yields_needs, yields_get, yields_ite, yields_throw,
    yields_modify, and_false, or_false] at h
  obtain ⟨_, _, ⟨_, rfl⟩, _, _, ⟨rfl, rfl⟩, hlive, rfl⟩ := h
  exact Journal.single (w := .hideWorld id now) (List.any_eq_true.1 hlive)

theorem reads_of_fails_softDelete {id : WorldId} {now : Instant} {db : Database} {e : StoreError}
    {db' : Database} (h : Fails (softDelete id now) db e db') : db' = db := by
  simp only [softDelete, fails_bind, fails_get, fails_ite, fails_modify, fails_throw, yields_get,
    yields_needs, and_false, false_or] at h
  rcases h with h | ⟨_, _, ⟨_, rfl⟩, _, _, ⟨rfl, rfl⟩, _, _, rfl⟩
  · exact ((reads_needs _).of_fails h).symm
  · rfl

theorem reads_of_fails_hardDelete {id : WorldId} {db : Database} {e : StoreError}
    {db' : Database} (h : Fails (hardDelete id) db e db') : db' = db := by
  simp only [hardDelete, fails_bind, fails_get, fails_ite, fails_modify, fails_pure, and_false,
    exists_false, or_false] at h
  exact ((reads_needs _).of_fails h).symm

/-- A hard delete removes the world or, when there is none, changes nothing. -/
theorem journal_hardDelete {id : WorldId} {db : Database} {found : Bool} {db' : Database}
    (h : Yields (hardDelete id) db found db') :
    Journal db (if found then [.removeWorld id] else []) db' := by
  simp only [hardDelete, yields_bind, yields_needs, yields_get, yields_ite, yields_pure,
    yields_modify] at h
  obtain ⟨_, _, ⟨_, rfl⟩, _, _, ⟨rfl, rfl⟩, ⟨hany, _, _, rfl, rfl, rfl⟩ | ⟨_, rfl, rfl⟩⟩ := h
  · obtain ⟨r, hr, hid⟩ := List.any_eq_true.1 hany
    exact Journal.single (w := .removeWorld id) ⟨r, hr, Cell.isText_iff.1 hid⟩
  · exact .done _

end Worlds

/-! ## Modules -/

namespace Modules

theorem reads_find? (world : WorldId) (key : String) : Reads (find? world key) := by
  refine respects_bind (reads_needs _) fun _ => respects_bind respects_get fun db => ?_
  split
  · exact respects_bind (reads_ofDecoded _) fun _ => respects_pure _
  · exact respects_pure _

theorem reads_require (world : WorldId) (key : String) : Reads (require world key) := by
  refine respects_bind (reads_find? world key) fun found => ?_
  cases found with
  | none => exact respects_throw _
  | some m => exact respects_pure m

theorem reads_listForWorld (world : WorldId) : Reads (listForWorld world) :=
  respects_bind (reads_needs _) fun _ => respects_bind respects_get fun _ =>
    respects_mapM (fun (r : ModuleRow) => reads_ofDecoded r.decode) _

/-- What is looked up is the stored module, or there is no row of it. -/
theorem find?_cases {world : WorldId} {key : String} {db : Database}
    {found : Option WorldModule} {db' : Database} (h : Yields (find? world key) db found db') :
    (∃ m, found = some m ∧ db.StoredModule world key m) ∨
      (found = none ∧ ∀ r ∈ db.modules, isOf world key r = false) := by
  simp only [find?, yields_bind, yields_needs, yields_get] at h
  obtain ⟨_, _, ⟨_, rfl⟩, _, _, ⟨rfl, rfl⟩, hfound⟩ := h
  split at hfound
  · rename_i row hrow
    simp only [yields_bind, yields_ofDecoded, yields_pure] at hfound
    obtain ⟨m, _, ⟨hdecode, rfl⟩, rfl, rfl⟩ := hfound
    exact Or.inl ⟨m, rfl, row, hrow, hdecode⟩
  · rename_i hnone
    simp only [yields_pure] at hfound
    obtain ⟨rfl, rfl⟩ := hfound
    refine Or.inr ⟨rfl, fun r hr => ?_⟩
    simpa using List.find?_eq_none.1 hnone r hr

/-- The modules of a world are read from rows of it. -/
theorem mem_of_listForWorld {world : WorldId} {db : Database} {ms : List WorldModule}
    {db' : Database} (h : Yields (listForWorld world) db ms db') {m : WorldModule} (hm : m ∈ ms) :
    ∃ r ∈ db.modules, r.world = .text world.text ∧ r.decode = .ok m := by
  simp only [listForWorld, yields_bind, yields_needs, yields_get] at h
  obtain ⟨_, _, ⟨_, rfl⟩, _, db, ⟨rfl, rfl⟩, hrows⟩ := h
  have hmem : (.ok m : Decoded WorldModule) ∈ ms.map .ok := List.mem_map_of_mem hm
  rw [← decoded_of_mapM hrows] at hmem
  obtain ⟨r, hr, hdecode⟩ := List.mem_map.1 hmem
  obtain ⟨hr, hworld⟩ := List.mem_filter.1 (List.mem_mergeSort.1 hr)
  exact ⟨r, hr, Cell.isText_iff.1 hworld, hdecode⟩

theorem stored_of_require {world : WorldId} {key : String} {db : Database} {m : WorldModule}
    {db' : Database} (h : Yields (require world key) db m db') :
    db.StoredModule world key m := by
  simp only [require, yields_bind] at h
  obtain ⟨found, t, hfind, h⟩ := h
  rcases find?_cases hfind with ⟨w, rfl, hstored⟩ | ⟨rfl, _⟩
  · simp only [yields_pure] at h
    obtain ⟨rfl, -⟩ := h
    exact hstored
  · simp at h

theorem journal_save {m : WorldModule} {db : Database} {u : Unit} {db' : Database}
    (h : Yields (save m) db u db') : Journal db [.saveModule m] db' := by
  simp only [save, yields_bind, yields_needs, yields_get, yields_ite, yields_refuse,
    yields_set, and_false, false_or, or_false] at h
  obtain ⟨_, _, ⟨_, rfl⟩, _, _, ⟨_, rfl⟩, _, db, ⟨rfl, rfl⟩, hcase⟩ := h
  -- Updating a row and adding one are the same write.
  have hwrite (hallowed : (Write.saveModule m).Allowed db)
      (heq : db' = (Write.saveModule m).apply db) : Journal db [.saveModule m] db' := by
    rw [heq]
    exact Journal.single hallowed
  rcases hcase with ⟨hstored, rfl⟩ | ⟨hnew, hid, hworld, rfl⟩
  · refine hwrite (Or.inl (List.any_eq_true.1 hstored)) ?_
    simp only [Write.apply, Write.onModules, hstored, if_true, Write.onWorlds, Write.onJobs]
  · refine hwrite (Or.inr ⟨?_, ?_⟩) ?_
    · intro r hr heq
      exact hid (List.any_eq_true.2 ⟨r, hr, decide_eq_true heq⟩)
    · obtain ⟨w, hw, heq⟩ := List.any_eq_true.1 hworld
      exact ⟨w, hw, of_decide_eq_true heq⟩
    · simp only [Write.apply, Write.onModules, hnew, Write.onWorlds, Write.onJobs]
      rfl

end Modules

/-! ## Jobs -/

namespace Jobs

theorem reads_decodeAll (rows : List JobRow) : Reads (decodeAll rows) :=
  respects_mapM (fun (r : JobRow) => reads_ofDecoded r.decode) rows

theorem reads_find? (world : WorldId) (key : String) : Reads (find? world key) :=
  respects_bind (reads_needs _) fun _ => respects_bind respects_get fun _ =>
    respects_bind (reads_decodeAll _) fun _ => respects_pure _

theorem reads_require (id : JobId) : Reads (require id) := by
  refine respects_bind (reads_needs _) fun _ => respects_bind respects_get fun _ =>
    respects_bind (reads_decodeAll _) fun jobs => ?_
  cases jobs.head? with
  | none => exact respects_throw _
  | some j => exact respects_pure j

theorem reads_listForWorld (world : WorldId) : Reads (listForWorld world) :=
  respects_bind (reads_needs _) fun _ => respects_bind respects_get fun _ => reads_decodeAll _

theorem reads_runningOf? (world : WorldId) : Reads (runningOf? world) := by
  refine respects_bind (reads_needs _) fun _ => respects_bind respects_get fun db => ?_
  split
  · exact respects_bind (reads_ofDecoded _) fun _ => respects_pure _
  · exact respects_pure _

theorem reads_runningSinceBefore (cutoff : Instant) : Reads (runningSinceBefore cutoff) :=
  respects_bind (reads_needs _) fun _ => respects_bind respects_get fun _ => reads_decodeAll _

theorem reads_countOutstanding (world : WorldId) : Reads (countOutstanding world) :=
  respects_bind (reads_needs _) fun _ => respects_bind respects_get fun _ => respects_pure _

theorem reads_ensureLeased (id : JobId) (changed : Bool) : Reads (ensureLeased id changed) := by
  cases changed with
  | true => exact respects_pure _
  | false => exact respects_bind (reads_require id) fun _ => respects_throw _

/-- The first job of rows is that of the first row. -/
theorem head?_of_decodeAll {rows : List JobRow} {db : Database} {js : List Job} {db' : Database}
    (h : Yields (decodeAll rows) db js db') :
    (rows = [] ∧ js.head? = none) ∨
      ∃ r ∈ rows, ∃ j, js.head? = some j ∧ r.decode = .ok j := by
  have hrows := decoded_of_mapM h
  cases rows with
  | nil =>
    cases js with
    | nil => exact Or.inl ⟨rfl, rfl⟩
    | cons j js => simp at hrows
  | cons r rows =>
    cases js with
    | nil => simp at hrows
    | cons j js =>
      rw [List.map_cons, List.map_cons, List.cons.injEq] at hrows
      exact Or.inr ⟨r, List.mem_cons_self, j, rfl, hrows.1⟩

/-- The job that is looked up is that of a row of the module, or there is no such row. -/
theorem find?_cases {world : WorldId} {key : String} {db : Database} {found : Option Job}
    {db' : Database} (h : Yields (find? world key) db found db') :
    (∃ j, found = some j ∧ ∃ r ∈ db.jobs, r.world = .text world.text ∧ r.moduleKey = .text key ∧
        r.decode = .ok j) ∨
      (found = none ∧ ∀ r ∈ db.jobs, ¬ (r.world = .text world.text ∧ r.moduleKey = .text key)) := by
  simp only [find?, yields_bind, yields_needs, yields_get, yields_pure] at h
  obtain ⟨_, _, ⟨_, rfl⟩, _, db, ⟨rfl, rfl⟩, js, _, hrows, rfl, rfl⟩ := h
  rcases head?_of_decodeAll hrows with ⟨hnil, hnone⟩ | ⟨r, hr, j, hhead, hdecode⟩
  · refine Or.inr ⟨hnone, fun r hr hkey => ?_⟩
    have hmem := List.filter_eq_nil_iff.1 hnil r hr
    simp [Cell.isText_iff, hkey] at hmem
  · obtain ⟨hr, hkey⟩ := List.mem_filter.1 hr
    rw [Bool.and_eq_true, Cell.isText_iff, Cell.isText_iff] at hkey
    exact Or.inl ⟨j, hhead, r, hr, hkey.1, hkey.2, hdecode⟩

/-- Looking for a running job of a world finds one, or there is none. -/
theorem runningOf?_cases {world : WorldId} {db : Database} {found : Option Job} {db' : Database}
    (h : Yields (runningOf? world) db found db') :
    (∃ j, found = some j ∧ ∃ r ∈ db.jobs, r.world = .text world.text ∧
        r.hasStatus .running = true ∧ r.decode = .ok j) ∨
      (found = none ∧
        ∀ r ∈ db.jobs, r.world = .text world.text → r.hasStatus .running = false) := by
  simp only [runningOf?, yields_bind, yields_needs, yields_get] at h
  obtain ⟨_, _, ⟨_, rfl⟩, _, db, ⟨rfl, rfl⟩, hfound⟩ := h
  split at hfound
  · rename_i row hrow
    simp only [yields_bind, yields_ofDecoded, yields_pure] at hfound
    obtain ⟨j, _, ⟨hdecode, rfl⟩, rfl, rfl⟩ := hfound
    obtain ⟨hmem, hrunning⟩ := mem_withStatus.1 (List.mem_of_head? hrow)
    obtain ⟨hmem, hworld⟩ := List.mem_filter.1 hmem
    exact Or.inl ⟨j, rfl, row, hmem, Cell.isText_iff.1 hworld, hrunning, hdecode⟩
  · rename_i hnone
    simp only [yields_pure] at hfound
    obtain ⟨rfl, rfl⟩ := hfound
    refine Or.inr ⟨rfl, fun r hr hworld => ?_⟩
    cases hrunning : r.hasStatus .running with
    | false => rfl
    | true =>
      have hmem : r ∈ withStatus .running (db'.jobs.filter (·.world.isText world.text)) :=
        mem_withStatus.2 ⟨List.mem_filter.2 ⟨hr, Cell.isText_iff.2 hworld⟩, hrunning⟩
      rw [List.head?_eq_none_iff.1 hnone] at hmem
      cases hmem

theorem countOutstanding_cases {world : WorldId} {db : Database} {n : Nat} {db' : Database}
    (h : Yields (countOutstanding world) db n db') :
    0 < n ↔ ∃ r ∈ db.jobs, r.world = .text world.text ∧
      (r.hasStatus .waiting = true ∨ r.hasStatus .running = true) := by
  simp only [countOutstanding, yields_bind, yields_needs, yields_get, yields_pure] at h
  obtain ⟨_, _, ⟨_, rfl⟩, _, db, ⟨rfl, rfl⟩, rfl, rfl⟩ := h
  rw [List.length_pos_iff_exists_mem]
  simp only [List.mem_filter, Bool.and_eq_true, Bool.or_eq_true, Cell.isText_iff]

/-! ### Status changes -/

theorem change_cases {id : JobId} {test : JobRow → Bool} {f : JobRow → JobRow} {db : Database}
    {changed : Bool} {db' : Database} (h : Yields (change id test f) db changed db') :
    (changed = true ∧ (∃ r ∈ db.jobs, r.id = .text id.text ∧ test r = true) ∧
        db' = { db with
          jobs := db.jobs.map fun r => if r.id.isText id.text && test r then f r else r }) ∨
      (changed = false ∧ (∀ r ∈ db.jobs, r.id = .text id.text → test r = false) ∧ db' = db) := by
  simp only [change, yields_bind, yields_needs, yields_get, yields_ite, yields_pure,
    yields_modify] at h
  obtain ⟨_, _, ⟨_, rfl⟩, _, db, ⟨rfl, rfl⟩, ⟨hany, _, _, rfl, rfl, rfl⟩ | ⟨hnone, rfl, rfl⟩⟩ := h
  · obtain ⟨r, hr, hhit⟩ := List.any_eq_true.1 hany
    rw [Bool.and_eq_true, Cell.isText_iff] at hhit
    exact Or.inl ⟨rfl, ⟨r, hr, hhit⟩, rfl⟩
  · refine Or.inr ⟨rfl, fun r hr hid => ?_, rfl⟩
    cases htest : test r with
    | false => rfl
    | true =>
      refine absurd (List.any_eq_true.2 ⟨r, hr, ?_⟩) hnone
      rw [Bool.and_eq_true, Cell.isText_iff]
      exact ⟨hid, htest⟩

theorem reads_of_fails_change {id : JobId} {test : JobRow → Bool} {f : JobRow → JobRow}
    {db : Database} {e : StoreError} {db' : Database} (h : Fails (change id test f) db e db') :
    db' = db := by
  simp only [change, fails_bind, fails_get, fails_ite, fails_pure, fails_modify, and_false,
    exists_false, or_false] at h
  exact ((reads_needs _).of_fails h).symm

/-- Settling is for a running row. -/
theorem running_of_ensureLeased {id : JobId} {f : JobRow → JobRow} {db : Database} {u : Unit}
    {db' : Database}
    (h : Yields (do ensureLeased id (← change id (·.hasStatus .running) f)) db u db') :
    (∃ r ∈ db.jobs, r.id = .text id.text ∧ r.hasStatus .running = true) ∧
      db' = { db with
        jobs := db.jobs.map fun r =>
          if r.id.isText id.text && r.hasStatus .running then f r else r } := by
  simp only [yields_bind] at h
  obtain ⟨changed, t, hchange, hensure⟩ := h
  rcases change_cases hchange with ⟨rfl, hrow, rfl⟩ | ⟨rfl, _, rfl⟩
  · simp only [ensureLeased, ↓reduceIte, yields_pure] at hensure
    exact ⟨hrow, hensure.2⟩
  · simp [ensureLeased] at hensure

theorem journal_markSucceeded {id : JobId} {now : Instant} {db : Database} {u : Unit}
    {db' : Database} (h : Yields (markSucceeded id now) db u db') :
    Journal db [.succeed id now] db' := by
  obtain ⟨hrow, rfl⟩ := running_of_ensureLeased h
  exact Journal.single (w := .succeed id now) hrow

theorem journal_markFailed {id : JobId} {message : String} {now : Instant} {db : Database}
    {u : Unit} {db' : Database} (h : Yields (markFailed id message now) db u db') :
    Journal db [.fail id message now] db' := by
  obtain ⟨hrow, rfl⟩ := running_of_ensureLeased h
  exact Journal.single (w := .fail id message now) hrow

/-- A job that cannot be settled as failed is left as it is. -/
theorem reads_of_fails_markFailed {id : JobId} {message : String} {now : Instant} {db : Database}
    {e : StoreError} {db' : Database} (h : Fails (markFailed id message now) db e db') :
    db' = db := by
  simp only [markFailed, fails_bind] at h
  rcases h with hchange | ⟨changed, t, hchange, hensure⟩
  · exact reads_of_fails_change hchange
  · have ht := ((reads_ensureLeased id changed).of_fails hensure).symm
    rcases change_cases hchange with ⟨rfl, _, _⟩ | ⟨rfl, _, rfl⟩
    · simp [ensureLeased] at hensure
    · exact ht

theorem journal_resetForRetry {id : JobId} {now : Instant} {db : Database} {u : Unit}
    {db' : Database} (h : Yields (resetForRetry id now) db u db') :
    Journal db [.requeue id now] db' := by
  simp only [resetForRetry, yields_bind] at h
  obtain ⟨changed, t, hchange, h⟩ := h
  rcases change_cases hchange with ⟨rfl, ⟨r, hr, hid, htest⟩, rfl⟩ | ⟨rfl, _, rfl⟩
  · simp only [↓reduceIte, yields_pure] at h
    obtain ⟨-, rfl⟩ := h
    exact Journal.single (w := .requeue id now) ⟨r, hr, hid, by simpa using htest⟩
  · simp at h

/-- Leasing takes the next row, if there is one. -/
theorem journal_leaseNext {now : Instant} {db : Database} {found : Option Job} {db' : Database}
    (h : Yields (leaseNext now) db found db') :
    (found = none ∧ db' = db) ∨
      ∃ row j, found = some j ∧ Journal db [.lease row now] db' ∧
        (leased (.text (Rfc3339.stored now)) row).decode = .ok j := by
  simp only [leaseNext, yields_bind, yields_needs, yields_get] at h
  obtain ⟨_, _, ⟨_, rfl⟩, _, _, ⟨_, rfl⟩, _, db, ⟨rfl, rfl⟩, h⟩ := h
  split at h
  · simp only [yields_pure] at h
    exact Or.inl h
  · rename_i row hrow
    simp only [yields_ite, yields_pure, yields_bind, yields_modify, yields_ofDecoded] at h
    rcases h with ⟨_, hnone⟩ | ⟨_, _, _, rfl, j, _, ⟨hdecode, rfl⟩, rfl, rfl⟩
    · exact Or.inl hnone
    · exact Or.inr ⟨row, j, rfl, Journal.single (w := .lease row now) ⟨hrow, j, hdecode⟩, hdecode⟩

theorem journal_insert {j : Job} (hnew : j.IsNew) {db : Database} {u : Unit} {db' : Database}
    (h : Yields (insert j) db u db') : Journal db [.addJob j] db' := by
  simp only [insert, yields_bind, yields_needs, yields_get, yields_ite, yields_refuse,
    yields_set, and_false, false_or, or_false] at h
  obtain ⟨_, _, ⟨_, rfl⟩, _, _, ⟨_, rfl⟩, _, db, ⟨rfl, rfl⟩, hkey, hid, hworld, rfl⟩ := h
  -- What the statement refuses is what the write does not allow.
  refine Journal.single (w := .addJob j) ⟨hnew, ?_, ?_, ?_⟩
  · intro r hr heq
    refine hkey (List.any_eq_true.2 ⟨r, hr, ?_⟩)
    rw [Bool.and_eq_true]
    exact ⟨decide_eq_true heq.1, decide_eq_true heq.2⟩
  · intro r hr heq
    exact hid (List.any_eq_true.2 ⟨r, hr, decide_eq_true heq⟩)
  · obtain ⟨w, hw, heq⟩ := List.any_eq_true.1 hworld
    exact ⟨w, hw, of_decide_eq_true heq⟩

theorem journal_insertAll {js : List Job} (hnew : ∀ j ∈ js, j.IsNew) {db : Database} {u : PUnit}
    {db' : Database} (h : Yields (js.forM insert) db u db') :
    Journal db (js.map .addJob) db' := by
  induction js generalizing db with
  | nil =>
    have h' : Yields (pure PUnit.unit : Statement PUnit) db u db' := h
    rw [yields_pure] at h'
    exact Journal.nil_iff.2 h'.2
  | cons j js ih =>
    have h' : Yields (insert j >>= fun _ => js.forM insert) db u db' := h
    rw [yields_bind] at h'
    obtain ⟨_, t, hinsert, hrest⟩ := h'
    have hj := journal_insert (hnew j List.mem_cons_self) hinsert
    exact hj.append (ih (fun k hk => hnew k (List.mem_cons_of_mem j hk)) hrest)

/-- Replacing the queue of a world drops its jobs and adds the new ones, if none of it runs. -/
theorem journal_replaceForWorld {world : WorldId} {js : List Job} (hnew : ∀ j ∈ js, j.IsNew)
    {db : Database}
    (hidle : ∀ r ∈ db.jobs, r.world = .text world.text → r.hasStatus .running = false)
    {u : Unit} {db' : Database} (h : Yields (replaceForWorld world js) db u db') :
    Journal db (.clearQueue world :: js.map .addJob) db' := by
  simp only [replaceForWorld, yields_bind, yields_needs, yields_modify] at h
  obtain ⟨_, _, ⟨_, rfl⟩, _, db, ⟨_, rfl⟩, _, _, rfl, h⟩ := h
  exact Journal.next (w := .clearQueue world) hidle (journal_insertAll hnew h)

end Jobs

end Lorebook
