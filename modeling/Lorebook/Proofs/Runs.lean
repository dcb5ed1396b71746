import Lorebook.Engine.Basic

set_option autoImplicit false

/-! # Runs of statements and operations

Statements and operations are computations that may fail and that change a state. Two relations say
how a run from a state ends: `Yields` with a value, `Fails` with an error. A run that is known to
have succeeded is taken apart along its binds by the `yields_*` lemmas, so that no proof about an
operation has to open the monad. -/

namespace Lorebook

/-! ## Computations that may fail -/

section Computations

variable {ε σ α β : Type}

/-- From `s`, a computation gives `v` and leaves `s'`. -/
def Yields (x : ExceptT ε (StateM σ) α) (s : σ) (v : α) (s' : σ) : Prop :=
  x s = (Except.ok v, s')

/-- From `s`, a computation fails with `e` and leaves `s'`. -/
def Fails (x : ExceptT ε (StateM σ) α) (s : σ) (e : ε) (s' : σ) : Prop :=
  x s = (Except.error e, s')

/-- From `s`, a computation succeeds. -/
def Succeeds (x : ExceptT ε (StateM σ) α) (s : σ) : Prop :=
  ∃ v s', Yields x s v s'

theorem yields_or_fails (x : ExceptT ε (StateM σ) α) (s : σ) :
    (∃ v s', Yields x s v s') ∨ ∃ e s', Fails x s e s' := by
  rcases h : x s with ⟨v | v, s'⟩
  · exact Or.inr ⟨v, s', h⟩
  · exact Or.inl ⟨v, s', h⟩

/-- A run ends in one way only. -/
theorem Yields.not_fails {x : ExceptT ε (StateM σ) α} {s t t' : σ} {a : α} {e : ε}
    (h : Yields x s a t) : ¬ Fails x s e t' := by
  intro hfails
  rw [Fails, show x s = _ from h] at hfails
  cases hfails

theorem Fails.error_eq {x : ExceptT ε (StateM σ) α} {s t t' : σ} {e e' : ε} (h : Fails x s e t)
    (h' : Fails x s e' t') : e = e' :=
  Except.error.inj (congrArg Prod.fst (h.symm.trans h'))

theorem bind_run (x : ExceptT ε (StateM σ) α) (f : α → ExceptT ε (StateM σ) β) (s : σ) :
    (x >>= f) s = match x s with
      | (.ok a, t) => f a t
      | (.error e, t) => (.error e, t) := by
  show (match x s with | (r, t) => ExceptT.bindCont f r t) = _
  rcases x s with ⟨r | r, t⟩ <;> rfl

@[simp] theorem yields_pure (a v : α) (s s' : σ) :
    Yields (pure a : ExceptT ε (StateM σ) α) s v s' ↔ v = a ∧ s' = s := by
  show (((.ok a, s) : Except ε α × σ) = (.ok v, s')) ↔ _
  simp only [Prod.mk.injEq, Except.ok.injEq]
  exact and_congr eq_comm eq_comm

@[simp] theorem yields_throw (e : ε) (s : σ) (v : α) (s' : σ) :
    ¬ Yields (throw e : ExceptT ε (StateM σ) α) s v s' := by
  show ¬ (((.error e, s) : Except ε α × σ) = (.ok v, s'))
  simp

/-- A sequence succeeds when both of its parts do. -/
@[simp] theorem yields_bind (x : ExceptT ε (StateM σ) α) (f : α → ExceptT ε (StateM σ) β)
    (s : σ) (v : β) (s' : σ) :
    Yields (x >>= f) s v s' ↔ ∃ a t, Yields x s a t ∧ Yields (f a) t v s' := by
  unfold Yields
  rw [bind_run]
  constructor
  · intro h
    rcases hx : x s with ⟨r | r, t⟩
    · rw [hx] at h
      cases h
    · rw [hx] at h
      exact ⟨r, t, rfl, h⟩
  · rintro ⟨a, t, hx, hf⟩
    rw [hx]
    exact hf

@[simp] theorem yields_ite (c : Prop) [Decidable c] (x y : ExceptT ε (StateM σ) α)
    (s : σ) (v : α) (s' : σ) :
    Yields (if c then x else y) s v s' ↔ (c ∧ Yields x s v s') ∨ (¬ c ∧ Yields y s v s') := by
  by_cases h : c <;> simp [h]

@[simp] theorem yields_get (s v s' : σ) :
    Yields (get : ExceptT ε (StateM σ) σ) s v s' ↔ v = s ∧ s' = s := by
  show (((.ok s, s) : Except ε σ × σ) = (.ok v, s')) ↔ _
  simp only [Prod.mk.injEq, Except.ok.injEq]
  exact and_congr eq_comm eq_comm

@[simp] theorem yields_set (t s : σ) (v : PUnit) (s' : σ) :
    Yields (set t : ExceptT ε (StateM σ) PUnit) s v s' ↔ s' = t := by
  show (((.ok PUnit.unit, t) : Except ε PUnit × σ) = (.ok v, s')) ↔ _
  simp only [Prod.mk.injEq, true_and]
  exact eq_comm

@[simp] theorem yields_modify (f : σ → σ) (s : σ) (v : PUnit) (s' : σ) :
    Yields (modify f : ExceptT ε (StateM σ) PUnit) s v s' ↔ s' = f s := by
  show (((.ok PUnit.unit, f s) : Except ε PUnit × σ) = (.ok v, s')) ↔ _
  simp only [Prod.mk.injEq, true_and]
  exact eq_comm

@[simp] theorem yields_modifyGet (f : σ → α × σ) (s : σ) (v : α) (s' : σ) :
    Yields (modifyGet f : ExceptT ε (StateM σ) α) s v s' ↔ v = (f s).1 ∧ s' = (f s).2 := by
  show (((.ok (f s).1, (f s).2) : Except ε α × σ) = (.ok v, s')) ↔ _
  simp only [Prod.mk.injEq, Except.ok.injEq]
  exact and_congr eq_comm eq_comm

@[simp] theorem fails_pure (a : α) (s : σ) (e : ε) (s' : σ) :
    ¬ Fails (pure a : ExceptT ε (StateM σ) α) s e s' := by
  show ¬ (((.ok a, s) : Except ε α × σ) = (.error e, s'))
  simp

@[simp] theorem fails_throw (e e' : ε) (s s' : σ) :
    Fails (throw e : ExceptT ε (StateM σ) α) s e' s' ↔ e' = e ∧ s' = s := by
  show (((.error e, s) : Except ε α × σ) = (.error e', s')) ↔ _
  simp only [Prod.mk.injEq, Except.error.injEq]
  exact and_congr eq_comm eq_comm

/-- A sequence fails in its first part or, after that succeeded, in its second. -/
@[simp] theorem fails_bind (x : ExceptT ε (StateM σ) α) (f : α → ExceptT ε (StateM σ) β)
    (s : σ) (e : ε) (s' : σ) :
    Fails (x >>= f) s e s' ↔ Fails x s e s' ∨ ∃ a t, Yields x s a t ∧ Fails (f a) t e s' := by
  unfold Yields Fails
  rw [bind_run]
  constructor
  · intro h
    rcases hx : x s with ⟨r | r, t⟩
    · rw [hx] at h
      cases h
      exact Or.inl rfl
    · rw [hx] at h
      exact Or.inr ⟨r, t, rfl, h⟩
  · rintro (hx | ⟨a, t, hx, hf⟩)
    · rw [hx]
    · rw [hx]
      exact hf

section

variable {x : ExceptT ε (StateM σ) α} {f : α → ExceptT ε (StateM σ) β} {s t u : σ} {a : α}

theorem Yields.bind {v : β} (hx : Yields x s a t) (hf : Yields (f a) t v u) :
    Yields (x >>= f) s v u :=
  (yields_bind x f s v u).2 ⟨a, t, hx, hf⟩

theorem Fails.bind {e : ε} (hx : Fails x s e t) : Fails (x >>= f) s e t :=
  (fails_bind x f s e t).2 (Or.inl hx)

theorem Yields.bind_fails {e : ε} (hx : Yields x s a t) (hf : Fails (f a) t e u) :
    Fails (x >>= f) s e u :=
  (fails_bind x f s e u).2 (Or.inr ⟨a, t, hx, hf⟩)

theorem Yields.succeeds (hx : Yields x s a t) : Succeeds x s :=
  ⟨a, t, hx⟩

/-- A sequence succeeds when its first part does and then the rest. -/
theorem Yields.bind_succeeds (hx : Yields x s a t) (hf : Succeeds (f a) t) :
    Succeeds (x >>= f) s := by
  obtain ⟨v, u, hf⟩ := hf
  exact (hx.bind hf).succeeds

theorem Yields.pure (a : α) (s : σ) : Yields (pure a : ExceptT ε (StateM σ) α) s a s :=
  (yields_pure a a s s).2 ⟨rfl, rfl⟩

theorem Yields.get (s : σ) : Yields (get : ExceptT ε (StateM σ) σ) s s s :=
  (yields_get s s s).2 ⟨rfl, rfl⟩

theorem Yields.set (t s : σ) : Yields (set t : ExceptT ε (StateM σ) PUnit) s ⟨⟩ t :=
  (yields_set t s ⟨⟩ t).2 rfl

theorem Yields.modify (f : σ → σ) (s : σ) :
    Yields (modify f : ExceptT ε (StateM σ) PUnit) s ⟨⟩ (f s) :=
  (yields_modify f s ⟨⟩ (f s)).2 rfl

theorem Fails.throw (e : ε) (s : σ) : Fails (throw e : ExceptT ε (StateM σ) α) s e s :=
  (fails_throw e e s s).2 ⟨rfl, rfl⟩

end

@[simp] theorem fails_ite (c : Prop) [Decidable c] (x y : ExceptT ε (StateM σ) α)
    (s : σ) (e : ε) (s' : σ) :
    Fails (if c then x else y) s e s' ↔ (c ∧ Fails x s e s') ∨ (¬ c ∧ Fails y s e s') := by
  by_cases h : c <;> simp [h]

@[simp] theorem fails_get (s : σ) (e : ε) (s' : σ) :
    ¬ Fails (get : ExceptT ε (StateM σ) σ) s e s' := by
  show ¬ (((.ok s, s) : Except ε σ × σ) = (.error e, s'))
  simp

@[simp] theorem fails_set (t s : σ) (e : ε) (s' : σ) :
    ¬ Fails (set t : ExceptT ε (StateM σ) PUnit) s e s' := by
  show ¬ (((.ok PUnit.unit, t) : Except ε PUnit × σ) = (.error e, s'))
  simp

@[simp] theorem fails_modify (f : σ → σ) (s : σ) (e : ε) (s' : σ) :
    ¬ Fails (modify f : ExceptT ε (StateM σ) PUnit) s e s' := by
  show ¬ (((.ok PUnit.unit, f s) : Except ε PUnit × σ) = (.error e, s'))
  simp

@[simp] theorem fails_modifyGet (f : σ → α × σ) (s : σ) (e : ε) (s' : σ) :
    ¬ Fails (modifyGet f : ExceptT ε (StateM σ) α) s e s' := by
  show ¬ (((.ok (f s).1, (f s).2) : Except ε α × σ) = (.error e, s'))
  simp

/-! ## Relations that every run respects -/

/-- A relation between states that steps can be chained along. -/
class Chain (R : σ → σ → Prop) : Prop where
  refl : ∀ s, R s s
  trans : ∀ {s t u}, R s t → R t u → R s u

instance : Chain (Eq (α := σ)) := ⟨fun _ => rfl, Eq.trans⟩

/-- Every run of a computation leaves a state that `R` relates to the one before, whether or not it
succeeds. -/
def Respects (R : σ → σ → Prop) (x : ExceptT ε (StateM σ) α) : Prop :=
  ∀ s, R s (x s).2

theorem Respects.of_yields {R : σ → σ → Prop} {x : ExceptT ε (StateM σ) α} (hx : Respects R x)
    {s : σ} {v : α} {s' : σ} (h : Yields x s v s') : R s s' := by
  have hs := hx s
  rwa [h] at hs

theorem Respects.of_fails {R : σ → σ → Prop} {x : ExceptT ε (StateM σ) α} (hx : Respects R x)
    {s : σ} {e : ε} {s' : σ} (h : Fails x s e s') : R s s' := by
  have hs := hx s
  rwa [h] at hs

theorem respects_ite {R : σ → σ → Prop} {c : Prop} [Decidable c] {x y : ExceptT ε (StateM σ) α}
    (hx : Respects R x) (hy : Respects R y) : Respects R (if c then x else y) := by
  by_cases h : c
  · rwa [if_pos h]
  · rwa [if_neg h]

section

variable {R : σ → σ → Prop} [Chain R]

theorem respects_pure (v : α) : Respects R (pure v : ExceptT ε (StateM σ) α) :=
  fun s => Chain.refl s

theorem respects_throw (e : ε) : Respects R (throw e : ExceptT ε (StateM σ) α) :=
  fun s => Chain.refl s

theorem respects_get : Respects R (get : ExceptT ε (StateM σ) σ) :=
  fun s => Chain.refl s

theorem respects_bind {x : ExceptT ε (StateM σ) α} {f : α → ExceptT ε (StateM σ) β}
    (hx : Respects R x) (hf : ∀ a, Respects R (f a)) : Respects R (x >>= f) := by
  intro s
  rw [bind_run]
  have hs := hx s
  rcases hrun : x s with ⟨r | r, t⟩
  · rw [hrun] at hs
    exact hs
  · rw [hrun] at hs
    exact Chain.trans hs (hf r t)

theorem respects_mapM {f : α → ExceptT ε (StateM σ) β} (hf : ∀ a, Respects R (f a))
    (as : List α) : Respects R (as.mapM f) := by
  induction as with
  | nil => exact respects_pure []
  | cons a as ih =>
    rw [List.mapM_cons]
    exact respects_bind (hf a) fun b => respects_bind ih fun bs => respects_pure _

theorem respects_forM {f : α → ExceptT ε (StateM σ) PUnit} (hf : ∀ a, Respects R (f a))
    (as : List α) : Respects R (as.forM f) := by
  induction as with
  | nil => exact respects_pure PUnit.unit
  | cons a as ih =>
    show Respects R (f a >>= fun _ => as.forM f)
    exact respects_bind (hf a) fun _ => ih

end

end Computations

/-! ## Statements -/

namespace Statement

variable {α : Type}

@[simp] theorem yields_ofDecoded (d : Decoded α) (db : Database) (v : α) (db' : Database) :
    Yields (ofDecoded d) db v db' ↔ d = .ok v ∧ db' = db := by
  cases d with
  | error e => simp [ofDecoded]
  | ok w =>
    simp only [ofDecoded, yields_pure, Except.ok.injEq]
    exact and_congr eq_comm Iff.rfl

@[simp] theorem yields_refuse (fault : DatabaseFault) (db : Database) (v : α) (db' : Database) :
    ¬ Yields (refuse fault : Statement α) db v db' :=
  yields_throw _ db v db'

@[simp] theorem yields_needs (table : TableName) (db : Database) (v : Unit) (db' : Database) :
    Yields (needs table) db v db' ↔ table ∉ db.dropped ∧ db' = db := by
  unfold needs
  simp only [yields_bind, yields_get, yields_ite, yields_pure, yields_refuse, and_false, false_or]
  constructor
  · rintro ⟨_, _, ⟨rfl, rfl⟩, hin, _, rfl⟩
    exact ⟨hin, rfl⟩
  · rintro ⟨hin, rfl⟩
    exact ⟨db', db', ⟨rfl, rfl⟩, hin, trivial, rfl⟩

/-- What needs a table and then reads the database works on the database as it is. -/
theorem needs_get_run (table : TableName) (f : Database → Statement α) (db : Database) :
    (do needs table; f (← get) : Statement α) db = (do needs table; f db : Statement α) db := by
  rw [bind_run, bind_run]
  rcases hneeds : needs table db with ⟨_ | _, db'⟩
  · rfl
  · obtain ⟨-, rfl⟩ := (yields_needs table db _ db').1 hneeds
    rfl

/-- Rows are decoded one by one. -/
theorem decoded_of_mapM {ρ : Type} {decode : ρ → Decoded α} {rows : List ρ} {db : Database}
    {vs : List α} {db' : Database}
    (h : Yields (rows.mapM fun r => ofDecoded (decode r)) db vs db') :
    rows.map decode = vs.map .ok := by
  induction rows generalizing vs with
  | nil =>
    simp only [List.mapM_nil, yields_pure] at h
    rw [h.1]
    rfl
  | cons r rows ih =>
    simp only [List.mapM_cons, yields_bind, yields_ofDecoded, yields_pure] at h
    obtain ⟨v, _, ⟨hdecode, rfl⟩, rest, _, hrest, rfl, rfl⟩ := h
    rw [List.map_cons, hdecode, ih hrest, List.map_cons]

/-- The statement leaves the database as it is, whether or not it succeeds. -/
abbrev Reads (st : Statement α) : Prop := Respects Eq st

theorem reads_ofDecoded (d : Decoded α) : Reads (ofDecoded d) := by
  cases d with
  | error e => exact respects_throw e
  | ok v => exact respects_pure v

theorem reads_refuse (fault : DatabaseFault) : Reads (refuse fault : Statement α) :=
  respects_throw _

theorem reads_needs (table : TableName) : Reads (needs table) :=
  respects_bind respects_get fun _ => respects_ite (reads_refuse _) (respects_pure _)

end Statement

/-! ## The studio -/

namespace Studio

/-- The studio with another database. -/
def withDb (s : Studio) (db : Database) : Studio := { s with db := db }

/-- The studio after a reading of its clock. -/
def ticked (s : Studio) : Studio := { s with clock := s.clock.later clockTick }

/-- The studio after one more event. -/
def told (s : Studio) (e : LogEvent) : Studio := { s with log := e :: s.log }

/-- The studio after one more name was given out. -/
def minting (s : Studio) : Studio := { s with minted := s.minted + 1 }

@[simp] theorem withDb_db (s : Studio) (db : Database) : (s.withDb db).db = db := rfl
@[simp] theorem ticked_db (s : Studio) : s.ticked.db = s.db := rfl
@[simp] theorem told_db (s : Studio) (e : LogEvent) : (s.told e).db = s.db := rfl
@[simp] theorem minting_db (s : Studio) : s.minting.db = s.db := rfl

@[simp] theorem withDb_withDb (s : Studio) (db db' : Database) :
    (s.withDb db).withDb db' = s.withDb db' := rfl

@[simp] theorem withDb_minted (s : Studio) (db : Database) : (s.withDb db).minted = s.minted := rfl
@[simp] theorem ticked_minted (s : Studio) : s.ticked.minted = s.minted := rfl
@[simp] theorem told_minted (s : Studio) (e : LogEvent) : (s.told e).minted = s.minted := rfl
@[simp] theorem minting_minted (s : Studio) : s.minting.minted = s.minted + 1 := rfl

end Studio

/-! ## Operations -/

namespace Operation

open Studio

variable {α β : Type}

@[simp] theorem yields_tell (e : LogEvent) (s : Studio) (v : PUnit) (s' : Studio) :
    Yields (tell e : Operation PUnit) s v s' ↔ s' = s.told e :=
  yields_modify _ s v s'

@[simp] theorem yields_readClock (s : Studio) (v : Instant) (s' : Studio) :
    Yields (readClock : Operation Instant) s v s' ↔ v = s.clock ∧ s' = s.ticked :=
  yields_modifyGet _ s v s'

@[simp] theorem yields_mint (s : Studio) (v : Nat) (s' : Studio) :
    Yields (mint : Operation Nat) s v s' ↔ v = s.minted ∧ s' = s.minting :=
  yields_modifyGet _ s v s'

@[simp] theorem yields_ofExcept {ε : Type} (convert : ε → EngineError) (x : Except ε α)
    (s : Studio) (v : α) (s' : Studio) :
    Yields (ofExcept convert x) s v s' ↔ x = .ok v ∧ s' = s := by
  cases x with
  | error e => simp [ofExcept]
  | ok w =>
    simp only [ofExcept, yields_pure, Except.ok.injEq]
    exact and_congr eq_comm Iff.rfl

/-- A statement as a part of an operation. -/
theorem store_run (st : Statement α) (s : Studio) :
    store st s = match st s.db with
      | (.ok v, db) => (.ok v, s.withDb db)
      | (.error e, db) => (.error (.ofStore e), s.withDb db) := by
  unfold store
  rw [bind_run]
  show ofExcept EngineError.ofStore (st s.db).1 (s.withDb (st s.db).2) = _
  rcases st s.db with ⟨r | r, db⟩ <;> rfl

@[simp] theorem yields_store (st : Statement α) (s : Studio) (v : α) (s' : Studio) :
    Yields (store st) s v s' ↔ ∃ db, Yields st s.db v db ∧ s' = s.withDb db := by
  unfold Yields
  rw [store_run]
  rcases hst : st s.db with ⟨r | r, db⟩
  · constructor
    · intro h
      cases h
    · rintro ⟨_, h, _⟩
      cases h
  · constructor
    · intro h
      cases h
      exact ⟨db, rfl, rfl⟩
    · rintro ⟨_, h, rfl⟩
      cases h
      rfl

/-- A statement that fails fails the operation. -/
theorem fails_store (st : Statement α) (s : Studio) (e : EngineError) (s' : Studio) :
    Fails (store st) s e s' ↔ ∃ cause db, Fails st s.db cause db ∧ e = .ofStore cause ∧
      s' = s.withDb db := by
  unfold Fails
  rw [store_run]
  rcases hst : st s.db with ⟨r | r, db⟩
  · constructor
    · intro h
      cases h
      exact ⟨r, db, rfl, rfl, rfl⟩
    · rintro ⟨_, _, h, rfl, rfl⟩
      cases h
      rfl
  · constructor
    · intro h
      cases h
    · rintro ⟨_, _, h, _⟩
      cases h

/-- The result of a statement as a value. -/
@[simp] theorem yields_statement (st : Statement α) (s : Studio) (v : Except StoreError α)
    (s' : Studio) :
    Yields (statement st : Operation (Except StoreError α)) s v s' ↔
      v = (s.db.run st).1 ∧ s' = s.withDb (s.db.run st).2 :=
  yields_modifyGet _ s v s'

@[simp] theorem yields_atomically (op : Operation α) (s : Studio) (v : α) (s' : Studio) :
    Yields (atomically op) s v s' ↔ Yields op s v s' := by
  unfold Yields
  rcases hop : op s with ⟨r | r, t⟩
  · rw [atomically_of_error hop]
    constructor <;> intro h <;> cases h
  · rw [atomically_of_ok hop]

/-- What fails as a whole fails with the error of the operation, on the database as it was. -/
theorem fails_atomically (op : Operation α) (s : Studio) (e : EngineError) (s' : Studio) :
    Fails (atomically op) s e s' ↔ ∃ t, Fails op s e t ∧ s' = t.withDb s.db := by
  unfold Fails
  rcases hop : op s with ⟨r | r, t⟩
  · rw [atomically_of_error hop]
    constructor
    · intro h
      cases h
      exact ⟨t, rfl, rfl⟩
    · rintro ⟨_, h, rfl⟩
      cases h
      rfl
  · rw [atomically_of_ok hop]
    constructor
    · intro h
      cases h
    · rintro ⟨_, h, _⟩
      cases h

/-- What an operation that is performed leaves, whether or not it succeeds. -/
theorem perform_run (op : Operation α) (s : Studio) :
    (perform op : StateM Studio (Except EngineError α)) s = op s := rfl

/-! ## What operations respect -/

/-- A relation between studios that ignores the log and the clock and allows new names. -/
class StudioChain (R : Studio → Studio → Prop) : Prop extends Chain R where
  told : ∀ s e, R s (s.told e)
  ticked : ∀ s, R s s.ticked
  minting : ∀ s, R s s.minting

/-- No name is taken back. -/
def NamesGrow (s t : Studio) : Prop := s.minted ≤ t.minted

/-- The database is the same, and no name is taken back. -/
def SameDb (s t : Studio) : Prop := t.db = s.db ∧ s.minted ≤ t.minted

instance : StudioChain NamesGrow where
  refl s := Nat.le_refl s.minted
  trans := Nat.le_trans
  told s _ := Nat.le_refl s.minted
  ticked s := Nat.le_refl s.minted
  minting s := Nat.le_succ s.minted

instance : StudioChain SameDb where
  refl s := ⟨rfl, Nat.le_refl s.minted⟩
  trans h h' := ⟨h'.1.trans h.1, Nat.le_trans h.2 h'.2⟩
  told s _ := ⟨rfl, Nat.le_refl s.minted⟩
  ticked s := ⟨rfl, Nat.le_refl s.minted⟩
  minting s := ⟨rfl, Nat.le_succ s.minted⟩

section

variable {R : Studio → Studio → Prop} [StudioChain R]

theorem respects_tell (e : LogEvent) : Respects R (tell e : Operation PUnit) :=
  fun s => StudioChain.told s e

theorem respects_readClock : Respects R (readClock : Operation Instant) :=
  fun s => StudioChain.ticked s

theorem respects_mint : Respects R (mint : Operation Nat) :=
  fun s => StudioChain.minting s

theorem respects_ofExcept {ε : Type} (convert : ε → EngineError) (x : Except ε α) :
    Respects R (ofExcept convert x) := by
  cases x with
  | error e => exact respects_throw _
  | ok v => exact respects_pure v

end

theorem namesGrow_store (st : Statement α) : Respects NamesGrow (store st) := by
  intro s
  rw [store_run]
  rcases st s.db with ⟨r | r, db⟩ <;> exact Nat.le_refl s.minted

theorem namesGrow_statement (st : Statement α) :
    Respects NamesGrow (statement st : Operation (Except StoreError α)) :=
  fun s => Nat.le_refl s.minted

/-- A statement that reads leaves the studio. -/
theorem respects_store {R : Studio → Studio → Prop} [Chain R] {st : Statement α}
    (h : Statement.Reads st) : Respects R (store st) := by
  intro s
  have hdb := h s.db
  rw [store_run]
  rcases hst : st s.db with ⟨r | r, db⟩ <;> rw [hst] at hdb <;> subst hdb <;> exact Chain.refl s

theorem namesGrow_of_sameDb {op : Operation α} (h : Respects SameDb op) :
    Respects NamesGrow op :=
  fun s => (h s).2

theorem namesGrow_atomically {op : Operation α} (h : Respects NamesGrow op) :
    Respects NamesGrow (atomically op) := by
  intro s
  have hs := h s
  rcases hop : op s with ⟨r | r, t⟩
  · rw [atomically_of_error hop]
    rw [hop] at hs
    exact hs
  · rw [atomically_of_ok hop]
    rw [hop] at hs
    exact hs

theorem sameDb_atomically {op : Operation α} (h : Respects SameDb op) :
    Respects SameDb (atomically op) := by
  intro s
  have hs := h s
  rcases hop : op s with ⟨r | r, t⟩
  · rw [atomically_of_error hop]
    rw [hop] at hs
    exact ⟨rfl, hs.2⟩
  · rw [atomically_of_ok hop]
    rw [hop] at hs
    exact hs

/-- What fails as a whole leaves the database. -/
theorem sameDb_of_fails_atomically {op : Operation α} (hop : Respects NamesGrow op) {s : Studio}
    {e : EngineError} {s' : Studio} (h : Fails (atomically op) s e s') : SameDb s s' :=
  ⟨db_eq_of_atomically_error h, (namesGrow_atomically hop).of_fails h⟩

end Operation

/-! ## Operations that are run forwards -/

section

variable {α : Type} {s : Studio}

theorem Yields.store (s : Studio) {st : Statement α} {v : α} {db : Database}
    (h : Yields st s.db v db) :
    Yields (Operation.store st) s v (s.withDb db) :=
  (Operation.yields_store st s v _).2 ⟨db, h, rfl⟩

theorem Fails.store (s : Studio) {st : Statement α} {e : StoreError} {db : Database}
    (h : Fails st s.db e db) : Fails (Operation.store st) s (.ofStore e) (s.withDb db) :=
  (Operation.fails_store st s _ _).2 ⟨e, db, h, rfl, rfl⟩

theorem Yields.atomically {op : Operation α} {v : α} {s' : Studio} (h : Yields op s v s') :
    Yields (Operation.atomically op) s v s' :=
  (Operation.yields_atomically op s v s').2 h

theorem Fails.atomically {op : Operation α} {e : EngineError} {s' : Studio}
    (h : Fails op s e s') : Fails (Operation.atomically op) s e (s'.withDb s.db) :=
  Operation.atomically_of_error h

theorem Succeeds.atomically {op : Operation α} (h : Succeeds op s) :
    Succeeds (Operation.atomically op) s := by
  obtain ⟨v, t, h⟩ := h
  exact h.atomically.succeeds

theorem yields_told (e : LogEvent) (s : Studio) :
    Yields (Studio.tell e : Operation PUnit) s ⟨⟩ (s.told e) :=
  (Operation.yields_tell e s _ _).2 rfl

theorem yields_clock (s : Studio) :
    Yields (Studio.readClock : Operation Instant) s s.clock s.ticked :=
  (Operation.yields_readClock s _ _).2 ⟨rfl, rfl⟩

end

end Lorebook
