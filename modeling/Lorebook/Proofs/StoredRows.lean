import Lorebook.Proofs.StoredText

set_option autoImplicit false

/-! # What rows hold

`Holds` says which cells a row has for a world, a module or a job. A row that can be read holds what
was read, a row that was written holds what was written, and what a row of a module holds is
determined by the row, as far as the cells are read back without loss. -/

namespace Lorebook

/-! ## Reading cells -/

theorem Decoded.bind_eq_ok {α β : Type} (x : Decoded α) (f : α → Decoded β) (v : β) :
    (x >>= f) = .ok v ↔ ∃ a, x = .ok a ∧ f a = .ok v := by
  cases x with
  | error e => simp [bind, Except.bind]
  | ok a => simp [bind, Except.bind]

theorem Decoded.pure_eq_ok {α : Type} (a v : α) : (pure a : Decoded α) = .ok v ↔ a = v := by
  simp [pure, Except.pure]

namespace CellAt

theorem text_eq_ok (c : CellAt) (s : String) : c.text = .ok s ↔ c.cell = .text s := by
  unfold text wrongKind fail
  cases c.cell <;> simp

theorem textOption_eq_ok (c : CellAt) (s : Option String) :
    c.textOption = .ok s ↔ c.cell = .ofOption s := by
  unfold textOption wrongKind fail
  cases s <;> cases c.cell <;> simp [Cell.ofOption]

theorem int_eq_ok (c : CellAt) (n : Int) : c.int = .ok n ↔ c.cell = .int n := by
  unfold int wrongKind fail
  cases c.cell <;> simp

theorem nat32_eq_ok (c : CellAt) (n : Nat) :
    c.nat32 = .ok n ↔ c.cell = .int n ∧ n < twoPow 32 := by
  unfold nat32
  simp only [Decoded.bind_eq_ok, int_eq_ok]
  constructor
  · rintro ⟨k, hk, h⟩
    split at h
    · rename_i hrange
      rw [Decoded.pure_eq_ok] at h
      have hcast : (n : Int) = k := by omega
      refine ⟨by rw [hk, hcast], ?_⟩
      have := hrange.2
      rw [← hcast] at this
      exact Int.ofNat_lt.1 this
    · cases h
  · rintro ⟨hcell, hlt⟩
    refine ⟨n, hcell, ?_⟩
    have hlt' : (n : Int) < (twoPow 32 : Int) := Int.ofNat_lt.2 hlt
    rw [if_pos ⟨by omega, hlt'⟩, Decoded.pure_eq_ok]
    omega

theorem parseWord_eq_ok {α : Type} (c : CellAt) (ofText? : String → Option α) (raw : String)
    (v : α) : c.parseWord ofText? raw = .ok v ↔ ofText? raw = some v := by
  unfold parseWord fail
  cases ofText? raw <;> simp

theorem parseJson_eq_ok {α : Type} (c : CellAt) (decode : Json.Decoder α) (raw : String) (v : α) :
    c.parseJson decode raw = .ok v ↔ (Json.parseRecord? raw).bind decode = some v := by
  unfold parseJson fail
  cases (Json.parseRecord? raw).bind decode <;> simp

end CellAt

theorem Cell.isText_iff {c : Cell} {s : String} : c.isText s = true ↔ c = .text s := by
  simp [isText]

theorem Cell.isText_eq_false_iff {c : Cell} {s : String} : c.isText s = false ↔ c ≠ .text s := by
  simp [isText]

theorem Cell.ofOption_inj {a b : Option String} (h : Cell.ofOption a = Cell.ofOption b) :
    a = b := by
  cases a <;> cases b <;> simp_all [Cell.ofOption]

/-- The number after one that fits 64 bits along with it. -/
theorem Cell.successor_of_fits {n : Int} (h : fitsInt64 (n + 1) = true) :
    (Cell.int n).successor = .int (n + 1) := by
  have hcell : ofInt (n + 1) = .int (n + 1) := by
    unfold ofInt
    rw [if_pos h]
  show (ofInt (n + 1)).asWhole = _
  rw [hcell]
  rfl

/-! ## Words -/

theorem WorldStatus.text_of_ofText? {word : String} {s : WorldStatus} (h : ofText? word = some s) :
    word = s.text := by
  unfold ofText? at h
  have hword := List.find?_some h
  exact (beq_iff_eq.1 hword).symm

theorem ModuleStatus.text_of_ofText? {word : String} {s : ModuleStatus}
    (h : ofText? word = some s) : word = s.text := by
  unfold ofText? at h
  have hword := List.find?_some h
  exact (beq_iff_eq.1 hword).symm

theorem JobStatus.text_of_ofText? {word : String} {s : JobStatus} (h : ofText? word = some s) :
    word = s.text := by
  unfold ofText? at h
  have hword := List.find?_some h
  exact (beq_iff_eq.1 hword).symm

theorem WorldStatus.text_inj {s t : WorldStatus} (h : s.text = t.text) : s = t := by
  have := ofText?_text s
  rw [h, ofText?_text] at this
  exact (Option.some.inj this).symm

theorem ModuleStatus.text_inj {s t : ModuleStatus} (h : s.text = t.text) : s = t := by
  have := ofText?_text s
  rw [h, ofText?_text] at this
  exact (Option.some.inj this).symm

theorem JobStatus.text_inj {s t : JobStatus} (h : s.text = t.text) : s = t := by
  have := ofText?_text s
  rw [h, ofText?_text] at this
  exact (Option.some.inj this).symm

/-! ## Worlds -/

/-- The row has the cells of the world; its times and themes are left out. -/
structure WorldRow.Holds (r : WorldRow) (w : World) : Prop where
  id : r.id = .text w.id.text
  owner : r.owner = .text w.owner.text
  name : r.name = .text w.name
  tagline : r.tagline = .ofOption w.tagline
  status : r.status = .text w.status.text
  version : r.version = .int w.version

theorem WorldRow.holds_of_decode {r : WorldRow} {w : World} (h : r.decode = .ok w) :
    r.Holds w := by
  unfold decode at h
  simp only [Decoded.bind_eq_ok, Decoded.pure_eq_ok, CellAt.text_eq_ok, CellAt.textOption_eq_ok,
    CellAt.int_eq_ok, CellAt.parseWord_eq_ok] at h
  obtain ⟨status, hstatus, themes, hthemes, id, hid, owner, howner, name, hname, tagline, htagline,
    _, _, word, hword, version, hversion, _, _, _, _, _, _, _, _, rfl⟩ := h
  rw [WorldStatus.text_of_ofText? hword] at hstatus
  exact ⟨hid, howner, hname, htagline, hstatus, hversion⟩

theorem WorldRow.holds_ofWorld (w : World) : (WorldRow.ofWorld w).Holds w :=
  ⟨rfl, rfl, rfl, rfl, rfl, rfl⟩

/-! ## Modules -/

/-- The row has the cells of the module; its times are left out. -/
structure ModuleRow.Holds (r : ModuleRow) (m : WorldModule) : Prop where
  id : r.id = .text m.id.text
  world : r.world = .text m.world.text
  key : r.key = .text m.key
  fields : ∃ raw, r.fields = .text raw ∧
    (Json.parseRecord? raw).bind (Json.decodeMap Json.decodeText) = some m.fields
  status : r.status = .text m.status.text
  hash : r.hash = .ofOption m.hash
  content : r.content = .ofOption m.content

theorem ModuleRow.holds_of_decode {r : ModuleRow} {m : WorldModule} (h : r.decode = .ok m) :
    r.Holds m := by
  unfold decode at h
  simp only [Decoded.bind_eq_ok, Decoded.pure_eq_ok, CellAt.text_eq_ok, CellAt.textOption_eq_ok,
    CellAt.parseWord_eq_ok, CellAt.parseJson_eq_ok] at h
  obtain ⟨raw, hraw, status, hstatus, fields, hfields, id, hid, world, hworld, key, hkey, word,
    hword, hash, hhash, content, hcontent, _, _, _, _, _, _, rfl⟩ := h
  rw [ModuleStatus.text_of_ofText? hword] at hstatus
  exact ⟨hid, hworld, hkey, ⟨raw, hraw, hfields⟩, hstatus, hhash, hcontent⟩

theorem ModuleRow.holds_ofModule (m : WorldModule) : (ModuleRow.ofModule m).Holds m :=
  ⟨rfl, rfl, rfl, ⟨_, rfl, FieldMap.decode_compact m.fields⟩, rfl, rfl, rfl⟩

namespace ModuleRow.Holds

variable {r : ModuleRow} {m n : WorldModule}

/-- The field values are what is read from the cell. -/
theorem fields_of_text (hm : r.Holds m) {raw : String} (hraw : r.fields = .text raw) :
    (Json.parseRecord? raw).bind (Json.decodeMap Json.decodeText) = some m.fields := by
  obtain ⟨raw', hraw', hfields⟩ := hm.fields
  rw [hraw, Cell.text.injEq] at hraw'
  rwa [hraw']

/-- A row holds one map of field values. -/
theorem fields_eq (hm : r.Holds m) (hn : r.Holds n) : m.fields = n.fields := by
  obtain ⟨raw, hraw, hfields⟩ := hm.fields
  exact Option.some.inj (hfields.symm.trans (hn.fields_of_text hraw))

theorem status_eq (hm : r.Holds m) (hn : r.Holds n) : m.status = n.status := by
  have h := hm.status.symm.trans hn.status
  exact ModuleStatus.text_inj (Cell.text.inj h)

theorem hash_eq (hm : r.Holds m) (hn : r.Holds n) : m.hash = n.hash :=
  Cell.ofOption_inj (hm.hash.symm.trans hn.hash)

theorem content_eq (hm : r.Holds m) (hn : r.Holds n) : m.content = n.content :=
  Cell.ofOption_inj (hm.content.symm.trans hn.content)

end ModuleRow.Holds

/-! ## Jobs -/

/-- The row has the cells of the job; its times are left out. -/
structure JobRow.Holds (r : JobRow) (j : Job) : Prop where
  id : r.id = .text j.id.text
  world : r.world = .text j.world.text
  moduleKey : r.moduleKey = .text j.moduleKey
  sequence : r.sequence = .int j.sequence
  status : r.status = .text j.status.text
  attempts : r.attempts = .int j.attempts
  lastError : r.lastError = .ofOption j.lastError

theorem JobRow.holds_of_decode {r : JobRow} {j : Job} (h : r.decode = .ok j) : r.Holds j := by
  unfold decode at h
  simp only [Decoded.bind_eq_ok, Decoded.pure_eq_ok, CellAt.text_eq_ok, CellAt.textOption_eq_ok,
    CellAt.nat32_eq_ok, CellAt.parseWord_eq_ok] at h
  obtain ⟨type, _, status, hstatus, id, hid, world, hworld, key, hkey, sequence, hsequence, _, _,
    word, hword, attempts, hattempts, error, herror, _, _, _, _, _, _, _, _, rfl⟩ := h
  rw [JobStatus.text_of_ofText? hword] at hstatus
  exact ⟨hid, hworld, hkey, hsequence.1, hstatus, hattempts.1, herror⟩

theorem JobRow.attempts_lt_of_decode {r : JobRow} {j : Job} (h : r.decode = .ok j) :
    j.attempts < twoPow 32 := by
  unfold decode at h
  simp only [Decoded.bind_eq_ok, Decoded.pure_eq_ok, CellAt.nat32_eq_ok] at h
  obtain ⟨_, _, _, _, _, _, _, _, _, _, _, _, _, _, _, _, _, hattempts, _, _, _, _, _, _, _, _, _,
    _, rfl⟩ := h
  exact hattempts.2

theorem JobRow.holds_ofJob (j : Job) : (JobRow.ofJob j).Holds j :=
  ⟨rfl, rfl, rfl, rfl, rfl, rfl, rfl⟩

/-- A row has the status of the job that it holds, and no other. -/
theorem JobRow.Holds.hasStatus_iff {r : JobRow} {j : Job} (h : r.Holds j) (s : JobStatus) :
    r.hasStatus s = true ↔ j.status = s := by
  unfold hasStatus Cell.isText
  rw [h.status, decide_eq_true_iff, Cell.text.injEq]
  constructor
  · exact JobStatus.text_inj
  · intro heq
    rw [heq]

/-- A row has at most one status. -/
theorem JobRow.hasStatus_unique {r : JobRow} {s t : JobStatus} (hs : r.hasStatus s = true)
    (ht : r.hasStatus t = true) : s = t := by
  unfold hasStatus Cell.isText at hs ht
  rw [decide_eq_true_iff] at hs ht
  rw [hs] at ht
  exact JobStatus.text_inj (Cell.text.inj ht)

theorem JobRow.hasStatus_iff {r : JobRow} {s : JobStatus} :
    r.hasStatus s = true ↔ r.status = .text s.text := by
  unfold hasStatus Cell.isText
  rw [decide_eq_true_iff]

end Lorebook
