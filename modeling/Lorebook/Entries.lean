set_option autoImplicit false

/-! # Entries in key order

Maps with text keys are kept as lists of entries whose keys strictly ascend, by code point, which
is also the order of their UTF-8 bytes. `insertEntry` keeps a list in that form, replacing the entry
of an equal key, so the last of several writes to a key wins. `Dictionary` carries the order as a
proof. -/

namespace Lorebook

variable {α β : Type}

/-! ## Lists of entries -/

/-- Put an entry in its place, replacing the one with an equal key. -/
def insertEntry (key : String) (value : α) : List (String × α) → List (String × α)
  | [] => [(key, value)]
  | (k, v) :: rest =>
    if key < k then (key, value) :: (k, v) :: rest
    else if key = k then (key, value) :: rest
    else (k, v) :: insertEntry key value rest

/-- The entries of a list in key order, the last one winning among equal keys. -/
def sortEntries (entries : List (String × α)) : List (String × α) :=
  entries.foldl (fun sorted e => insertEntry e.1 e.2 sorted) []

/-- The value under a key. -/
def lookup? (key : String) (entries : List (String × α)) : Option α :=
  entries.lookup key

/-- Every entry's key is less than those of the entries after it. -/
abbrev Ascending (entries : List (String × α)) : Prop :=
  entries.Pairwise fun a b => a.1 < b.1

theorem mem_insertEntry {key : String} {value : α} {entries : List (String × α)}
    {e : String × α} (h : e ∈ insertEntry key value entries) : e = (key, value) ∨ e ∈ entries := by
  induction entries with
  | nil => simpa [insertEntry] using h
  | cons head rest ih => grind [insertEntry]

theorem ascending_insertEntry (key : String) (value : α) {entries : List (String × α)}
    (h : Ascending entries) : Ascending (insertEntry key value entries) := by
  induction entries with
  | nil => simp [insertEntry]
  | cons head rest ih =>
    obtain ⟨k, v⟩ := head
    have hk := List.pairwise_cons.1 h
    unfold insertEntry
    split
    · rename_i hlt
      refine List.pairwise_cons.2 ⟨?_, h⟩
      intro e he
      rcases List.mem_cons.1 he with rfl | he
      · exact hlt
      · exact String.lt_trans hlt (hk.1 e he)
    · split
      · rename_i heq
        subst heq
        exact List.pairwise_cons.2 ⟨hk.1, hk.2⟩
      · rename_i hlt hne
        refine List.pairwise_cons.2 ⟨?_, ih hk.2⟩
        intro e he
        rcases mem_insertEntry he with rfl | he
        · exact Std.lt_of_le_of_ne (String.not_lt.1 hlt) (Ne.symm hne)
        · exact hk.1 e he

/-- Inserting sets the value under the key and leaves those under all other keys. -/
theorem lookup?_insertEntry (key : String) (value : α) (entries : List (String × α))
    (k : String) : lookup? k (insertEntry key value entries) =
      if k = key then some value else lookup? k entries := by
  induction entries with
  | nil => grind [insertEntry, lookup?]
  | cons head rest ih => grind [insertEntry, lookup?]

theorem lookup?_cons (key k : String) (value : α) (rest : List (String × α)) :
    lookup? key ((k, value) :: rest) = if key = k then some value else lookup? key rest := by
  grind [lookup?]

/-- Of the entries that are put in, the last one under a key is found; without one, what was there. -/
theorem lookup?_foldl_insertEntry (entries sorted : List (String × α)) (k : String) :
    lookup? k (entries.foldl (fun sorted e => insertEntry e.1 e.2 sorted) sorted) =
      (lookup? k entries.reverse).or (lookup? k sorted) := by
  induction entries generalizing sorted with
  | nil => rfl
  | cons e rest ih =>
    obtain ⟨key, value⟩ := e
    have hlast : lookup? k (rest.reverse ++ [(key, value)]) =
        (lookup? k rest.reverse).or (lookup? k [(key, value)]) := List.lookup_append
    rw [List.foldl_cons, ih, lookup?_insertEntry, List.reverse_cons, hlast, Option.or_assoc,
      lookup?_cons]
    split <;> rfl

/-- Sorting keeps the last entry of each key. -/
theorem lookup?_sortEntries (entries : List (String × α)) (k : String) :
    lookup? k (sortEntries entries) = lookup? k entries.reverse := by
  rw [sortEntries, lookup?_foldl_insertEntry]
  exact Option.or_none

/-! ## Dictionaries -/

/-- A map from text to values, with its entries in key order. -/
structure Dictionary (α : Type) where
  entries : List (String × α)
  ascending : Ascending entries

namespace Dictionary

/-- The map without entries. -/
def empty : Dictionary α :=
  ⟨[], List.Pairwise.nil⟩

instance : Inhabited (Dictionary α) := ⟨empty⟩

/-- The map with `value` under `key`, whatever was there before. -/
def insert (d : Dictionary α) (key : String) (value : α) : Dictionary α :=
  ⟨insertEntry key value d.entries, ascending_insertEntry key value d.ascending⟩

/-- The map after all entries of a list are inserted, in their order. -/
def insertAll (d : Dictionary α) (entries : List (String × α)) : Dictionary α :=
  entries.foldl (fun d e => d.insert e.1 e.2) d

/-- The map of a list of entries, the last one winning among equal keys. -/
def ofList (entries : List (String × α)) : Dictionary α :=
  empty.insertAll entries

/-- The value under a key. -/
def find? (d : Dictionary α) (key : String) : Option α :=
  lookup? key d.entries

@[simp] theorem find?_empty (k : String) : (empty : Dictionary α).find? k = none := rfl

theorem find?_insert (d : Dictionary α) (key : String) (value : α) (k : String) :
    (d.insert key value).find? k = if k = key then some value else d.find? k :=
  lookup?_insertEntry key value d.entries k

theorem insertAll_append (d : Dictionary α) (xs ys : List (String × α)) :
    d.insertAll (xs ++ ys) = (d.insertAll xs).insertAll ys :=
  List.foldl_append

theorem entries_insertAll_eq (d : Dictionary α) (entries : List (String × α)) :
    (d.insertAll entries).entries =
      entries.foldl (fun sorted e => insertEntry e.1 e.2 sorted) d.entries := by
  induction entries generalizing d with
  | nil => rfl
  | cons e rest ih => exact ih (d.insert e.1 e.2)

/-- After entries are inserted, the value under a key is that of the last of them under the key;
without one, it is what it was. -/
theorem find?_insertAll (d : Dictionary α) (entries : List (String × α)) (k : String) :
    (d.insertAll entries).find? k = (lookup? k entries.reverse).or (d.find? k) := by
  rw [find?, entries_insertAll_eq]
  exact lookup?_foldl_insertEntry entries d.entries k

/-- Sorted entries are those of a dictionary. -/
theorem entries_ofList (entries : List (String × α)) :
    (ofList entries).entries = sortEntries entries :=
  entries_insertAll_eq empty entries

/-- After entries are inserted, the value under a key is what it was, or one that was inserted. -/
theorem find?_insertAll_cases (d : Dictionary α) (entries : List (String × α)) (k : String) :
    (d.insertAll entries).find? k = d.find? k ∨
      ∃ v, (k, v) ∈ entries ∧ (d.insertAll entries).find? k = some v := by
  induction entries generalizing d with
  | nil => exact Or.inl rfl
  | cons e rest ih =>
    rcases ih (d.insert e.1 e.2) with hkept | ⟨v, hv, hset⟩
    · rw [find?_insert] at hkept
      split at hkept
      · rename_i heq
        exact Or.inr ⟨e.2, heq ▸ List.mem_cons_self, hkept⟩
      · exact Or.inl hkept
    · exact Or.inr ⟨v, List.mem_cons_of_mem e hv, hset⟩

/-- Inserting entries leaves the values under all other keys. -/
theorem find?_insertAll_of_ne {k : String} {entries : List (String × α)}
    (h : ∀ e ∈ entries, e.1 ≠ k) (d : Dictionary α) :
    (d.insertAll entries).find? k = d.find? k :=
  (find?_insertAll_cases d entries k).resolve_right fun ⟨v, hv, _⟩ => h (k, v) hv rfl

/-- The keys, ascending. -/
def keys (d : Dictionary α) : List String :=
  d.entries.map (·.1)

/-- The values, in the order of their keys. -/
def values (d : Dictionary α) : List α :=
  d.entries.map (·.2)

@[ext] theorem ext {d e : Dictionary α} (h : d.entries = e.entries) : d = e := by
  cases d; cases e; simp_all

instance [DecidableEq α] : DecidableEq (Dictionary α) := fun d e =>
  if h : d.entries = e.entries then isTrue (ext h) else isFalse fun he => h (he ▸ rfl)

/-- The map with every value replaced by what a function gives for it. -/
def map (f : α → β) (d : Dictionary α) : Dictionary β where
  entries := d.entries.map fun e => (e.1, f e.2)
  ascending := by
    have h := d.ascending
    simpa [Ascending, List.pairwise_map] using h

end Dictionary

end Lorebook
