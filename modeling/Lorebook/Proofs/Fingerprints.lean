import Lorebook.Module.Basic
import Lorebook.Proofs.TextBytes
import Mathlib.Data.List.Basic

set_option autoImplicit false

/-! # What a fingerprint tells apart

The bytes that stand for a field map have a unit separator after every key and a record separator
after every value, and nothing protects these characters where a key or a value has them. Maps are
told apart by their bytes as long as no value of the one embeds a key of the other between
separators (`eq_of_entriesText_eq`); a value that does reads as two entries, so that almost every
map shares its bytes with another (`FieldMap.isDetermined_iff`). -/

namespace Lorebook

/-! ## The text of a field map -/

/-- The character after a key. -/
def unitSeparator : Char := '\x1f'

/-- The character after a value. -/
def recordSeparator : Char := '\x1e'

theorem unitSeparator_ne_recordSeparator : unitSeparator ≠ recordSeparator := by
  decide

/-- An entry of a field map with its separators. -/
def entryText (e : String × String) : List Char :=
  e.1.toList ++ unitSeparator :: (e.2.toList ++ [recordSeparator])

/-- Entries with their separators, one after the other. -/
def entriesText (entries : List (String × String)) : List Char :=
  entries.flatMap entryText

theorem entriesText_cons (e : String × String) (entries : List (String × String)) :
    entriesText (e :: entries) =
      e.1.toList ++ unitSeparator :: (e.2.toList ++ recordSeparator :: entriesText entries) := by
  simp [entriesText, entryText]

theorem entriesText_eq_nil_iff {entries : List (String × String)} :
    entriesText entries = [] ↔ entries = [] := by
  cases entries with
  | nil => simp [entriesText]
  | cons e entries => simp [entriesText_cons]

/-- The bytes that stand for a field map are those of its entries with their separators. -/
theorem fieldBytes_eq (m : FieldMap) :
    fieldBytes m = (entriesText m.entries).flatMap String.utf8EncodeChar := by
  rw [fieldBytes, entriesText, List.flatMap_assoc]
  refine List.flatMap_congr fun e _ => ?_
  have hunit : String.utf8EncodeChar unitSeparator = [0x1f] := by decide
  have hrecord : String.utf8EncodeChar recordSeparator = [0x1e] := by decide
  rw [entryText, Text.toList_toUTF8, Text.toList_toUTF8, Text.bytes_eq_flatMap,
    Text.bytes_eq_flatMap, List.flatMap_append, List.flatMap_cons, List.flatMap_append,
    List.flatMap_singleton, hunit, hrecord]
  simp

theorem fieldBytes_eq_iff {m n : FieldMap} :
    fieldBytes m = fieldBytes n ↔ entriesText m.entries = entriesText n.entries := by
  rw [fieldBytes_eq, fieldBytes_eq]
  exact ⟨Text.flatMap_utf8EncodeChar_inj, fun h => by rw [h]⟩

/-! ## Texts that are told apart -/

/-- A text has two parts before and after the first place of a character. -/
theorem append_cons_inj_of_notMem_left {α : Type} {a : α} {xs ys s t : List α} (hxs : a ∉ xs)
    (hys : a ∉ ys) (h : xs ++ a :: s = ys ++ a :: t) : xs = ys ∧ s = t := by
  rcases List.append_eq_append_iff.1 h with ⟨zs, rfl, hzs⟩ | ⟨zs, rfl, hzs⟩
  · cases zs with
    | nil => simpa using hzs
    | cons z zs =>
      obtain ⟨rfl, -⟩ := List.cons.inj hzs
      exact absurd (by simp) hys
  · cases zs with
    | nil => simpa [eq_comm] using hzs
    | cons z zs =>
      obtain ⟨rfl, -⟩ := List.cons.inj hzs
      exact absurd (by simp) hxs

/-- The value goes on, after what reads as its end, as an entry of the key begins. -/
def Embeds (value key : String) : Prop :=
  recordSeparator :: (key.toList ++ [unitSeparator]) <:+: value.toList

/-- The entries can be told apart from the others: no key has a separator, and no value of the ones
embeds a key of the others. -/
structure ReadsApart (entries others : List (String × String)) : Prop where
  keys : ∀ e ∈ entries, unitSeparator ∉ e.1.toList ∧ recordSeparator ∉ e.1.toList
  values : ∀ e ∈ entries, ∀ o ∈ others, ¬ Embeds e.2 o.1

instance (value key : String) : Decidable (Embeds value key) :=
  inferInstanceAs (Decidable (recordSeparator :: (key.toList ++ [unitSeparator]) <:+: value.toList))

instance (entries others : List (String × String)) : Decidable (ReadsApart entries others) :=
  decidable_of_iff ((∀ e ∈ entries, unitSeparator ∉ e.1.toList ∧ recordSeparator ∉ e.1.toList) ∧
      ∀ e ∈ entries, ∀ o ∈ others, ¬ Embeds e.2 o.1)
    ⟨fun h => ⟨h.1, h.2⟩, fun h => ⟨h.keys, h.values⟩⟩

theorem ReadsApart.of_cons {e o : String × String} {entries others : List (String × String)}
    (h : ReadsApart (e :: entries) (o :: others)) : ReadsApart entries others where
  keys d hd := h.keys d (List.mem_cons_of_mem e hd)
  values d hd p hp := h.values d (List.mem_cons_of_mem e hd) p (List.mem_cons_of_mem o hp)

/-- Where a value ends later than another, in texts that are otherwise the same, it embeds the key
that follows the other. -/
theorem exists_embeds {w : String} {entries : List (String × String)} {vs more rest : List Char}
    (hplain : ∀ e ∈ entries, recordSeparator ∉ e.1.toList)
    (hw : w.toList = vs ++ recordSeparator :: more)
    (h : entriesText entries = more ++ recordSeparator :: rest) : ∃ e ∈ entries, Embeds w e.1 := by
  cases entries with
  | nil => simp [entriesText] at h
  | cons e entries =>
    refine ⟨e, List.mem_cons_self, ?_⟩
    rw [entriesText_cons] at h
    rcases List.append_eq_append_iff.1 h with ⟨tail, rfl, htail⟩ | ⟨tail, hkey, htail⟩
    · cases tail with
      | nil => exact absurd (List.cons.inj htail).1 unitSeparator_ne_recordSeparator
      | cons c tail =>
        obtain ⟨rfl, -⟩ := List.cons.inj htail
        exact ⟨vs, tail, by simp [hw]⟩
    · cases tail with
      | nil => exact absurd (List.cons.inj htail).1.symm unitSeparator_ne_recordSeparator
      | cons c tail =>
        obtain ⟨rfl, -⟩ := List.cons.inj htail
        exact absurd (by simp [hkey]) (hplain e List.mem_cons_self)

/-- A value that embeds none of the keys that may follow does not go on after what ends another. -/
theorem value_eq_of_append {v w : String} {tail : List Char}
    {entries others : List (String × String)}
    (hothers : ∀ o ∈ others, recordSeparator ∉ o.1.toList ∧ ¬ Embeds v o.1)
    (hv : v.toList = w.toList ++ tail) (htail : recordSeparator :: entriesText others =
      tail ++ recordSeparator :: entriesText entries) :
    v = w ∧ entriesText entries = entriesText others := by
  cases tail with
  | nil =>
    rw [List.append_nil] at hv
    exact ⟨String.toList_inj.1 hv, (List.cons.inj htail).2.symm⟩
  | cons c tail =>
    obtain ⟨rfl, hmore⟩ := List.cons.inj htail
    obtain ⟨o, ho, hembeds⟩ := exists_embeds (fun o ho => (hothers o ho).1) hv hmore
    exact absurd hembeds (hothers o ho).2

/-- Values that embed none of the keys that may follow end at the same place. -/
theorem value_eq {v w : String} {entries others : List (String × String)}
    (hentries : ∀ e ∈ entries, recordSeparator ∉ e.1.toList ∧ ¬ Embeds w e.1)
    (hothers : ∀ o ∈ others, recordSeparator ∉ o.1.toList ∧ ¬ Embeds v o.1)
    (h : v.toList ++ recordSeparator :: entriesText entries =
      w.toList ++ recordSeparator :: entriesText others) :
    v = w ∧ entriesText entries = entriesText others := by
  rcases List.append_eq_append_iff.1 h with ⟨tail, hw, htail⟩ | ⟨tail, hv, htail⟩
  · obtain ⟨hvalue, hrest⟩ := value_eq_of_append hentries hw htail
    exact ⟨hvalue.symm, hrest.symm⟩
  · exact value_eq_of_append hothers hv htail

/-- Entries that read apart from each other are told apart by their text. -/
theorem eq_of_entriesText_eq {entries others : List (String × String)}
    (h : ReadsApart entries others) (h' : ReadsApart others entries)
    (htext : entriesText entries = entriesText others) : entries = others := by
  induction entries generalizing others with
  | nil => exact (entriesText_eq_nil_iff.1 htext.symm).symm
  | cons e entries ih =>
    cases others with
    | nil => exact entriesText_eq_nil_iff.1 htext
    | cons o others =>
      rw [entriesText_cons, entriesText_cons] at htext
      obtain ⟨hkey, hrest⟩ := append_cons_inj_of_notMem_left (h.keys e List.mem_cons_self).1
        (h'.keys o List.mem_cons_self).1 htext
      obtain ⟨hvalue, hrest⟩ := value_eq
        (fun d hd => ⟨(h.of_cons.keys d hd).2,
          h'.values o List.mem_cons_self d (List.mem_cons_of_mem e hd)⟩)
        (fun p hp => ⟨(h'.of_cons.keys p hp).2,
          h.values e List.mem_cons_self p (List.mem_cons_of_mem o hp)⟩) hrest
      rw [Prod.ext (String.toList_inj.1 hkey) hvalue, ih h.of_cons h'.of_cons hrest]

/-! ## Maps that share their bytes -/

namespace FieldMap

/-- No other map has the same bytes. -/
def IsDetermined (m : FieldMap) : Prop :=
  ∀ n : FieldMap, fieldBytes n = fieldBytes m → n = m

/-- A map of one entry. -/
def single (key value : String) : FieldMap :=
  ⟨[(key, value)], List.pairwise_singleton _ _⟩

theorem single_ne_single {k l v w : String} (h : k ≠ l) : single k v ≠ single l w := by
  intro heq
  have hentries := congrArg Dictionary.entries heq
  simp only [single, List.cons.injEq, Prod.mk.injEq] at hentries
  exact h hentries.1.1

/-- Two entries read as one whose value goes on to the end of the second. -/
theorem not_isDetermined_of_two {m : FieldMap} {e f : String × String}
    {rest : List (String × String)} (h : m.entries = e :: f :: rest) : ¬ m.IsDetermined := by
  have hascending : Ascending (e :: f :: rest) := h ▸ m.ascending
  obtain ⟨hfirst, hlater⟩ := List.pairwise_cons.1 hascending
  let value := String.ofList
    (e.2.toList ++ recordSeparator :: (f.1.toList ++ unitSeparator :: f.2.toList))
  let merged : FieldMap := ⟨(e.1, value) :: rest, List.pairwise_cons.2
    ⟨fun d hd => hfirst d (List.mem_cons_of_mem f hd), (List.pairwise_cons.1 hlater).2⟩⟩
  intro hdetermined
  have hbytes : fieldBytes merged = fieldBytes m := by
    rw [fieldBytes_eq_iff, h, entriesText_cons, entriesText_cons, entriesText_cons]
    simp [value]
  have hentries := congrArg (fun n => n.entries.length) (hdetermined merged hbytes)
  simp [merged, h] at hentries

/-- Two entries of different keys may read alike. -/
theorem not_isDetermined_of_text {k l v w : String} (hne : l ≠ k)
    (htext : l.toList ++ unitSeparator :: w.toList = k.toList ++ unitSeparator :: v.toList) :
    ¬ (single k v).IsDetermined := by
  intro hdetermined
  have hbytes : fieldBytes (single l w) = fieldBytes (single k v) := by
    rw [fieldBytes_eq_iff, single, single, entriesText_cons, entriesText_cons]
    simpa using congrArg (· ++ recordSeparator :: entriesText []) htext
  exact single_ne_single hne (hdetermined _ hbytes)

/-- A unit separator in the key may as well be the one after it. -/
theorem not_isDetermined_of_key {key value : String} (h : unitSeparator ∈ key.toList) :
    ¬ (single key value).IsDetermined := by
  obtain ⟨front, back, hkey⟩ := List.append_of_mem h
  refine not_isDetermined_of_text (l := String.ofList front)
    (w := String.ofList (back ++ unitSeparator :: value.toList)) ?_ (by simp [hkey])
  intro heq
  have hlength := congrArg (fun s => s.toList.length) heq
  simp [hkey] at hlength

/-- One in the value may as well be the one before it. -/
theorem not_isDetermined_of_value {key value : String} (h : unitSeparator ∈ value.toList) :
    ¬ (single key value).IsDetermined := by
  obtain ⟨front, back, hvalue⟩ := List.append_of_mem h
  refine not_isDetermined_of_text (l := String.ofList (key.toList ++ unitSeparator :: front))
    (w := String.ofList back) ?_ (by simp [hvalue])
  intro heq
  have hlength := congrArg (fun s => s.toList.length) heq
  simp at hlength

/-- One entry without unit separators is determined: its key may end at one place only. -/
theorem isDetermined_single {key value : String} (hkey : unitSeparator ∉ key.toList)
    (hvalue : unitSeparator ∉ value.toList) : (single key value).IsDetermined := by
  intro n hn
  have htext := (fieldBytes_eq_iff.1 hn).symm
  refine Dictionary.ext ?_
  rw [single, entriesText_cons] at htext
  cases hentries : n.entries with
  | nil =>
    rw [hentries] at htext
    simp [entriesText] at htext
  | cons e rest =>
    rw [hentries, entriesText_cons] at htext
    have hafter : unitSeparator ∉ value.toList ++ recordSeparator :: entriesText [] := by
      simp [hvalue, entriesText, unitSeparator_ne_recordSeparator]
    obtain ⟨hfirst, -, hlast⟩ := (List.append_cons_inj_of_notMem hkey hafter).1 htext
    cases rest with
    | nil =>
      obtain ⟨hsecond, -⟩ := List.append_inj' hlast rfl
      exact congrArg (fun e => [e])
        (Prod.ext (String.toList_inj.1 hfirst).symm (String.toList_inj.1 hsecond).symm)
    | cons f rest =>
      rw [hlast, entriesText_cons] at hafter
      exact absurd (by simp) hafter

/-- Exactly the maps of at most one entry, without unit separators, are determined by their
bytes. -/
theorem isDetermined_iff (m : FieldMap) : m.IsDetermined ↔ m.entries.length ≤ 1 ∧
    ∀ e ∈ m.entries, unitSeparator ∉ e.1.toList ∧ unitSeparator ∉ e.2.toList := by
  match hentries : m.entries with
  | [] =>
    have hdetermined : m.IsDetermined := by
      intro n hn
      have htext := fieldBytes_eq_iff.1 hn
      rw [hentries] at htext
      exact Dictionary.ext ((entriesText_eq_nil_iff.1 htext).trans hentries.symm)
    simp [hdetermined]
  | [(key, value)] =>
    obtain rfl : m = single key value := Dictionary.ext hentries
    constructor
    · intro hdetermined
      refine ⟨Nat.le_refl 1, List.forall_mem_singleton.2 ⟨?_, ?_⟩⟩
      · exact fun hkey => not_isDetermined_of_key hkey hdetermined
      · exact fun hvalue => not_isDetermined_of_value hvalue hdetermined
    · rintro ⟨-, hplain⟩
      obtain ⟨hkey, hvalue⟩ := List.forall_mem_singleton.1 hplain
      exact isDetermined_single hkey hvalue
  | e :: f :: rest =>
    constructor
    · intro hdetermined
      exact absurd hdetermined (not_isDetermined_of_two hentries)
    · rintro ⟨hlength, -⟩
      simp at hlength

end FieldMap

/-! ## Fingerprints -/

/-- Each of the maps reads apart from the other. -/
def FieldMap.Apart (m n : FieldMap) : Prop :=
  ReadsApart m.entries n.entries ∧ ReadsApart n.entries m.entries

instance (m n : FieldMap) : Decidable (m.Apart n) :=
  inferInstanceAs (Decidable (ReadsApart m.entries n.entries ∧ ReadsApart n.entries m.entries))

theorem FieldMap.Apart.fieldBytes_eq_iff {m n : FieldMap} (h : m.Apart n) :
    fieldBytes m = fieldBytes n ↔ m = n := by
  constructor
  · intro hbytes
    exact Dictionary.ext (eq_of_entriesText_eq h.1 h.2 (Lorebook.fieldBytes_eq_iff.1 hbytes))
  · rintro rfl
    rfl

/-- The stored fingerprint is that of the current values if these have the fingerprint of the values
that it was taken of. -/
theorem WorldModule.hashMatches_iff {m : WorldModule} {stamped : FieldMap}
    (hstamped : m.hash = some (contentHash stamped)) :
    m.hashMatches = true ↔ contentHash m.fields = contentHash stamped := by
  rw [hashMatches, hstamped, beq_iff_eq, Option.some.injEq, eq_comm]

/-- From all other maps, a map is told apart by its bytes exactly if it has at most one entry and no
unit separator; from those that read apart from it, it always is. While the hash function does not
fail, a module's fingerprint holds for the values that have the bytes of those it was taken of,
which are these alone where they read apart. -/
theorem fingerprint_separates (stamped : FieldMap) :
    (stamped.IsDetermined ↔ stamped.entries.length ≤ 1 ∧
      ∀ e ∈ stamped.entries, unitSeparator ∉ e.1.toList ∧ unitSeparator ∉ e.2.toList) ∧
    (∀ fields : FieldMap, fields.Apart stamped →
      (fieldBytes fields = fieldBytes stamped ↔ fields = stamped)) ∧
    ∀ m : WorldModule, m.hash = some (contentHash stamped) →
      (contentHash m.fields = contentHash stamped → fieldBytes m.fields = fieldBytes stamped) →
      (m.hashMatches = true ↔ fieldBytes m.fields = fieldBytes stamped) ∧
        (m.fields.Apart stamped → (m.hashMatches = true ↔ m.fields = stamped)) := by
  refine ⟨stamped.isDetermined_iff, fun fields h => h.fieldBytes_eq_iff, ?_⟩
  intro m hstamped hdigest
  have hbytes : m.hashMatches = true ↔ fieldBytes m.fields = fieldBytes stamped := by
    rw [WorldModule.hashMatches_iff hstamped]
    exact ⟨hdigest, congrArg Sha256.hexDigest⟩
  exact ⟨hbytes, fun hapart => hbytes.trans hapart.fieldBytes_eq_iff⟩

/-- A module whose only value was edited. -/
theorem fingerprint_separates_edited :
    let stamped := FieldMap.single "summary" "islands"
    let m : WorldModule := { WorldModule.new (.mint 0) (.mint 0) "lore" (.ofDay 0) with
      fields := .single "summary" "islands\x1e", hash := some (contentHash stamped) }
    m.fields.Apart stamped ∧ contentHash m.fields ≠ contentHash stamped ∧
      (m.hashMatches = true ↔ m.fields = stamped) := by
  intro stamped m
  have hapart : m.fields.Apart stamped := by decide +kernel
  have hdigest : contentHash m.fields ≠ contentHash stamped := by decide +kernel
  exact ⟨hapart, hdigest,
    ((fingerprint_separates stamped).2.2 m rfl fun h => absurd h hdigest).2 hapart⟩

/-- A value may read as the end of its entry and the beginning of the next: the fingerprint of one
field is that of two. -/
theorem not_fieldBytes_injective :
    let whole : FieldMap := .single "a" "b\x1ec\x1fd"
    let parts : FieldMap := whole.insertAll [("a", "b"), ("c", "d")]
    let m : WorldModule := { WorldModule.new (.mint 0) (.mint 0) "lore" (.ofDay 0) with
      fields := parts, hash := some (contentHash whole) }
    whole ≠ parts ∧ fieldBytes whole = fieldBytes parts ∧ m.hashMatches = true := by
  intro whole parts m
  have hbytes : fieldBytes whole = fieldBytes parts := by decide +kernel
  refine ⟨by decide +kernel, hbytes, ?_⟩
  have hstamped : m.hash = some (contentHash whole) := rfl
  exact (WorldModule.hashMatches_iff hstamped).2 (congrArg Sha256.hexDigest hbytes.symm)

end Lorebook
