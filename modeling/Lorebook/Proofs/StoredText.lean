import Lorebook.Store.Row

set_option autoImplicit false

/-! # Texts that are stored read back

The compact text of a map from text to text reads back as the same map, whatever characters its
keys and values have. Strings go first: an escaped character reads back as its code point, and code
points of characters are never surrogates. Then lists of items that start with a quote, for any
reader that undoes the writing of an item, and at last maps, whose entries are in key order
already. -/

namespace Lorebook

/-! ## Hexadecimal digits -/

theorem Json.hexValue?_hexDigit {n : Nat} (h : n < 16) :
    Json.hexValue? (Text.hexDigit n) = some n := by
  revert n
  decide

theorem Text.hexPadded_four (n : Nat) : Text.hexPadded 4 n =
    [Text.hexDigit (n / 16 / 16 / 16 % 16), Text.hexDigit (n / 16 / 16 % 16),
      Text.hexDigit (n / 16 % 16), Text.hexDigit (n % 16)] := rfl

namespace Json

/-! ## Strings -/

/-- Four hexadecimal digits read back as the number they were written for. -/
theorem readPoints_hexPadded {n : Nat} (h : n < 65536) (rest : List Char) :
    readPoints ('\\' :: 'u' :: (Text.hexPadded 4 n ++ rest)) =
      (readPoints rest).map fun (points, rest) => (n :: points, rest) := by
  have hunit : hexUnit? (Text.hexDigit (n / 16 / 16 / 16 % 16)) (Text.hexDigit (n / 16 / 16 % 16))
      (Text.hexDigit (n / 16 % 16)) (Text.hexDigit (n % 16)) = some n := by
    simp only [hexUnit?, hexValue?_hexDigit (Nat.mod_lt _ (by omega : 16 > 0)), Option.bind_eq_bind,
      Option.bind_some, Option.pure_def, Option.some.injEq]
    omega
  rw [Text.hexPadded_four]
  simp only [List.cons_append, List.nil_append, readPoints, hunit, Option.bind_eq_bind,
    Option.bind_some, Option.pure_def]
  cases readPoints rest <;> rfl

/-- A short escape reads back as the character that it stands for. -/
theorem readPoints_shortEscape {e c : Char} (hne : e ≠ 'u') (h : shortEscape? e = some c)
    (rest : List Char) :
    readPoints ('\\' :: e :: rest) =
      (readPoints rest).map fun (points, rest) => (c.toNat :: points, rest) := by
  rw [readPoints]
  · simp only [h, Option.bind_eq_bind, Option.bind_some, Option.pure_def]
    cases readPoints rest <;> rfl
  · intro a b c d rest' he
    exact absurd he hne

/-- A character as it is written reads back as its code point. -/
theorem readPoints_escapeChar (c : Char) (rest : List Char) :
    readPoints (escapeChar c ++ rest) =
      (readPoints rest).map fun (points, rest) => (c.toNat :: points, rest) := by
  unfold escapeChar
  split
  · subst c; exact readPoints_shortEscape (by decide) rfl rest
  split
  · subst c; exact readPoints_shortEscape (by decide) rfl rest
  split
  · subst c; exact readPoints_shortEscape (by decide) rfl rest
  split
  · subst c; exact readPoints_shortEscape (by decide) rfl rest
  split
  · subst c; exact readPoints_shortEscape (by decide) rfl rest
  split
  · subst c; exact readPoints_shortEscape (by decide) rfl rest
  split
  · subst c; exact readPoints_shortEscape (by decide) rfl rest
  split
  · rename_i hcontrol
    exact readPoints_hexPadded (by omega) rest
  · rename_i hquote hslash _ _ _ _ _ hcontrol
    have hplain : (decide (c.toNat < 0x20) || decide (c = '\\')) = false := by
      simp [hcontrol, hslash]
    rw [List.singleton_append, readPoints]
    · rw [hplain]
      simp only [Bool.false_eq_true, if_false, Option.bind_eq_bind, Option.pure_def]
      cases readPoints rest <;> rfl
    · exact hquote
    · intro a b d e rest' hc
      exact absurd hc hslash
    · intro e rest' hc
      exact absurd hc hslash

/-- Escaped characters with a closing quote read back as their code points. -/
theorem readPoints_escaped (cs rest : List Char) :
    readPoints (cs.flatMap escapeChar ++ '"' :: rest) = some (cs.map Char.toNat, rest) := by
  induction cs with
  | nil => rfl
  | cons c cs ih =>
    rw [List.flatMap_cons, List.append_assoc, readPoints_escapeChar, ih]
    rfl

theorem not_surrogate (c : Char) :
    (isHighSurrogate c.toNat || isLowSurrogate c.toNat) = false := by
  have hvalid : c.toNat < 0xD800 ∨ (0xDFFF < c.toNat ∧ c.toNat < 0x110000) := c.valid
  simp only [isHighSurrogate, isLowSurrogate, Bool.or_eq_false_iff, Bool.and_eq_false_iff,
    decide_eq_false_iff_not]
  omega

/-- The code points of characters denote these characters. -/
theorem charsOfPoints?_toNat (cs : List Char) : charsOfPoints? (cs.map Char.toNat) = some cs := by
  induction cs with
  | nil => rfl
  | cons c cs ih =>
    have hc := not_surrogate c
    have hhigh : isHighSurrogate c.toNat = false := (Bool.or_eq_false_iff.1 hc).1
    cases cs with
    | nil => simp [charsOfPoints?, hc, Char.ofNat_toNat]
    | cons d ds =>
      simp only [List.map_cons] at ih ⊢
      rw [charsOfPoints?, hhigh, Bool.false_and, Bool.false_or]
      rw [(Bool.or_eq_false_iff.1 hc).2, ih]
      simp [Char.ofNat_toNat]

/-- Text as a JSON string reads back. -/
theorem readString_escapeChars (s : String) (rest : List Char) :
    readString (escapeChars s.toList ++ rest) = some (some s, rest) := by
  have hwritten : escapeChars s.toList ++ rest =
      '"' :: (s.toList.flatMap escapeChar ++ '"' :: rest) := by
    simp [escapeChars]
  rw [hwritten, readString, readPoints_escaped]
  simp [charsOfPoints?_toNat]

theorem escapeChars_cons (cs : List Char) :
    escapeChars cs = '"' :: (cs.flatMap escapeChar ++ ['"']) := rfl

theorem toList_escape (s : String) : (escape s).toList = escapeChars s.toList := by
  simp [escape]

/-! ## Lists of items -/

/-- Written items, each but the first after a comma. -/
def joined (first : Bool) : List (List Char) → List Char
  | [] => []
  | t :: rest => (if first then t else ',' :: t) ++ joined false rest

theorem skipSpace_quote (cs : List Char) : skipSpace ('"' :: cs) = '"' :: cs := rfl

theorem skipSpace_comma (cs : List Char) : skipSpace (',' :: cs) = ',' :: cs := rfl

theorem skipSpace_close {close : Char} (h : isJsonSpace close = false) (cs : List Char) :
    skipSpace (close :: cs) = close :: cs := by
  simp [skipSpace, h]

section Lists

variable {α β : Type} {close : Char} {item : Reader α} {write : β → List Char} {value : β → α}

/-- Items that start with a quote and that a reader undoes read back as a list. -/
theorem readList_joined (hspace : isJsonSpace close = false) (hcomma : close ≠ ',')
    (hquote : close ≠ '"') (hwrite : ∀ v, ∃ t, write v = '"' :: t)
    (hitem : ∀ v rest, item (write v ++ rest) = some (value v, rest)) (rest : List Char)
    (vs : List β) : ∀ (first : Bool) (fuel : Nat), vs.length < fuel → (first = true ∨ vs ≠ []) →
      readList close item first fuel (joined first (vs.map write) ++ close :: rest) =
        some (vs.map value, rest) := by
  induction vs with
  | nil =>
    intro first fuel hfuel hfirst
    obtain ⟨fuel, rfl⟩ : ∃ n, fuel = n + 1 := ⟨fuel - 1, by simp at hfuel; omega⟩
    have hfirst : first = true := by simpa using hfirst
    simp [joined, readList, skipSpace_close hspace, hfirst]
  | cons v vs ih =>
    intro first fuel hfuel _
    obtain ⟨fuel, rfl⟩ : ∃ n, fuel = n + 1 := ⟨fuel - 1, by simp at hfuel; omega⟩
    have hlen : vs.length < fuel := by simpa using hfuel
    -- What follows the item is the end of the list, or a comma and further items.
    have hafter : readAfter close (readList close item false fuel) (value v)
        (joined false (vs.map write) ++ close :: rest) = some (value v :: vs.map value, rest) := by
      cases vs with
      | nil => simp [joined, readAfter, skipSpace_close hspace]
      | cons w ws =>
        have hmore := ih false fuel hlen (Or.inr (by simp))
        simp only [List.map_cons, joined, Bool.false_eq_true, if_false, List.cons_append] at hmore ⊢
        simp only [readAfter, skipSpace_comma, Ne.symm hcomma, if_false, hmore, Option.map_some]
    obtain ⟨t, ht⟩ := hwrite v
    cases first with
    | true =>
      have hread := hitem v (joined false (vs.map write) ++ close :: rest)
      simp only [List.map_cons, joined, if_true, List.append_assoc, ht, List.cons_append]
        at hread ⊢
      simp only [readList, skipSpace_quote, Ne.symm hquote, if_false, if_true, hread,
        Option.bind_some, hafter, Char.reduceEq]
    | false =>
      have hread := hitem v (joined false (vs.map write) ++ close :: rest)
      simp only [List.map_cons, joined, Bool.false_eq_true, if_false, List.append_assoc, ht,
        List.cons_append] at hread ⊢
      simp only [readList, skipSpace_comma, skipSpace_quote, Ne.symm hcomma, if_false, if_true,
        hread, Option.bind_some, hafter, Bool.false_eq_true]

end Lists

/-! ## Lists of texts -/

theorem readValue_escapeChars (skim : Bool) (depth : Nat) (s : String) (rest : List Char) :
    readValue skim depth (escapeChars s.toList ++ rest) = some (.str s, rest) := by
  have hread := readString_escapeChars s rest
  rw [escapeChars_cons, List.cons_append] at hread ⊢
  rw [readValue, hread]
  rfl

theorem toList_compactItems (ss : List String) (first : Bool) :
    (compactItems first (ss.map .str)).toList =
      joined first (ss.map fun s => escapeChars s.toList) := by
  induction ss generalizing first with
  | nil => rfl
  | cons s ss ih =>
    rw [List.map_cons, compactItems, List.map_cons, joined]
    simp only [String.toList_append, ih, compact, toList_escape]
    cases first <;> simp

theorem length_joined (ts : List (List Char)) (h : ∀ t ∈ ts, 1 ≤ t.length) (first : Bool) :
    ts.length ≤ (joined first ts).length := by
  induction ts generalizing first with
  | nil => simp
  | cons t ts ih =>
    have ht := h t List.mem_cons_self
    have hts := ih (fun u hu => h u (List.mem_cons_of_mem t hu)) false
    cases first <;> simp [joined] <;> omega

/-- A list of texts reads back as a record. -/
theorem parseRecord?_strings (ss : List String) :
    parseRecord? (strings ss).compact = some (strings ss) := by
  have htext : (strings ss).compact.toList =
      '[' :: (joined true (ss.map fun s => escapeChars s.toList) ++ [']']) := by
    rw [strings, compact, String.toList_append, String.toList_append, toList_compactItems]
    rfl
  have hlist : readList ']' (readValue true (joined true
      (ss.map fun s => escapeChars s.toList) ++ [']']).length) true
      ((joined true (ss.map fun s => escapeChars s.toList) ++ [']']).length + 1)
      (joined true (ss.map fun s => escapeChars s.toList) ++ [']']) = some (ss.map .str, []) := by
    have hwritten : ∀ t ∈ ss.map (fun s => escapeChars s.toList), 1 ≤ t.length := by
      intro t ht
      obtain ⟨s, _, rfl⟩ := List.mem_map.1 ht
      simp [escapeChars_cons]
    have hlen := length_joined (ss.map fun s => escapeChars s.toList) hwritten true
    refine readList_joined (by decide) (by decide) (by decide) (fun s => ⟨_, rfl⟩)
      (readValue_escapeChars true _) [] ss true _ ?_ (Or.inl rfl)
    simp only [List.length_map, List.length_append] at hlen ⊢
    omega
  have hvalue : readValue true (strings ss).compact.length
      ('[' :: (joined true (ss.map fun s => escapeChars s.toList) ++ [']'])) =
      some (strings ss, []) := by
    rw [← String.length_toList, htext, List.length_cons, readValue, hlist]
    rfl
  unfold parseRecord? readAll
  rw [htext]
  show (readValue true _ ('[' :: _)).bind _ = _
  rw [hvalue]
  rfl

/-- What is stored of a list of texts reads back as the list. -/
theorem decode_strings (ss : List String) :
    (parseRecord? (strings ss).compact).bind (decodeList decodeText) = some ss := by
  have hmap : (ss.map Json.str).mapM decodeText = some ss := by
    induction ss with
    | nil => rfl
    | cons s ss ih =>
      rw [List.map_cons, List.mapM_cons, ih]
      rfl
  rw [parseRecord?_strings, Option.bind_some, strings, decodeList, hmap]

/-! ## Maps of texts -/

/-- An entry of a map of texts as it is written. -/
def writtenEntry (e : String × String) : List Char :=
  escapeChars e.1.toList ++ ':' :: escapeChars e.2.toList

theorem toList_compactEntries (es : List (String × String)) (first : Bool) :
    (compactEntries first (es.map fun e => (e.1, .str e.2))).toList =
      joined first (es.map writtenEntry) := by
  induction es generalizing first with
  | nil => rfl
  | cons e es ih =>
    rw [List.map_cons, compactEntries, List.map_cons, joined]
    simp only [String.toList_append, ih, compact, toList_escape, writtenEntry]
    cases first <;> simp

theorem readEntry_writtenEntry (skim : Bool) (depth : Nat) (e : String × String)
    (rest : List Char) :
    readEntry (readValue skim depth) (writtenEntry e ++ rest) =
      some ((some e.1, .str e.2), rest) := by
  unfold readEntry writtenEntry
  rw [List.append_assoc, readString_escapeChars]
  simp only [Option.bind_eq_bind, Option.bind_some, List.cons_append]
  show (readValue skim depth (skipSpace (escapeChars e.2.toList ++ rest))).bind _ = _
  have hskip : skipSpace (escapeChars e.2.toList ++ rest) = escapeChars e.2.toList ++ rest := by
    rw [escapeChars_cons, List.cons_append, skipSpace_quote]
  rw [hskip, readValue_escapeChars]
  rfl

theorem objectOf?_some (es : List (String × Json)) :
    objectOf? (es.map fun e => (some e.1, e.2)) = some (.obj es) := by
  unfold objectOf?
  have hmap : (es.map fun e => (some e.1, e.2)).mapM
      (fun (e : RawEntry) => e.1.map (·, e.2)) = some es := by
    induction es with
    | nil => rfl
    | cons e es ih =>
      rw [List.map_cons, List.mapM_cons, ih]
      rfl
  rw [hmap, Option.map_some]

/-- A map of texts reads back as a record, entry by entry. -/
theorem parseRecord?_compact (es : List (String × String)) :
    parseRecord? (Json.obj (es.map fun e => (e.1, .str e.2))).compact =
      some (.obj (es.map fun e => (e.1, .str e.2))) := by
  have htext : (Json.obj (es.map fun e => (e.1, .str e.2))).compact.toList =
      '\x7b' :: (joined true (es.map writtenEntry) ++ ['\x7d']) := by
    rw [compact, String.toList_append, String.toList_append, toList_compactEntries]
    rfl
  have hlist : readList '\x7d' (readEntry (readValue true (joined true
      (es.map writtenEntry) ++ ['\x7d']).length)) true
      ((joined true (es.map writtenEntry) ++ ['\x7d']).length + 1)
      (joined true (es.map writtenEntry) ++ ['\x7d']) =
      some (es.map fun e => (some e.1, .str e.2), []) := by
    have hwritten : ∀ t ∈ es.map writtenEntry, 1 ≤ t.length := by
      intro t ht
      obtain ⟨e, _, rfl⟩ := List.mem_map.1 ht
      simp [writtenEntry, escapeChars_cons]
    have hlen := length_joined (es.map writtenEntry) hwritten true
    refine readList_joined (by decide) (by decide) (by decide) ?_
      (readEntry_writtenEntry true _) [] es true _ ?_ (Or.inl rfl)
    · intro e
      exact ⟨_, rfl⟩
    · simp only [List.length_map, List.length_append] at hlen ⊢
      omega
  have hvalue : readValue true (Json.obj (es.map fun e => (e.1, .str e.2))).compact.length
      ('\x7b' :: (joined true (es.map writtenEntry) ++ ['\x7d'])) =
      some (.obj (es.map fun e => (e.1, .str e.2)), []) := by
    rw [← String.length_toList, htext, List.length_cons, readValue, hlist, Option.bind_some]
    have hobj := objectOf?_some (es.map fun e => (e.1, .str e.2))
    rw [List.map_map] at hobj
    simp only [Function.comp_def] at hobj
    simp only [hobj, taken]
  unfold parseRecord? readAll
  rw [htext]
  show (readValue true _ ('\x7b' :: _)).bind _ = _
  rw [hvalue]
  rfl

end Json

/-! ## Field maps -/

theorem insertEntry_of_last {α : Type} {key : String} {value : α} {entries : List (String × α)}
    (h : ∀ e ∈ entries, e.1 < key) : insertEntry key value entries = entries ++ [(key, value)] := by
  induction entries with
  | nil => rfl
  | cons head rest ih =>
    have hhead : head.1 < key := h head List.mem_cons_self
    have hne : key ≠ head.1 := fun heq => String.lt_irrefl _ (heq ▸ hhead)
    rw [insertEntry, if_neg (String.lt_asymm hhead), if_neg hne,
      ih fun e he => h e (List.mem_cons_of_mem head he)]
    rfl

/-- Entries in key order that come after a map's own are put at its end. -/
theorem Dictionary.entries_insertAll {α : Type} (entries : List (String × α)) :
    ∀ d : Dictionary α, Ascending (d.entries ++ entries) →
      (d.insertAll entries).entries = d.entries ++ entries := by
  induction entries with
  | nil => intro d _; simp [insertAll]
  | cons e rest ih =>
    intro d h
    have hlast : ∀ f ∈ d.entries, f.1 < e.1 := fun f hf =>
      (List.pairwise_append.1 h).2.2 f hf e List.mem_cons_self
    have hinsert : (d.insert e.1 e.2).entries = d.entries ++ [e] := insertEntry_of_last hlast
    have hnext : Ascending ((d.insert e.1 e.2).entries ++ rest) := by
      rw [hinsert, List.append_assoc]
      exact h
    show ((d.insert e.1 e.2).insertAll rest).entries = _
    rw [ih _ hnext, hinsert, List.append_assoc]
    rfl

theorem Dictionary.ofList_entries {α : Type} (d : Dictionary α) : ofList d.entries = d :=
  Dictionary.ext (entries_insertAll d.entries empty d.ascending)

theorem Json.decodeMap_texts (es : List (String × String)) :
    Json.decodeMap Json.decodeText (.obj (es.map fun e => (e.1, .str e.2))) =
      some (Dictionary.ofList es) := by
  have hmap : (es.map fun e => (e.1, Json.str e.2)).mapM
      (fun e => (Json.decodeText e.2).map (e.1, ·)) = some es := by
    induction es with
    | nil => rfl
    | cons e es ih =>
      rw [List.map_cons, List.mapM_cons, ih]
      rfl
  rw [Json.decodeMap, hmap, Option.map_some]

/-- What is stored of field values reads back as the same values. -/
theorem FieldMap.decode_compact (fields : FieldMap) :
    (Json.parseRecord? (FieldMap.toJson fields).compact).bind (Json.decodeMap Json.decodeText) =
      some fields := by
  rw [FieldMap.toJson, Json.parseRecord?_compact, Option.bind_some, Json.decodeMap_texts,
    Dictionary.ofList_entries]

end Lorebook
