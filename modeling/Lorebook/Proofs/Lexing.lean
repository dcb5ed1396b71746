import Lorebook.Template.Parser
import Mathlib.Data.List.DropRight
import Mathlib.Data.List.Forall2

set_option autoImplicit false

/-! # Quotes, pieces and white space

Three scanners read the text of a template: one looks for the end of an expression, one cuts it at
its bars and one reads the arguments of a pipe. They agree on what stands in double quotes, which is
said here once, without any of them (`Balanced`, `Quoted`), and each scanner is shown to follow it:
`Expression.scan_balanced` and `Expression.balanced_of_scan`, `Expression.splitPipes_eq_iff`, and
`Expression.scanArgument_eq_some_iff`. -/

namespace Lorebook

/-! ## White space -/

namespace Text

/-- The text with white space around it. -/
def Padded (core raw : List Char) : Prop :=
  ∃ before after, (∀ c ∈ before, isSpace c) ∧ (∀ c ∈ after, isSpace c) ∧
    raw = before ++ core ++ after

theorem padded_refl (cs : List Char) : Padded cs cs :=
  ⟨[], [], by simp, by simp, by simp⟩

/-- White space before a text may be counted to its padding. -/
theorem Padded.of_append {before core raw : List Char} (hbefore : ∀ c ∈ before, isSpace c)
    (h : Padded (before ++ core) raw) : Padded core raw := by
  obtain ⟨first, last, hfirst, hlast, rfl⟩ := h
  exact ⟨first ++ before, last, fun c hc => (List.mem_append.1 hc).elim (hfirst c) (hbefore c),
    hlast, by simp⟩

theorem padded_trimChars (cs : List Char) : Padded (trimChars cs) cs := by
  refine ⟨cs.takeWhile isSpace, List.rtakeWhile isSpace (trimStartChars cs),
    fun c => List.mem_takeWhile_imp, fun c => List.mem_rtakeWhile_imp, ?_⟩
  show cs = cs.takeWhile isSpace ++ List.rdropWhile isSpace (trimStartChars cs) ++
    List.rtakeWhile isSpace (trimStartChars cs)
  rw [List.append_assoc, List.rdropWhile_append_rtakeWhile]
  exact (List.takeWhile_append_dropWhile).symm

theorem trimStartChars_append {before : List Char} (h : ∀ c ∈ before, isSpace c)
    (cs : List Char) : trimStartChars (before ++ cs) = trimStartChars cs :=
  List.dropWhile_append_of_pos h

theorem trimEndChars_append {after : List Char} (h : ∀ c ∈ after, isSpace c)
    (cs : List Char) : trimEndChars (cs ++ after) = trimEndChars cs := by
  rw [trimEndChars, List.reverse_append,
    List.dropWhile_append_of_pos fun c hc => h c (List.mem_reverse.1 hc)]
  rfl

/-- White space around a text does not count when it is trimmed. -/
theorem Padded.trimChars_eq {core raw : List Char} (h : Padded core raw) :
    trimChars raw = trimChars core := by
  obtain ⟨before, after, hbefore, hafter, rfl⟩ := h
  rw [trimChars, List.append_assoc, trimStartChars_append hbefore, trimChars, trimStartChars,
    trimStartChars, List.dropWhile_append]
  split
  · -- Nothing but white space.
    rename_i hblank
    rw [List.isEmpty_iff.1 hblank, List.dropWhile_eq_nil_iff.2 hafter]
  · exact trimEndChars_append hafter _

/-- A text that neither starts nor ends with white space is its own trimmed text. -/
theorem trimChars_eq_self {cs : List Char} (hfirst : ∀ c ∈ cs.head?, isSpace c = false)
    (hlast : ∀ c ∈ cs.getLast?, isSpace c = false) : trimChars cs = cs := by
  have hstart : trimStartChars cs = cs := by
    cases cs with
    | nil => rfl
    | cons c cs => exact List.dropWhile_cons_of_neg (by simp [hfirst c rfl])
  rw [trimChars, hstart]
  refine List.rdropWhile_eq_self_iff.2 fun hne => ?_
  simp [hlast _ (List.getLast?_eq_some_getLast hne)]

/-- No letter and no number is white space. -/
theorem isSpace_of_isAlphanumeric {c : Char} (h : isAlphanumeric c) : isSpace c = false := by
  have hascii : ∀ r ∈ spaceRanges, r.2 < 48 ∨ 122 < r.1 := by decide
  have hranges : ∀ r ∈ spaceRanges, ∀ r' ∈ alphanumericRanges, r.2 < r'.1 ∨ r'.2 < r.1 := by
    decide +kernel
  refine Bool.eq_false_iff.2 fun hspace => ?_
  obtain ⟨r, hr, hlow, hhigh⟩ := inRanges_iff.1 hspace
  rcases (Bool.or_eq_true _ _).mp h with hletter | htable
  · have hbounds : 48 ≤ c.toNat ∧ c.toNat ≤ 122 := by
      change (decide ('A'.val ≤ c.val ∧ c.val ≤ 'Z'.val) ||
        ('a'.val ≤ c.val && c.val ≤ 'z'.val) || ('0'.val ≤ c.val && c.val ≤ '9'.val)) at hletter
      simp only [Bool.or_eq_true, Bool.and_eq_true, decide_eq_true_eq,
        UInt32.le_iff_toNat_le] at hletter
      rcases hletter with (h | h) | h
      all_goals
        obtain ⟨hfirst, hlast⟩ := h
        exact ⟨Nat.le_trans (by decide) hfirst, Nat.le_trans hlast (by decide)⟩
    have := hascii r hr
    omega
  · obtain ⟨r', hr', hlow', hhigh'⟩ := inRanges_iff.1 htable
    have := hranges r hr r' hr'
    omega

/-! ### Pieces -/

theorem pieces_cons_of_ne {sep c : Char} (h : c ≠ sep) (cs : List Char) :
    pieces sep (c :: cs) = (pieces sep cs).modifyHead (c :: ·) := by
  rw [pieces, if_neg h]
  cases hpieces : pieces sep cs with
  | nil =>
    -- There is always a piece.
    cases cs with
    | nil => cases hpieces
    | cons d ds =>
      rw [pieces] at hpieces
      split at hpieces
      · cases hpieces
      · split at hpieces <;> cases hpieces
  | cons piece rest => rfl

theorem pieces_eq_splitOn (sep : Char) (cs : List Char) : pieces sep cs = cs.splitOn sep := by
  induction cs with
  | nil => rw [List.splitOn_nil, pieces]
  | cons c cs ih =>
    rw [List.splitOn, List.splitOnP_cons_eq_if_modifyHead]
    by_cases hc : c = sep
    · rw [pieces, if_pos hc, if_pos (by simpa using hc), ih, List.splitOn]
    · rw [pieces_cons_of_ne hc, if_neg (by simpa using hc), ih, List.splitOn]

theorem pieces_append_cons (sep : Char) (before after : List Char) :
    pieces sep (before ++ sep :: after) = pieces sep before ++ pieces sep after := by
  simp only [pieces_eq_splitOn, List.splitOn_append_cons_self]

theorem pieces_of_notMem {sep : Char} {cs : List Char} (h : sep ∉ cs) : pieces sep cs = [cs] := by
  have hsingle : ([sep].intercalate [cs]).splitOn sep = [cs] :=
    List.splitOn_intercalate sep (by simpa using h) (by simp)
  rwa [List.intercalate_singleton, ← pieces_eq_splitOn] at hsingle

/-- What stands before a text goes to its first piece. -/
theorem map_trimChars_pieces_before {sep : Char} {before : List Char}
    (hspace : ∀ c ∈ before, isSpace c) (hsep : sep ∉ before) (cs : List Char) :
    (pieces sep (before ++ cs)).map trimChars = (pieces sep cs).map trimChars := by
  have htrim : ∀ piece, trimChars (before ++ piece) = trimChars piece := fun piece =>
    Padded.trimChars_eq ⟨before, [], hspace, by simp, by simp⟩
  by_cases hmem : sep ∈ cs
  · obtain ⟨front, back, rfl, hfront⟩ := List.eq_append_cons_of_mem hmem
    rw [← List.append_assoc, pieces_append_cons, pieces_append_cons, pieces_of_notMem hfront,
      pieces_of_notMem (by simp [hfront, hsep])]
    simp only [List.map_append, List.map_cons, List.map_nil, htrim]
  · rw [pieces_of_notMem hmem, pieces_of_notMem (by simp [hmem, hsep])]
    simp only [List.map_cons, List.map_nil, htrim]

/-- What stands after a text goes to its last piece. -/
theorem map_trimChars_pieces_after {sep : Char} {after : List Char}
    (hspace : ∀ c ∈ after, isSpace c) (hsep : sep ∉ after) (cs : List Char) :
    (pieces sep (cs ++ after)).map trimChars = (pieces sep cs).map trimChars := by
  have htrim : ∀ piece, trimChars (piece ++ after) = trimChars piece := fun piece =>
    Padded.trimChars_eq ⟨[], after, by simp, hspace, by simp⟩
  by_cases hmem : sep ∈ cs
  · obtain ⟨back, front, hcs, hback⟩ := List.eq_append_cons_of_mem (List.mem_reverse.2 hmem)
    obtain rfl : cs = front.reverse ++ sep :: back.reverse := by
      rw [← List.reverse_reverse cs, hcs]
      simp
    rw [List.append_assoc, List.cons_append, pieces_append_cons, pieces_append_cons,
      pieces_of_notMem (show sep ∉ back.reverse by simpa using hback),
      pieces_of_notMem (show sep ∉ back.reverse ++ after by simp [hback, hsep])]
    simp only [List.map_append, List.map_cons, List.map_nil, htrim]
  · rw [pieces_of_notMem hmem, pieces_of_notMem (by simp [hmem, hsep])]
    simp only [List.map_cons, List.map_nil, htrim]

/-- White space around a text makes no difference to its trimmed pieces. -/
theorem Padded.map_trimChars_pieces {core raw : List Char} (h : Padded core raw) {sep : Char}
    (hsep : isSpace sep = false) :
    (pieces sep raw).map trimChars = (pieces sep core).map trimChars := by
  obtain ⟨before, after, hbefore, hafter, rfl⟩ := h
  have hnotMem : ∀ pad : List Char, (∀ c ∈ pad, isSpace c) → sep ∉ pad := fun pad hpad hmem =>
    Bool.false_ne_true (hsep.symm.trans (hpad sep hmem))
  rw [map_trimChars_pieces_after hafter (hnotMem after hafter),
    map_trimChars_pieces_before hbefore (hnotMem before hbefore)]

end Text

/-! ## What stands in quotes -/

namespace Expression

/-- Whether a text closes every string that it opens, read within a string or not. Outside strings
it has only characters of a kind; within them a backslash protects the character after it. -/
inductive Balanced (kind : Char → Prop) : Bool → List Char → Prop
  | nil : Balanced kind false []
  | outside {c : Char} {cs : List Char} (hkind : kind c) (hquote : c ≠ '"')
      (h : Balanced kind false cs) : Balanced kind false (c :: cs)
  | opening {cs : List Char} (h : Balanced kind true cs) : Balanced kind false ('"' :: cs)
  | inside {c : Char} {cs : List Char} (hslash : c ≠ '\\') (hquote : c ≠ '"')
      (h : Balanced kind true cs) : Balanced kind true (c :: cs)
  | escape {c : Char} {cs : List Char} (h : Balanced kind true cs) :
      Balanced kind true ('\\' :: c :: cs)
  | closing {cs : List Char} (h : Balanced kind false cs) : Balanced kind true ('"' :: cs)

/-- A string after its opening quote, with the closing one, and the text that it stands for. -/
inductive Quoted : List Char → List Char → Prop
  | closing : Quoted ['"'] []
  | inside {c : Char} {raw text : List Char} (hslash : c ≠ '\\') (hquote : c ≠ '"')
      (h : Quoted raw text) : Quoted (c :: raw) (c :: text)
  | escape (c : Char) {raw text : List Char} (h : Quoted raw text) :
      Quoted ('\\' :: c :: raw) (unescape c :: text)

namespace Balanced

variable {kind kind' : Char → Prop} {inString : Bool} {cs ds : List Char}

theorem mono (himp : ∀ c, kind c → kind' c) (h : Balanced kind inString cs) :
    Balanced kind' inString cs := by
  induction h with
  | nil => exact nil
  | outside hkind hquote _ ih => exact outside (himp _ hkind) hquote ih
  | opening _ ih => exact opening ih
  | inside hslash hquote _ ih => exact inside hslash hquote ih
  | escape _ ih => exact escape ih
  | closing _ ih => exact closing ih

theorem append (h : Balanced kind inString cs) (h' : Balanced kind false ds) :
    Balanced kind inString (cs ++ ds) := by
  induction h with
  | nil => exact h'
  | outside hkind hquote _ ih => exact outside hkind hquote ih
  | opening _ ih => exact opening ih
  | inside hslash hquote _ ih => exact inside hslash hquote ih
  | escape _ ih => exact escape ih
  | closing _ ih => exact closing ih

/-- A string that is read to its end leaves the text after it outside. -/
theorem of_quoted {raw text : List Char} (h : Quoted raw text) (h' : Balanced kind false ds) :
    Balanced kind true (raw ++ ds) := by
  induction h with
  | closing => exact closing h'
  | inside hslash hquote _ ih => exact inside hslash hquote ih
  | escape c _ ih => exact escape ih

/-- Text without quotes is balanced. -/
theorem of_forall (hkind : ∀ c ∈ cs, kind c) (hquote : '"' ∉ cs) : Balanced kind false cs := by
  induction cs with
  | nil => exact nil
  | cons c cs ih =>
    simp only [List.mem_cons, not_or] at hquote
    exact outside (hkind c (by simp)) (Ne.symm hquote.1)
      (ih (fun d hd => hkind d (by simp [hd])) hquote.2)

end Balanced

/-! ### The end of an expression -/

/-- What may stand between the braces of an expression: no brace outside strings. -/
def Body : List Char → Prop :=
  Balanced (fun c => c ≠ '\x7b' ∧ c ≠ '\x7d') false

section Scan

variable {offset : Nat} {c : Char} {cs rest : List Char}

theorem scan_outside (hbrace : c ≠ '\x7b' ∧ c ≠ '\x7d') (hquote : c ≠ '"') :
    scan offset false (c :: cs) = (scan (offset + 1) false cs).map fun (b, r) => (c :: b, r) := by
  rw [scan.eq_def]
  simp [hbrace, hquote]

theorem scan_opening : scan offset false ('"' :: cs) =
    (scan (offset + 1) true cs).map fun (b, r) => ('"' :: b, r) := by
  rw [scan.eq_def]
  simp

theorem scan_inside (hslash : c ≠ '\\') (hquote : c ≠ '"') :
    scan offset true (c :: cs) = (scan (offset + 1) true cs).map fun (b, r) => (c :: b, r) := by
  rw [scan.eq_def]
  simp [hslash, hquote]

theorem scan_escape :
    scan offset true ('\\' :: c :: cs) =
      (scan (offset + 2) true cs).map fun (b, r) => ('\\' :: c :: b, r) := by
  rw [scan.eq_def]
  simp

theorem scan_closing : scan offset true ('"' :: cs) =
    (scan (offset + 1) false cs).map fun (b, r) => ('"' :: b, r) := by
  rw [scan.eq_def]
  simp

/-- The scan goes through balanced text. -/
theorem scan_balanced {inString : Bool}
    (h : Balanced (fun c => c ≠ '\x7b' ∧ c ≠ '\x7d') inString cs) :
    scan offset inString (cs ++ rest) =
      (scan (offset + cs.length) false rest).map fun (body, r) => (cs ++ body, r) := by
  induction h generalizing offset with
  | nil => cases hscan : scan offset false rest <;> simp [Except.map, hscan]
  | outside hbrace hquote _ ih =>
    rw [List.cons_append, scan_outside hbrace hquote, ih, List.length_cons, ← Nat.add_assoc,
      Nat.add_right_comm]
    cases scan _ false rest <;> rfl
  | opening _ ih =>
    rw [List.cons_append, scan_opening, ih, List.length_cons, ← Nat.add_assoc, Nat.add_right_comm]
    cases scan _ false rest <;> rfl
  | inside hslash hquote _ ih =>
    rw [List.cons_append, scan_inside hslash hquote, ih, List.length_cons, ← Nat.add_assoc,
      Nat.add_right_comm]
    cases scan _ false rest <;> rfl
  | escape _ ih =>
    rw [List.cons_append, List.cons_append, scan_escape, ih, List.length_cons, List.length_cons,
      ← Nat.add_assoc, Nat.add_right_comm, ← Nat.add_assoc, Nat.add_right_comm]
    cases scan _ false rest <;> rfl
  | closing _ ih =>
    rw [List.cons_append, scan_closing, ih, List.length_cons, ← Nat.add_assoc, Nat.add_right_comm]
    cases scan _ false rest <;> rfl

theorem scan_body {body : List Char} (h : Body body) :
    scan offset false (body ++ '\x7d' :: rest) = .ok (body, rest) := by
  rw [scan_balanced h, scan.eq_def]
  simp [Except.map]

theorem scan_nested {body : List Char} (h : Body body) :
    scan offset false (body ++ '\x7b' :: rest) = .error (.nested (offset + body.length)) := by
  rw [scan_balanced h, scan.eq_def]
  simp [Except.map]

/-- What the scan of a text may come to: balanced content before a closing brace, a fault at an
opening brace after balanced text, or no end. -/
def Scanned (inString : Bool) (cs : List Char) : Except ScanFault (List Char × List Char) → Prop
  | .ok (body, rest) => cs = body ++ '\x7d' :: rest ∧
      Balanced (fun c => c ≠ '\x7b' ∧ c ≠ '\x7d') inString body
  | .error (.nested _) => ∃ body rest, cs = body ++ '\x7b' :: rest ∧
      Balanced (fun c => c ≠ '\x7b' ∧ c ≠ '\x7d') inString body
  | .error .unclosed => True

theorem Scanned.prepend {inString inString' : Bool} {cs : List Char} (ds : List Char)
    (hds : ∀ body, Balanced (fun c => c ≠ '\x7b' ∧ c ≠ '\x7d') inString' body →
      Balanced (fun c => c ≠ '\x7b' ∧ c ≠ '\x7d') inString (ds ++ body))
    {r : Except ScanFault (List Char × List Char)} (h : Scanned inString' cs r) :
    Scanned inString (ds ++ cs) (r.map fun (body, rest) => (ds ++ body, rest)) := by
  match r, h with
  | .ok (body, rest), ⟨hcs, hbody⟩ => exact ⟨by rw [hcs, List.append_assoc], hds body hbody⟩
  | .error (.nested _), ⟨body, rest, hcs, hbody⟩ =>
    exact ⟨ds ++ body, rest, by rw [hcs, List.append_assoc], hds body hbody⟩
  | .error .unclosed, _ => trivial

/-- The content that the scan finds is balanced, and so is what stands before a brace that it
refuses. -/
theorem scanned_scan (inString : Bool) (offset : Nat) (cs : List Char) :
    Scanned inString cs (scan offset inString cs) := by
  fun_induction scan offset inString cs with
  | case1 => trivial
  | case2 => trivial
  | case3 offset inString c hescape d rest ih =>
    obtain ⟨rfl, rfl⟩ : inString = true ∧ c = '\\' := by simpa using hescape
    exact ih.prepend ['\\', d] fun body hbody => .escape hbody
  | case4 offset inString rest hescape ih =>
    cases inString with
    | false => exact ih.prepend ['"'] fun body hbody => .opening hbody
    | true => exact ih.prepend ['"'] fun body hbody => .closing hbody
  | case5 offset inString c rest hescape hquote hnested =>
    obtain ⟨rfl, rfl⟩ : inString = false ∧ c = '\x7b' := by simpa using hnested
    exact ⟨[], rest, rfl, .nil⟩
  | case6 offset inString c rest hescape hquote hnested hclose =>
    obtain ⟨rfl, rfl⟩ : inString = false ∧ c = '\x7d' := by simpa using hclose
    exact ⟨rfl, .nil⟩
  | case7 offset inString c rest hescape hquote hnested hclose ih =>
    refine ih.prepend [c] fun body hbody => ?_
    cases inString with
    | false => exact .outside ⟨by simpa using hnested, by simpa using hclose⟩ hquote hbody
    | true => exact .inside (by simpa using hescape) hquote hbody

end Scan

/-! ### The bars of an expression -/

theorem splitPipes.extend_extend (cs ds : List Char) (pieces : List (List Char)) :
    extend cs (extend ds pieces) = extend (cs ++ ds) pieces := by
  cases pieces <;> simp [extend]

theorem splitPipes.extend_nil {pieces : List (List Char)} (h : pieces ≠ []) :
    extend [] pieces = pieces := by
  cases pieces with
  | nil => exact absurd rfl h
  | cons piece rest => rfl

theorem splitPipes_ne_nil (inString : Bool) (cs : List Char) : splitPipes inString cs ≠ [] := by
  have hextend : ∀ ds pieces, splitPipes.extend ds pieces ≠ [] := fun ds pieces => by
    cases pieces <;> simp [splitPipes.extend]
  fun_cases splitPipes inString cs <;> simp [hextend]

/-- Text without a bar outside strings goes to the first piece. -/
theorem splitPipes_balanced {inString : Bool} {cs : List Char}
    (h : Balanced (· ≠ '|') inString cs) (rest : List Char) :
    splitPipes inString (cs ++ rest) = splitPipes.extend cs (splitPipes false rest) := by
  induction h with
  | nil => exact (splitPipes.extend_nil (splitPipes_ne_nil false rest)).symm
  | outside hbar hquote _ ih =>
    rw [List.cons_append, splitPipes.eq_def]
    simp [hbar, hquote, ih, splitPipes.extend_extend]
  | opening _ ih =>
    rw [List.cons_append, splitPipes.eq_def]
    simp [ih, splitPipes.extend_extend]
  | inside hslash hquote _ ih =>
    rw [List.cons_append, splitPipes.eq_def]
    simp [hslash, hquote, ih, splitPipes.extend_extend]
  | escape _ ih =>
    rw [List.cons_append, List.cons_append, splitPipes.eq_def]
    simp [ih, splitPipes.extend_extend]
  | closing _ ih =>
    rw [List.cons_append, splitPipes.eq_def]
    simp [ih, splitPipes.extend_extend]

theorem splitPipes_intercalate {pieces : List (List Char)} (hne : pieces ≠ [])
    (h : ∀ p ∈ pieces, Balanced (· ≠ '|') false p) :
    splitPipes false (['|'].intercalate pieces) = pieces := by
  induction pieces with
  | nil => exact absurd rfl hne
  | cons piece rest ih =>
    have hpiece := splitPipes_balanced (h piece (by simp))
    cases rest with
    | nil => simpa [splitPipes, splitPipes.extend] using hpiece []
    | cons next rest =>
      have hbar : ∀ cs, splitPipes false ('|' :: cs) = [] :: splitPipes false cs := fun cs => by
        rw [splitPipes.eq_def]
        simp
      rw [List.intercalate_cons_cons, List.append_assoc, hpiece, List.singleton_append, hbar,
        ih (by simp) fun p hp => h p (by simp [hp])]
      simp [splitPipes.extend]

theorem intercalate_append (sep piece cs : List Char) (pieces : List (List Char)) :
    sep.intercalate ((cs ++ piece) :: pieces) = cs ++ sep.intercalate (piece :: pieces) := by
  cases pieces with
  | nil => simp
  | cons next rest => simp [List.intercalate_cons_cons]

/-- Balanced text falls into pieces at its bars. -/
theorem exists_pieces {kind : Char → Prop} {inString : Bool} {cs : List Char}
    (h : Balanced kind inString cs) : ∃ piece pieces, cs = ['|'].intercalate (piece :: pieces) ∧
      Balanced (· ≠ '|') inString piece ∧ ∀ p ∈ pieces, Balanced (· ≠ '|') false p := by
  induction h with
  | nil => exact ⟨[], [], by simp, .nil, by simp⟩
  | @outside c cs hkind hquote _ ih =>
    obtain ⟨piece, pieces, rfl, hpiece, hpieces⟩ := ih
    by_cases hbar : c = '|'
    · refine ⟨[], piece :: pieces, by simp [hbar, List.intercalate_cons_cons], .nil, ?_⟩
      exact List.forall_mem_cons.2 ⟨hpiece, hpieces⟩
    · exact ⟨c :: piece, pieces, (intercalate_append _ piece [c] pieces).symm,
        .outside hbar hquote hpiece, hpieces⟩
  | opening _ ih =>
    obtain ⟨piece, pieces, rfl, hpiece, hpieces⟩ := ih
    exact ⟨_, pieces, (intercalate_append _ piece ['"'] pieces).symm, .opening hpiece, hpieces⟩
  | @inside c cs hslash hquote _ ih =>
    obtain ⟨piece, pieces, rfl, hpiece, hpieces⟩ := ih
    exact ⟨_, pieces, (intercalate_append _ piece [c] pieces).symm,
      .inside hslash hquote hpiece, hpieces⟩
  | @escape c cs _ ih =>
    obtain ⟨piece, pieces, rfl, hpiece, hpieces⟩ := ih
    exact ⟨_, pieces, (intercalate_append _ piece ['\\', c] pieces).symm, .escape hpiece, hpieces⟩
  | closing _ ih =>
    obtain ⟨piece, pieces, rfl, hpiece, hpieces⟩ := ih
    exact ⟨_, pieces, (intercalate_append _ piece ['"'] pieces).symm, .closing hpiece, hpieces⟩

/-- The pieces of a balanced text are those that its bars outside strings part it into. -/
theorem splitPipes_eq_iff {kind : Char → Prop} {content : List Char}
    (h : Balanced kind false content) {pieces : List (List Char)} :
    splitPipes false content = pieces ↔ pieces ≠ [] ∧ content = ['|'].intercalate pieces ∧
      ∀ p ∈ pieces, Balanced (· ≠ '|') false p := by
  constructor
  · rintro rfl
    obtain ⟨piece, pieces, rfl, hpiece, hpieces⟩ := exists_pieces h
    have hall : ∀ p ∈ piece :: pieces, Balanced (· ≠ '|') false p :=
      List.forall_mem_cons.2 ⟨hpiece, hpieces⟩
    rw [splitPipes_intercalate (by simp) hall]
    exact ⟨by simp, rfl, hall⟩
  · rintro ⟨hne, rfl, hall⟩
    exact splitPipes_intercalate hne hall

/-! ### Arguments -/

/-- An argument ends at the quote that closes it. -/
theorem scanArgument_quoted {raw text : List Char} (h : Quoted raw text) (rest : List Char) :
    scanArgument (raw ++ rest) = some (text, rest) := by
  induction h with
  | closing => rfl
  | inside hslash hquote _ ih =>
    rw [List.cons_append, scanArgument, ih, Option.map_some]
    · exact hquote
    · exact fun c cs hc _ => hslash hc
  | escape c _ ih =>
    rw [List.cons_append, List.cons_append, scanArgument, ih, Option.map_some]

theorem scanArgument_eq_some_iff {cs text rest : List Char} :
    scanArgument cs = some (text, rest) ↔ ∃ raw, cs = raw ++ rest ∧ Quoted raw text := by
  constructor
  · intro h
    fun_induction scanArgument cs generalizing text rest with
    | case1 => cases h
    | case2 rest' =>
      cases h
      exact ⟨['"'], rfl, .closing⟩
    | case3 c cs ih =>
      obtain ⟨⟨text', rest'⟩, hscan, heq⟩ := Option.map_eq_some_iff.1 h
      cases heq
      obtain ⟨raw, rfl, hraw⟩ := ih hscan
      exact ⟨'\\' :: c :: raw, rfl, .escape c hraw⟩
    | case4 c cs hquote hslash ih =>
      obtain ⟨⟨text', rest'⟩, hscan, heq⟩ := Option.map_eq_some_iff.1 h
      cases heq
      obtain ⟨raw, rfl, hraw⟩ := ih hscan
      refine ⟨c :: raw, rfl, .inside ?_ hquote hraw⟩
      rintro rfl
      -- A backslash is followed by a character that it protects.
      cases hraw with
      | closing => exact hslash _ _ rfl rfl
      | inside => exact hslash _ _ rfl rfl
      | escape => exact hslash _ _ rfl rfl
  · rintro ⟨raw, rfl, hraw⟩
    exact scanArgument_quoted hraw rest

end Expression

end Lorebook
