import Lorebook.Proofs.ExpressionGrammar

set_option autoImplicit false

/-! # The grammar of templates

A template is read from left to right: at each place stands an escape, an expression, or a character
that begins neither (`Template.Reads`). What cannot be read on is a fault with a place
(`Template.Faulty`). A text parses exactly when it can be read to its end, and otherwise the parser
reports the place of the fault that the reading comes to (`Template.parse_grammar`). -/

namespace Lorebook

namespace Template

open Expression (Body Written Blank)

/-! ## Reading -/

/-- A piece of a template as it is written. -/
inductive Piece where
  /-- A character that begins neither an escape nor an expression. -/
  | char (c : Char)
  /-- An escape, by what stands between its braces. -/
  | escape (body : List Char)
  /-- An expression, by what stands between its braces. -/
  | expr (content : List Char) (e : Expression)

/-- The characters of a piece. -/
def Piece.text : Piece → List Char
  | .char c => [c]
  | .escape body => '$' :: '$' :: '\x7b' :: body ++ ['\x7d']
  | .expr content _ => '$' :: '\x7b' :: content ++ ['\x7d']

/-- The characters of pieces one after the other. -/
def textOf (ps : List Piece) : List Char :=
  ps.flatMap Piece.text

/-- The content is that of the expression. -/
def Denotes (gap : List Char → Prop) (content : List Char) (e : Expression) : Prop :=
  Written gap content e.path e.pipes ∧ e.source = String.ofList (Text.trimChars content)

/-- Pieces can be read from a text, up to a rest. An escape or an expression reaches to the first
closing brace outside strings. -/
inductive Reads (gap : List Char → Prop) : List Char → List Piece → List Char → Prop
  | stop (cs : List Char) : Reads gap cs [] cs
  | escape {body cs rest : List Char} {ps : List Piece} (hbody : Body body)
      (h : Reads gap cs ps rest) :
      Reads gap ('$' :: '$' :: '\x7b' :: (body ++ '\x7d' :: cs)) (.escape body :: ps) rest
  | expr {content cs rest : List Char} {e : Expression} {ps : List Piece} (hbody : Body content)
      (hexpr : Denotes gap content e) (h : Reads gap cs ps rest) :
      Reads gap ('$' :: '\x7b' :: (content ++ '\x7d' :: cs)) (.expr content e :: ps) rest
  | char {c : Char} {cs rest : List Char} {ps : List Piece}
      (hescape : ¬ ['$', '$', '\x7b'] <+: c :: cs) (hopen : ¬ ['$', '\x7b'] <+: c :: cs)
      (h : Reads gap cs ps rest) : Reads gap (c :: cs) (.char c :: ps) rest

/-- What begins an escape or an expression. -/
def IsOpening (cs : List Char) : Prop :=
  cs = ['$', '$', '\x7b'] ∨ cs = ['$', '\x7b']

/-- No brace stands outside strings. -/
def Unclosed (cs : List Char) : Prop :=
  ∀ body rest, Body body → cs ≠ body ++ '\x7b' :: rest ∧ cs ≠ body ++ '\x7d' :: rest

/-- An escape or an expression begins here that is not well formed, and the fault is found so many
characters further on. -/
inductive Faulty (gap : List Char → Prop) : List Char → Nat → Prop
  | unclosed {opening cs : List Char} (hopening : IsOpening opening) (hcs : Unclosed cs) :
      Faulty gap (opening ++ cs) 0
  | nested {opening body cs : List Char} (hopening : IsOpening opening) (hbody : Body body) :
      Faulty gap (opening ++ (body ++ '\x7b' :: cs)) (opening.length + body.length)
  | malformed {content cs : List Char} (hbody : Body content)
      (hcontent : ∀ path pipes, ¬ Written gap content path pipes) :
      Faulty gap ('$' :: '\x7b' :: (content ++ '\x7d' :: cs)) 0

/-- The first fault of a text is at the offset. -/
def FaultAt (gap : List Char → Prop) (cs : List Char) (offset : Nat) : Prop :=
  ∃ ps rest k, Reads gap cs ps rest ∧ Faulty gap rest k ∧ offset = (textOf ps).length + k

variable {gap : List Char → Prop} {cs rest : List Char} {ps : List Piece}

/-- What follows an opening is closed, or has a brace before it is, or neither. -/
theorem closing_cases (cs : List Char) :
    (∃ body rest, Body body ∧ cs = body ++ '\x7d' :: rest) ∨
      (∃ body rest, Body body ∧ cs = body ++ '\x7b' :: rest) ∨ Unclosed cs := by
  by_cases hclosed : ∃ body rest, Body body ∧ cs = body ++ '\x7d' :: rest
  · exact .inl hclosed
  by_cases hnested : ∃ body rest, Body body ∧ cs = body ++ '\x7b' :: rest
  · exact .inr (.inl hnested)
  · exact .inr (.inr fun body rest hbody =>
      ⟨fun h => hnested ⟨body, rest, hbody, h⟩, fun h => hclosed ⟨body, rest, hbody, h⟩⟩)

/-- Every text can be read to its end, or to a fault. -/
theorem exists_reads (gap : List Char → Prop) (cs : List Char) :
    ∃ ps rest, Reads gap cs ps rest ∧ (rest = [] ∨ ∃ k, Faulty gap rest k) := by
  induction hlength : cs.length using Nat.strong_induction_on generalizing cs with
  | _ n ih =>
    by_cases hescape : ['$', '$', '\x7b'] <+: cs
    · obtain ⟨tail, rfl⟩ := hescape
      rcases closing_cases tail with ⟨body, after, hbody, rfl⟩ | ⟨body, after, hbody, rfl⟩ | hcs
      · obtain ⟨ps, rest, h, hend⟩ := ih after.length (by simp at hlength; omega) after rfl
        exact ⟨_, rest, .escape hbody h, hend⟩
      · exact ⟨[], _, .stop _, .inr ⟨_, .nested (.inl rfl) hbody⟩⟩
      · exact ⟨[], _, .stop _, .inr ⟨_, .unclosed (.inl rfl) hcs⟩⟩
    by_cases hopen : ['$', '\x7b'] <+: cs
    · obtain ⟨tail, rfl⟩ := hopen
      rcases closing_cases tail with ⟨body, after, hbody, rfl⟩ | ⟨body, after, hbody, rfl⟩ | hcs
      · by_cases hcontent : ∃ path pipes, Written gap body path pipes
        · obtain ⟨path, pipes, hwritten⟩ := hcontent
          obtain ⟨ps, rest, h, hend⟩ := ih after.length (by simp at hlength; omega) after rfl
          exact ⟨_, rest, .expr (e := ⟨path, pipes, _⟩) hbody ⟨hwritten, rfl⟩ h, hend⟩
        · exact ⟨[], _, .stop _,
            .inr ⟨0, .malformed hbody fun path pipes h => hcontent ⟨path, pipes, h⟩⟩⟩
      · exact ⟨[], _, .stop _, .inr ⟨_, .nested (.inr rfl) hbody⟩⟩
      · exact ⟨[], _, .stop _, .inr ⟨_, .unclosed (.inr rfl) hcs⟩⟩
    cases cs with
    | nil => exact ⟨[], [], .stop [], .inl rfl⟩
    | cons c after =>
      obtain ⟨ps, rest, h, hend⟩ := ih after.length (by simp at hlength; omega) after rfl
      exact ⟨_, rest, .char hescape hopen h, hend⟩

/-! ## The segments of what is read -/

/-- Put text in front of segments, to the literal that they begin with if they do. -/
def prepend (cs : List Char) : List Segment → List Segment
  | .literal text :: rest => .literal (String.ofList cs ++ text) :: rest
  | rest => if cs.isEmpty then rest else .literal (String.ofList cs) :: rest

/-- The segments of the pieces of a template: an escape is literal text without its first dollar
sign, and neighbouring literal text is one segment. -/
def segmentsOf : List Piece → List Segment
  | [] => []
  | .char c :: ps => prepend [c] (segmentsOf ps)
  | .escape body :: ps => prepend ('$' :: '\x7b' :: body ++ ['\x7d']) (segmentsOf ps)
  | .expr _ e :: ps => .expr e :: segmentsOf ps

theorem prepend_nil (segments : List Segment) : prepend [] segments = segments := by
  unfold prepend
  split <;> simp

theorem prepend_prepend (cs ds : List Char) (segments : List Segment) :
    prepend cs (prepend ds segments) = prepend (cs ++ ds) segments := by
  match segments with
  | .literal text :: rest =>
    simp only [prepend, String.ofList_append, String.append_assoc]
  | [] => cases cs <;> cases ds <;> simp [prepend, String.append_assoc]
  | .expr e :: rest => cases cs <;> cases ds <;> simp [prepend, String.append_assoc]

theorem literalSegment_eq (gathered : List Char) :
    literalSegment gathered = prepend gathered.reverse [] := by
  simp [literalSegment, prepend]

theorem literalSegment_append (gathered : List Char) (e : Expression) (segments : List Segment) :
    literalSegment gathered ++ .expr e :: segments =
      prepend gathered.reverse (.expr e :: segments) := by
  cases gathered <;> simp [literalSegment, prepend]

/-! ## What the parser does -/

/-- The parser reads what the grammar reads. -/
theorem parseFrom_reads (h : Reads Blank cs ps []) (offset : Nat) (gathered : List Char) :
    parseFrom offset gathered cs = .ok (prepend gathered.reverse (segmentsOf ps)) := by
  generalize hrest : ([] : List Char) = rest at h
  induction h generalizing offset gathered with
  | stop =>
    subst hrest
    rw [parseFrom_nil, literalSegment_eq, segmentsOf]
  | escape hbody _ ih =>
    rw [parseFrom_escape (Expression.scan_body hbody), ih _ _ hrest, segmentsOf, prepend_prepend]
    simp
  | expr hbody hexpr _ ih =>
    rw [parseFrom_expression (Expression.scan_body hbody)
      ((Expression.parse_eq_ok_iff hbody).2 hexpr), ih _ _ hrest, segmentsOf]
    simp [Except.map, prepend_nil, literalSegment_append]
  | char hescape hopen _ ih =>
    rw [parseFrom_cons hescape hopen, ih _ _ hrest, segmentsOf, prepend_prepend]
    simp

/-- The parser reports what it finds where the reading stops. -/
theorem parseFrom_error_of_reads (h : Reads Blank cs ps rest) {error : TemplateError} (offset : Nat)
    (hrest : ∀ gathered, parseFrom (offset + (textOf ps).length) gathered rest = .error error)
    (gathered : List Char) : parseFrom offset gathered cs = .error error := by
  induction h generalizing offset gathered with
  | stop => exact hrest gathered
  | @escape body cs rest ps hbody _ ih =>
    rw [parseFrom_escape (Expression.scan_body hbody)]
    refine ih _ (fun g => ?_) _
    convert hrest g using 2
    simp [textOf, Piece.text]
    omega
  | @expr content cs rest e ps hbody hexpr _ ih =>
    rw [parseFrom_expression (Expression.scan_body hbody)
      ((Expression.parse_eq_ok_iff hbody).2 hexpr), ih _ (fun g => ?_)]
    · rfl
    convert hrest g using 2
    simp [textOf, Piece.text]
    omega
  | char hescape hopen _ ih =>
    rw [parseFrom_cons hescape hopen]
    refine ih _ (fun g => ?_) _
    convert hrest g using 2
    simp [textOf, Piece.text]
    omega

theorem scan_unclosed (h : Unclosed cs) (offset : Nat) :
    Expression.scan offset false cs = .error .unclosed := by
  have hscan := Expression.scanned_scan false offset cs
  generalize Expression.scan offset false cs = r at hscan
  match r, hscan with
  | .ok (body, rest), ⟨hcs, hbody⟩ => exact absurd hcs (h body rest hbody).2
  | .error (.nested _), ⟨body, rest, hcs, hbody⟩ => exact absurd hcs (h body rest hbody).1
  | .error .unclosed, _ => rfl

theorem parseFrom_faulty {k : Nat} (h : Faulty Blank cs k) (offset : Nat) :
    ∃ fault, ∀ gathered, parseFrom offset gathered cs = .error (.parse (offset + k) fault) := by
  cases h with
  | unclosed hopening hcs =>
    refine ⟨.unclosedExpression, fun g => ?_⟩
    rcases hopening with rfl | rfl
    · exact parseFrom_escape_error (scan_unclosed hcs _)
    · exact parseFrom_expression_error (scan_unclosed hcs _)
  | nested hopening hbody =>
    refine ⟨.nestedBraces, fun g => ?_⟩
    rcases hopening with rfl | rfl
    · exact (parseFrom_escape_error (Expression.scan_nested hbody)).trans
        (by rw [scanError, Nat.add_assoc]; rfl)
    · exact (parseFrom_expression_error (Expression.scan_nested hbody)).trans
        (by rw [scanError, Nat.add_assoc]; rfl)
  | malformed hbody hcontent =>
    cases hparse : Expression.parse _ with
    | error fault => exact ⟨fault, fun g => parseFrom_malformed (Expression.scan_body hbody) hparse⟩
    | ok e => exact absurd ((Expression.parse_eq_ok_iff hbody).1 hparse).1 (hcontent _ _)

/-- A text that is read to its end parses, and its segments are those of what is read. -/
theorem parse_of_reads {source : String} (h : Reads Blank source.toList ps []) :
    parse source = .ok ⟨segmentsOf ps⟩ := by
  rw [parse, parseFrom_reads h]
  simp [Except.map, prepend_nil]

theorem parse_of_faultAt {source : String} {offset : Nat}
    (h : FaultAt Blank source.toList offset) :
    ∃ fault, parse source = .error (.parse offset fault) := by
  obtain ⟨ps, rest, k, hreads, hfaulty, rfl⟩ := h
  obtain ⟨fault, hfault⟩ := parseFrom_faulty hfaulty (textOf ps).length
  refine ⟨fault, ?_⟩
  rw [parse, parseFrom_error_of_reads hreads 0 (fun g => by rw [Nat.zero_add, hfault g])]
  rfl

/-- Every text is read to its end, or has a first fault. -/
theorem reads_or_faultAt (cs : List Char) :
    (∃ ps, Reads Blank cs ps []) ∨ ∃ offset, FaultAt Blank cs offset := by
  obtain ⟨ps, rest, h, rfl | ⟨k, hfaulty⟩⟩ := exists_reads Blank cs
  · exact .inl ⟨ps, h⟩
  · exact .inr ⟨_, ps, rest, k, h, hfaulty, rfl⟩

/-- What parses is read to its end. -/
theorem reads_of_parse {source : String} {t : Template} (h : parse source = .ok t) :
    ∃ ps, Reads Blank source.toList ps [] ∧ t.segments = segmentsOf ps := by
  rcases reads_or_faultAt source.toList with ⟨ps, hreads⟩ | ⟨offset, hfault⟩
  · rw [parse_of_reads hreads] at h
    cases h
    exact ⟨ps, hreads, rfl⟩
  · obtain ⟨fault, hfault⟩ := parse_of_faultAt hfault
    rw [hfault] at h
    cases h

theorem expr_mem_prepend {e : Expression} {cs : List Char} {segments : List Segment} :
    .expr e ∈ prepend cs segments ↔ .expr e ∈ segments := by
  unfold prepend
  split
  · simp
  · split <;> simp

/-- Every expression of what is read stands in the text. -/
theorem exists_denotes_of_reads {e : Expression} (h : Reads gap cs ps rest)
    (he : .expr e ∈ segmentsOf ps) : ∃ content, Denotes gap content e := by
  induction h with
  | stop => simp [segmentsOf] at he
  | escape _ _ ih => exact ih (expr_mem_prepend.1 he)
  | @expr content _ _ e' _ _ hexpr _ ih =>
    rcases List.mem_cons.1 he with heq | he
    · cases heq
      exact ⟨content, hexpr⟩
    · exact ih he
  | char _ _ _ ih => exact ih (expr_mem_prepend.1 he)

/-- Every expression of a template that parses has a first step. -/
theorem head?_path_of_parse {source : String} {t : Template} (h : parse source = .ok t) :
    ∀ e ∈ t.expressions, ∃ step, e.path.head? = some step := by
  intro e he
  obtain ⟨ps, hreads, hsegments⟩ := reads_of_parse h
  obtain ⟨s, hs, hse⟩ := List.mem_filterMap.1 he
  cases s with
  | literal text => cases hse
  | expr e' =>
    obtain rfl := Option.some.inj hse
    rw [hsegments] at hs
    obtain ⟨content, ⟨_, _, -, -, hpath, -⟩, -⟩ := exists_denotes_of_reads hreads hs
    exact ⟨_, List.head?_eq_some_head hpath.1⟩

/-- A text parses exactly when it can be read to its end. Otherwise the error says where: at the
first dollar sign of the first escape or expression that is not well formed, or at the opening brace
that stands in it outside strings. -/
theorem parse_grammar (source : String) :
    ((∃ t, parse source = .ok t) ↔ ∃ ps, Reads Blank source.toList ps []) ∧
      (∀ error, parse source = .error error → ∃ offset fault, error = .parse offset fault) ∧
      ∀ offset, (∃ fault, parse source = .error (.parse offset fault)) ↔
        FaultAt Blank source.toList offset := by
  rcases reads_or_faultAt source.toList with ⟨ps, hreads⟩ | ⟨offset, hfault⟩
  · have hok := parse_of_reads hreads
    refine ⟨⟨fun _ => ⟨ps, hreads⟩, fun _ => ⟨_, hok⟩⟩, fun error h => ?_, fun offset => ?_⟩
    · rw [hok] at h
      cases h
    · constructor
      · rintro ⟨fault, h⟩
        rw [hok] at h
        cases h
      · intro hfault
        obtain ⟨fault, h⟩ := parse_of_faultAt hfault
        rw [hok] at h
        cases h
  · obtain ⟨fault, hparse⟩ := parse_of_faultAt hfault
    refine ⟨⟨?_, ?_⟩, fun error h => ?_, fun offset' => ?_⟩
    · rintro ⟨t, h⟩
      rw [hparse] at h
      cases h
    · rintro ⟨ps, hreads⟩
      exact ⟨_, parse_of_reads hreads⟩
    · rw [hparse] at h
      cases h
      exact ⟨offset, fault, rfl⟩
    · constructor
      · rintro ⟨fault', h⟩
        rw [hparse] at h
        cases h
        exact hfault
      · exact parse_of_faultAt

/-! ## White space before a parenthesis -/

/-- A pipe with a blank before its parenthesis. -/
def gappedPipe : List Char :=
  ['f', ' ', '(', '"', 'x', '"', ')']

theorem balanced_gappedPipe {kind : Char → Prop} (h : ∀ c ∈ ['f', ' ', '(', ')'], kind c) :
    Expression.Balanced kind false gappedPipe :=
  .outside (h 'f' (by simp)) (by decide) <| .outside (h ' ' (by simp)) (by decide) <|
    .outside (h '(' (by simp)) (by decide) <| .opening <| .inside (by decide) (by decide) <|
      .closing <| .outside (h ')' (by simp)) (by decide) .nil

/-- The grammar has the pipe if blanks may stand there. -/
theorem pipeText_gappedPipe : Expression.PipeText Blank gappedPipe ⟨"f", ["x"]⟩ := by
  have hname : Expression.IsName Expression.isFunctionChar "f".toList :=
    ⟨by simp, by simpa using (by decide +kernel : Expression.isFunctionChar 'f' = true)⟩
  have hquoted : Expression.Quoted ['x', '"'] "x".toList :=
    .inside (by decide) (by decide) .closing
  have hargs : Expression.ArgsText ['"', 'x', '"'] ["x"] :=
    .inr ⟨by simp, [['"', 'x', '"']], rfl, .cons ⟨_, hquoted, Text.padded_refl _⟩ .nil⟩
  have hblank : Blank [' '] := fun c hc => List.mem_singleton.1 hc ▸ (by decide)
  exact ⟨hname, _, Text.padded_refl _, .inr ⟨[' '], _, hblank, hargs, rfl⟩⟩

/-- It has no such pipe if nothing may stand there. -/
theorem not_pipeText_gappedPipe (pipe : PipeCall) :
    ¬ Expression.PipeText (· = []) gappedPipe pipe := by
  rintro ⟨hname, core, hpadded, hcore⟩
  have htrim : Text.trimChars core = gappedPipe := hpadded.trimChars_eq.symm.trans (by decide)
  -- The blank would have to belong to the name.
  have hblank : ' ' ∈ pipe.name.toList := by
    rcases hcore with ⟨rfl, -⟩ | ⟨between, inner, rfl, -, rfl⟩
    · rw [hname.trimChars_eq fun _ => Expression.isSpace_of_isFunctionChar] at htrim
      simp [htrim, gappedPipe]
    · have hclose : Text.isSpace ')' = false := by decide
      rw [List.append_nil, List.append_assoc, hname.trimChars_concat
        (fun _ => Expression.isSpace_of_isFunctionChar) ('(' :: inner) hclose] at htrim
      obtain ⟨c, letters, hletters⟩ := List.exists_cons_of_ne_nil hname.1
      rw [hletters] at htrim ⊢
      cases letters with
      | nil => simp [gappedPipe] at htrim
      | cons d letters =>
        obtain ⟨-, rfl, -⟩ : c = 'f' ∧ d = ' ' ∧ _ := by simpa [gappedPipe] using htrim
        simp
  exact absurd (hname.2 _ hblank) (by decide +kernel)

/-- White space may stand before the parenthesis of a pipe, where a grammar without such gaps has
none. -/
theorem parse_gap_before_parenthesis :
    (∃ t, parse "$\x7ba|f (\"x\")\x7d" = .ok t) ∧
      ¬ ∃ ps, Reads (· = []) "$\x7ba|f (\"x\")\x7d".toList ps [] := by
  have hsource : "$\x7ba|f (\"x\")\x7d".toList =
      '$' :: '\x7b' :: (('a' :: '|' :: gappedPipe) ++ ['\x7d']) := rfl
  have hbody : Body ('a' :: '|' :: gappedPipe) :=
    .outside (by decide) (by decide) <| .outside (by decide) (by decide) <|
      balanced_gappedPipe (by simp)
  have hpieces : ∀ p ∈ [['a'], gappedPipe], Expression.Balanced (· ≠ '|') false p :=
    List.forall_mem_cons.2 ⟨.outside (by decide) (by decide) .nil,
      List.forall_mem_singleton.2 (balanced_gappedPipe (by simp))⟩
  constructor
  · have hname : Expression.IsName Expression.isPathChar "a".toList :=
      ⟨by simp, by simpa using (by decide +kernel : Expression.isPathChar 'a' = true)⟩
    have hpath : Expression.PathText ['a'] [.key "a"] :=
      ⟨by simp, [['a']], rfl, .cons ⟨hname, Text.padded_refl _⟩ .nil⟩
    have hwritten : Written Blank ('a' :: '|' :: gappedPipe) [.key "a"] [⟨"f", ["x"]⟩] :=
      ⟨['a'], [gappedPipe], rfl, hpieces, hpath, .cons pipeText_gappedPipe .nil⟩
    have hreads := Reads.expr (e := ⟨_, _, _⟩) hbody ⟨hwritten, rfl⟩ (.stop [])
    rw [← hsource] at hreads
    exact ⟨_, parse_of_reads hreads⟩
  · rintro ⟨ps, h⟩
    rw [hsource] at h
    generalize hrest : ('a' :: '|' :: gappedPipe) ++ ['\x7d'] = after at h
    cases h with
    | char hescape hopen => exact hopen ⟨after, rfl⟩
    | @expr content cs _ e ps hbody' hexpr h =>
      -- The content is what the scan finds, and the pipe is what follows its bar.
      have hscan : Expression.scan 0 false (content ++ '\x7d' :: cs) = .ok (content, cs) :=
        Expression.scan_body hbody'
      rw [← hrest, Expression.scan_body hbody] at hscan
      obtain ⟨rfl, -⟩ := Prod.mk.inj (Except.ok.inj hscan)
      obtain ⟨⟨first, raws, hcontent, hpieces', -, hpipes⟩, -⟩ := hexpr
      have hsplit := (Expression.splitPipes_eq_iff hbody).2
        ⟨List.cons_ne_nil first raws, hcontent, hpieces'⟩
      have hpieces := (Expression.splitPipes_eq_iff hbody).2
        ⟨List.cons_ne_nil ['a'] [gappedPipe], rfl, hpieces⟩
      obtain ⟨-, rfl⟩ := List.cons.inj (hsplit.symm.trans hpieces)
      obtain ⟨pipe, pipes, hpipe, -, -⟩ := List.forall₂_cons_left_iff.1 hpipes
      exact not_pipeText_gappedPipe pipe hpipe

end Template

end Lorebook
