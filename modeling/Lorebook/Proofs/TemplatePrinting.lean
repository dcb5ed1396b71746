import Lorebook.Proofs.TemplateGrammar
import Lorebook.Template.Render

set_option autoImplicit false

/-! # Templates printed and read back

Segments print as text: literal text with one more dollar sign before each of its `${…}`, and
expressions with their arguments in quotes. What is printed parses to the segments that were
printed, if they are such as a parser gives, and what any text parses to is such
(`Template.parse_print`). -/

namespace Lorebook

open Expression (Body Balanced Quoted Blank IsName isPathChar isFunctionChar)

/-! ## Printing -/

/-- A character as it stands in quotes. -/
def PipeCall.escapeChar (c : Char) : List Char :=
  if c = '\\' ∨ c = '"' then ['\\', c] else [c]

/-- An argument in quotes. -/
def PipeCall.printArg (arg : String) : List Char :=
  '"' :: (arg.toList.flatMap escapeChar ++ ['"'])

/-- A pipe with its arguments in parentheses. -/
def PipeCall.print (pipe : PipeCall) : List Char :=
  pipe.name.toList ++ '(' :: [','].intercalate (pipe.args.map printArg) ++ [')']

/-- What is printed between the braces of an expression. -/
def Expression.print (e : Expression) : List Char :=
  ['|'].intercalate (e.dottedPath.toList :: e.pipes.map PipeCall.print)

/-- Literal text with one more dollar sign before each of its embedded expressions. -/
def Template.quote (cs : List Char) : List Char :=
  match cs with
  | [] => []
  | '$' :: '\x7b' :: rest =>
    match _scanned : Expression.scan 0 false rest with
    | .ok (body, rest') => '$' :: '$' :: '\x7b' :: (body ++ '\x7d' :: quote rest')
    | .error _ => '$' :: '\x7b' :: rest
  | c :: rest => c :: quote rest
termination_by cs.length
decreasing_by
  · have := Expression.length_of_scan_eq_ok _scanned
    simp only [List.length_cons]
    omega
  · simp

/-- A segment as it is printed. -/
def Segment.print : Segment → List Char
  | .literal text => Template.quote text.toList
  | .expr e => '$' :: '\x7b' :: (e.print ++ ['\x7d'])

/-- Segments as they are printed one after the other. -/
def Template.print (segments : List Segment) : String :=
  String.ofList (segments.flatMap Segment.print)

/-! ## Segments that a parser may give -/

/-- Each expression that is embedded in a text is closed. -/
inductive Template.Closed : List Char → Prop
  | nil : Closed []
  | embedded {body cs : List Char} (hbody : Body body) (h : Closed cs) :
      Closed ('$' :: '\x7b' :: (body ++ '\x7d' :: cs))
  | char {c : Char} {cs : List Char} (hopen : ¬ ['$', '\x7b'] <+: c :: cs) (h : Closed cs) :
      Closed (c :: cs)

/-- The path is not empty, and all names are valid. -/
structure Expression.WellFormed (e : Expression) : Prop where
  path : e.path ≠ []
  steps : ∀ step ∈ e.path, IsName isPathChar step.name.toList
  pipes : ∀ pipe ∈ e.pipes, IsName isFunctionChar pipe.name.toList

/-- A literal has text, and what it embeds is closed. -/
def Segment.WellFormed : Segment → Prop
  | .literal text => text ≠ "" ∧ Template.Closed text.toList
  | .expr e => e.WellFormed

/-- A literal has no literal after it, and no dollar sign before an expression. -/
def Segment.MayPrecede : Segment → Segment → Prop
  | .literal _, .literal _ => False
  | .literal text, .expr _ => text.toList.getLast? ≠ some '$'
  | .expr _, _ => True

/-- The segments are such as a template may have. -/
structure Template.WellFormed (segments : List Segment) : Prop where
  each : ∀ s ∈ segments, s.WellFormed
  chain : segments.IsChain Segment.MayPrecede

/-- The segment without the text of its expression. -/
def Segment.plain : Segment → Segment
  | .literal text => .literal text
  | .expr e => .expr ⟨e.path, e.pipes, ""⟩

/-! ## Expressions read back -/

namespace Expression

/-- A character that neither parts an expression nor ends it. -/
def IsPlain (c : Char) : Prop :=
  c ≠ '|' ∧ c ≠ '\x7b' ∧ c ≠ '\x7d'

instance : DecidablePred IsPlain := fun c =>
  inferInstanceAs (Decidable (c ≠ '|' ∧ c ≠ '\x7b' ∧ c ≠ '\x7d'))

theorem Balanced.intercalate {kind : Char → Prop} {sep : Char} (hsep : kind sep)
    (hquote : sep ≠ '"') {texts : List (List Char)} (h : ∀ t ∈ texts, Balanced kind false t) :
    Balanced kind false ([sep].intercalate texts) := by
  induction texts with
  | nil => exact .nil
  | cons text texts ih =>
    cases texts with
    | nil => simpa using h text (by simp)
    | cons next texts =>
      rw [List.intercalate_cons_cons, List.append_assoc]
      exact (h text (by simp)).append (.outside hsep hquote (ih fun t ht => h t (by simp [ht])))

theorem isPlain_of_isPathChar {c : Char} (h : isPathChar c) : IsPlain c ∧ c ≠ '"' := by
  refine ⟨⟨?_, ?_, ?_⟩, ?_⟩ <;> rintro rfl <;> exact absurd h (by decide +kernel)

theorem isPlain_of_isFunctionChar {c : Char} (h : isFunctionChar c) : IsPlain c ∧ c ≠ '"' := by
  refine ⟨⟨?_, ?_, ?_⟩, ?_⟩ <;> rintro rfl <;> exact absurd h (by decide +kernel)

end Expression

namespace PipeCall

open Expression (IsPlain isPlain_of_isFunctionChar)

theorem quoted_escape (cs : List Char) : Quoted (cs.flatMap escapeChar ++ ['"']) cs := by
  induction cs with
  | nil => exact .closing
  | cons c cs ih =>
    rw [List.flatMap_cons, List.append_assoc, escapeChar]
    split
    · rename_i h
      rcases h with rfl | rfl
      · exact .escape '\\' ih
      · exact .escape '"' ih
    · rename_i h
      rw [not_or] at h
      exact .inside h.1 h.2 ih

theorem balanced_printArg (kind : Char → Prop) (arg : String) :
    Balanced kind false (printArg arg) := by
  have h : Balanced kind true (arg.toList.flatMap escapeChar ++ ['"'] ++ []) :=
    .of_quoted (quoted_escape arg.toList) .nil
  rw [List.append_nil] at h
  exact .opening h

theorem argsText_print (args : List String) :
    Expression.ArgsText ([','].intercalate (args.map printArg)) args := by
  cases args with
  | nil => exact .inl ⟨rfl, by simp⟩
  | cons arg args =>
    refine .inr ⟨by simp, _, rfl, ?_⟩
    rw [List.forall₂_map_left_iff, List.forall₂_same]
    exact fun a _ => ⟨_, quoted_escape a.toList, Text.padded_refl _⟩

section Named

variable {pipe : PipeCall} (hname : IsName isFunctionChar pipe.name.toList)

include hname

theorem balanced_print : Balanced IsPlain false pipe.print := by
  have hargs : Balanced IsPlain false ([','].intercalate (pipe.args.map printArg)) :=
    .intercalate (by decide) (by decide) fun t ht => by
      obtain ⟨arg, -, rfl⟩ := List.mem_map.1 ht
      exact balanced_printArg IsPlain arg
  refine .append (.append ?_ (.outside (by decide) (by decide) hargs)) ?_
  · exact .of_forall (fun c hc => (isPlain_of_isFunctionChar (hname.2 c hc)).1) fun hquote =>
      (isPlain_of_isFunctionChar (hname.2 _ hquote)).2 rfl
  · exact .outside (by decide) (by decide) .nil

theorem pipeText_print : Expression.PipeText Blank pipe.print pipe :=
  ⟨hname, _, Text.padded_refl _, .inr ⟨[], _, by simp [Blank], argsText_print pipe.args,
    by simp [print]⟩⟩

end Named

end PipeCall

namespace Expression.WellFormed

variable {e : Expression}

theorem toList_dottedPath (e : Expression) :
    e.dottedPath.toList = ['.'].intercalate (e.path.map fun step => step.text.toList) := by
  simp [Expression.dottedPath, String.toList_intercalate, Function.comp_def]

theorem pathText (h : e.WellFormed) : PathText e.dottedPath.toList e.path := by
  refine ⟨h.path, _, toList_dottedPath e, ?_⟩
  rw [List.forall₂_map_left_iff, List.forall₂_same]
  exact fun step hstep => ⟨h.steps step hstep, Text.padded_refl _⟩

theorem balanced_path (h : e.WellFormed) : Balanced IsPlain false e.dottedPath.toList := by
  rw [toList_dottedPath]
  refine .intercalate (by decide) (by decide) fun t ht => ?_
  obtain ⟨step, hstep, rfl⟩ := List.mem_map.1 ht
  have hname : Balanced IsPlain false step.name.toList :=
    .of_forall (fun c hc => (isPlain_of_isPathChar ((h.steps step hstep).2 c hc)).1) fun hquote =>
      (isPlain_of_isPathChar ((h.steps step hstep).2 _ hquote)).2 rfl
  cases step with
  | key name => exact hname
  | wildcard name =>
    rw [PathStep.text, String.toList_append]
    exact hname.append (.of_forall (by simp [IsPlain]) (by simp))

theorem balanced_pieces (h : e.WellFormed) :
    ∀ p ∈ e.dottedPath.toList :: e.pipes.map PipeCall.print, Balanced IsPlain false p := by
  refine List.forall_mem_cons.2 ⟨h.balanced_path, fun p hp => ?_⟩
  obtain ⟨pipe, hpipe, rfl⟩ := List.mem_map.1 hp
  exact PipeCall.balanced_print (h.pipes pipe hpipe)

theorem body_print (h : e.WellFormed) : Body e.print := by
  refine .intercalate (by decide) (by decide) fun p hp => ?_
  exact (h.balanced_pieces p hp).mono fun c hc => hc.2

theorem written_print (h : e.WellFormed) : Written Blank e.print e.path e.pipes := by
  refine ⟨_, _, rfl, fun p hp => (h.balanced_pieces p hp).mono fun c hc => hc.1, h.pathText, ?_⟩
  rw [List.forall₂_map_left_iff, List.forall₂_same]
  exact fun pipe hpipe => PipeCall.pipeText_print (h.pipes pipe hpipe)

end Expression.WellFormed

/-! ## Literals read back -/

namespace Template

theorem quote_embedded {body : List Char} (hbody : Body body) (cs : List Char) :
    quote ('$' :: '\x7b' :: (body ++ '\x7d' :: cs)) =
      '$' :: '$' :: '\x7b' :: (body ++ '\x7d' :: quote cs) := by
  have hscan : Expression.scan 0 false (body ++ '\x7d' :: cs) = .ok (body, cs) :=
    Expression.scan_body hbody
  rw [quote]
  split <;> simp_all

theorem quote_char {c : Char} {cs : List Char} (hopen : ¬ ['$', '\x7b'] <+: c :: cs) :
    quote (c :: cs) = c :: quote cs := by
  rw [quote]
  rintro rest rfl rfl
  exact hopen (by simp)

theorem head?_quote (cs : List Char) : (quote cs).head? = cs.head? := by
  fun_cases quote cs <;> simp

section Literal

variable {gap : List Char → Prop} {text after rest : List Char} {ps : List Piece}

/-- What may follow a literal: nothing, or an expression if the literal does not end in a dollar
sign. -/
def Bounds (text after : List Char) : Prop :=
  after = [] ∨ ['$', '\x7b'] <+: after ∧ text.getLast? ≠ some '$'

theorem Bounds.of_suffix {ending : List Char} (h : Bounds text after) (hsuffix : ending <:+ text) :
    Bounds ending after := by
  obtain ⟨front, rfl⟩ := hsuffix
  refine h.imp_right fun ⟨hafter, hlast⟩ => ⟨hafter, fun hending => hlast ?_⟩
  rw [List.getLast?_append, hending]
  rfl

/-- No expression begins at a character of a literal where none did. -/
theorem not_prefix_quote_cons {c : Char} (hopen : ¬ ['$', '\x7b'] <+: c :: text)
    (hafter : Bounds text after) : ¬ ['$', '\x7b'] <+: c :: (quote text ++ after) := by
  rintro ⟨tail, htail⟩
  obtain ⟨rfl, hbrace⟩ := List.cons.inj htail
  have hhead := congrArg List.head? hbrace
  rw [List.head?_append, head?_quote] at hhead
  cases text with
  | nil => rcases hafter with rfl | ⟨⟨tail', rfl⟩, -⟩ <;> simp at hhead
  | cons d text =>
    obtain rfl : d = '\x7b' := by simpa [eq_comm] using hhead
    exact hopen ⟨text, rfl⟩

/-- No dollar sign of a literal makes an expression after it an escape. -/
theorem not_prefix_quote (h : Closed text) (hafter : Bounds text after)
    (hlast : text = [] → after = []) : ¬ ['$', '\x7b'] <+: quote text ++ after := by
  cases h with
  | nil => simp [quote, hlast rfl]
  | embedded hbody _ =>
    rw [quote_embedded hbody]
    simp
  | @char c cs hopen _ =>
    rw [quote_char hopen]
    exact not_prefix_quote_cons hopen (hafter.of_suffix (List.suffix_cons c cs))

/-- A literal that is quoted is read back, whatever may follow it. -/
theorem reads_quote (h : Closed text) (hafter : Bounds text after)
    (hps : Reads gap after ps rest) :
    ∃ ps', Reads gap (quote text ++ after) ps' rest ∧
      segmentsOf ps' = prepend text (segmentsOf ps) := by
  induction h with
  | nil => exact ⟨ps, by simpa [quote] using hps, (prepend_nil _).symm⟩
  | @embedded body cs hbody _ ih =>
    have hsuffix : cs <:+ '$' :: '\x7b' :: (body ++ '\x7d' :: cs) :=
      ⟨'$' :: '\x7b' :: (body ++ ['\x7d']), by simp⟩
    obtain ⟨ps', hread, hsegments⟩ := ih (hafter.of_suffix hsuffix)
    refine ⟨.escape body :: ps', ?_, ?_⟩
    · rw [quote_embedded hbody]
      simpa using Reads.escape hbody hread
    · rw [segmentsOf, hsegments, prepend_prepend]
      simp
  | @char c cs hopen hclosed ih =>
    have hafter' : Bounds cs after := hafter.of_suffix (List.suffix_cons c cs)
    obtain ⟨ps', hread, hsegments⟩ := ih hafter'
    refine ⟨.char c :: ps', ?_, ?_⟩
    · rw [quote_char hopen]
      refine .char ?_ (not_prefix_quote_cons hopen hafter') hread
      rintro ⟨tail, htail⟩
      obtain ⟨rfl, hopens⟩ := List.cons.inj htail
      refine not_prefix_quote hclosed hafter' (fun hcs => ?_) ⟨tail, hopens⟩
      exact hafter.resolve_right fun hdollar => hdollar.2 (by simp [hcs])
    · rw [segmentsOf, hsegments, prepend_prepend]
      simp

end Literal

/-! ## Templates read back -/

theorem WellFormed.of_cons {s : Segment} {segments : List Segment}
    (h : WellFormed (s :: segments)) : WellFormed segments :=
  ⟨fun s' hs' => h.each s' (by simp [hs']), h.chain.of_cons⟩

/-- A text put in front of segments that do not begin with a literal is a literal of its own. -/
theorem prepend_eq_cons {cs : List Char} (hcs : cs ≠ []) {segments : List Segment}
    (h : ∀ text rest, segments ≠ .literal text :: rest) :
    prepend cs segments = .literal (String.ofList cs) :: segments := by
  match segments with
  | [] => simp [prepend, hcs]
  | .expr e :: rest => simp [prepend, hcs]
  | .literal text :: rest => exact absurd rfl (h text rest)

/-- What is printed after a literal neither continues nor escapes it. -/
theorem WellFormed.bounds {text : String} {segments : List Segment}
    (h : WellFormed (.literal text :: segments)) :
    Bounds text.toList (segments.flatMap Segment.print) := by
  match segments, h.chain with
  | [], _ => exact .inl rfl
  | .expr e :: rest, .cons_cons hlast _ => exact .inr ⟨⟨_, rfl⟩, hlast⟩
  | .literal _ :: rest, .cons_cons hfalse _ => exact hfalse.elim

/-- What is printed is read as it was, but for the texts of the expressions. -/
theorem reads_print {segments : List Segment} (h : WellFormed segments) :
    ∃ ps, Reads Blank (segments.flatMap Segment.print) ps [] ∧
      (segmentsOf ps).map Segment.plain = segments.map Segment.plain := by
  induction segments with
  | nil => exact ⟨[], .stop [], rfl⟩
  | cons s segments ih =>
    obtain ⟨ps, hread, hplain⟩ := ih h.of_cons
    have hs := h.each s (by simp)
    cases s with
    | expr e =>
      have he : e.WellFormed := hs
      have hexpr : Denotes Blank e.print
          ⟨e.path, e.pipes, String.ofList (Text.trimChars e.print)⟩ := ⟨he.written_print, rfl⟩
      have hprint : (Segment.expr e :: segments).flatMap Segment.print =
          '$' :: '\x7b' :: (e.print ++ '\x7d' :: segments.flatMap Segment.print) := by
        simp [Segment.print]
      rw [hprint]
      refine ⟨_, .expr he.body_print hexpr hread, ?_⟩
      simp only [segmentsOf, List.map_cons, hplain, Segment.plain]
    | literal text =>
      obtain ⟨hne, hclosed⟩ : text ≠ "" ∧ Closed text.toList := hs
      obtain ⟨ps', hread', hsegments⟩ := reads_quote hclosed h.bounds hread
      refine ⟨ps', hread', ?_⟩
      have hfirst : ∀ t rest, segmentsOf ps ≠ .literal t :: rest := by
        intro t rest heq
        rw [heq] at hplain
        cases segments with
        | nil => cases hplain
        | cons s segments =>
          cases s with
          | literal _ => exact (List.isChain_cons_cons.1 h.chain).1
          | expr _ => cases (List.cons.inj hplain).1
      rw [hsegments, prepend_eq_cons (by simpa using hne) hfirst]
      simp [Segment.plain, hplain]

/-! ## What texts parse to -/

/-- The text of the literal that segments begin with. -/
def leading : List Segment → List Char
  | .literal text :: _ => text.toList
  | _ => []

theorem leading_prepend (cs : List Char) (segments : List Segment) :
    leading (prepend cs segments) = cs ++ leading segments := by
  match segments with
  | .literal text :: rest => simp [prepend, leading]
  | [] => cases cs <;> simp [prepend, leading]
  | .expr e :: rest => cases cs <;> simp [prepend, leading]

section Parsed

variable {gap : List Char → Prop} {cs rest : List Char} {ps : List Piece}

/-- A literal begins as the text that it is read from. -/
theorem head?_leading (h : Reads gap cs ps rest) :
    ∀ c ∈ (leading (segmentsOf ps)).head?, c ∈ cs.head? := by
  cases h with
  | stop => simp [segmentsOf, leading]
  | escape => simp [segmentsOf, leading_prepend]
  | expr => simp [segmentsOf, leading]
  | char => simp [segmentsOf, leading_prepend]

/-- Segments that begin with an expression are read from a text that does. -/
theorem prefix_of_expr (h : Reads gap cs ps rest) {e : Expression} {segments : List Segment}
    (hsegments : segmentsOf ps = .expr e :: segments) : ['$', '\x7b'] <+: cs := by
  have hprepend : ∀ ds : List Char, ds ≠ [] → ∀ segs, prepend ds segs ≠ .expr e :: segments := by
    intro ds hds segs heq
    match segs, heq with
    | .literal _ :: _, heq => cases heq
    | [], heq => simp [prepend, hds] at heq
    | .expr _ :: _, heq => simp [prepend, hds] at heq
  cases h with
  | stop => cases hsegments
  | escape => exact absurd hsegments (hprepend _ (by simp) _)
  | expr => exact ⟨_, rfl⟩
  | char => exact absurd hsegments (hprepend _ (by simp) _)

theorem WellFormed.closed_leading {segments : List Segment} (h : WellFormed segments) :
    Closed (leading segments) := by
  match segments, h with
  | [], _ => exact .nil
  | .expr _ :: _, _ => exact .nil
  | .literal text :: rest, h => exact (h.each (.literal text) (by simp)).2

/-- Closed text may be put in front of segments, unless its last dollar sign would make an
expression an escape. -/
theorem WellFormed.prepend {segments : List Segment} (h : WellFormed segments) {ds : List Char}
    (hds : ds ≠ []) (hclosed : Closed (ds ++ leading segments))
    (hlast : ∀ e rest, segments = .expr e :: rest → ds.getLast? ≠ some '$') :
    WellFormed (Template.prepend ds segments) := by
  match segments, h, hclosed, hlast with
  | [], _, hclosed, _ =>
    rw [prepend_eq_cons hds (by simp)]
    refine ⟨List.forall_mem_singleton.2 ⟨by simpa using hds, ?_⟩, .singleton _⟩
    simpa [leading] using hclosed
  | .expr e :: rest, h, hclosed, hlast =>
    rw [prepend_eq_cons hds (by simp)]
    refine ⟨List.forall_mem_cons.2 ⟨⟨by simpa using hds, ?_⟩, h.each⟩, .cons_cons ?_ h.chain⟩
    · simpa [leading] using hclosed
    · simpa [Segment.MayPrecede] using hlast e rest rfl
  | .literal text :: rest, h, hclosed, _ =>
    have htext := (h.each (.literal text) (by simp)).1
    refine ⟨List.forall_mem_cons.2 ⟨⟨by simp [htext], ?_⟩, h.of_cons.each⟩, ?_⟩
    · simpa [leading] using hclosed
    · match rest, h.chain with
      | [], _ => exact .singleton _
      | .literal _ :: _, .cons_cons hfalse _ => exact hfalse.elim
      | .expr _ :: _, .cons_cons hdollar hchain =>
        refine .cons_cons ?_ hchain
        rw [Segment.MayPrecede, String.toList_append, List.getLast?_append_of_ne_nil _ (by simpa)]
        exact hdollar

/-- Anything may follow an expression. -/
theorem isChain_expr (e : Expression) {segments : List Segment}
    (h : segments.IsChain Segment.MayPrecede) :
    (Segment.expr e :: segments).IsChain Segment.MayPrecede := by
  cases segments with
  | nil => exact .singleton _
  | cons s segments => exact .cons_cons trivial h

theorem Denotes.wellFormed {content : List Char} {e : Expression} (h : Denotes gap content e) :
    e.WellFormed := by
  obtain ⟨⟨first, raws, -, -, ⟨hne, steps, -, hsteps⟩, hpipes⟩, -⟩ := h
  exact ⟨hne, forall_of_forall₂ hsteps fun _ _ h => h.1, forall_of_forall₂ hpipes fun _ _ h => h.1⟩

/-- What a text parses to is well formed. -/
theorem wellFormed_segmentsOf (h : Reads gap cs ps []) : WellFormed (segmentsOf ps) := by
  generalize hrest : ([] : List Char) = rest at h
  induction h with
  | stop => exact ⟨by simp [segmentsOf], .nil⟩
  | @escape body cs rest ps hbody _ ih =>
    refine (ih hrest).prepend (by simp) ?_ fun _ _ _ => ?_
    · simpa using Closed.embedded hbody (ih hrest).closed_leading
    · rw [List.getLast?_concat]
      decide
  | @expr content cs rest e ps hbody hexpr _ ih =>
    refine ⟨List.forall_mem_cons.2 ⟨hexpr.wellFormed, (ih hrest).each⟩, ?_⟩
    exact isChain_expr e (ih hrest).chain
  | @char c cs rest ps hescape hopen hread ih =>
    refine (ih hrest).prepend (by simp) (.char ?_ (ih hrest).closed_leading) fun e rest hexpr => ?_
    · rintro ⟨tail, htail⟩
      obtain ⟨rfl, htext⟩ := List.cons.inj htail
      have hbrace : '\x7b' ∈ cs.head? := head?_leading hread _ (by
        rw [show leading (segmentsOf ps) = '\x7b' :: tail from htext.symm]
        rfl)
      cases cs with
      | nil => simp at hbrace
      | cons d cs =>
        obtain rfl : d = '\x7b' := by simpa using hbrace
        exact hopen ⟨cs, rfl⟩
    · obtain ⟨tail, rfl⟩ := prefix_of_expr hread hexpr
      rw [List.getLast?_singleton]
      rintro hdollar
      obtain rfl := Option.some.inj hdollar
      exact hescape ⟨tail, rfl⟩

end Parsed

/-! ## Quoting -/

/-- A text that is quoted parses to that text alone. -/
theorem parse_quote {text : String} (h : Closed text.toList) :
    parse (String.ofList (quote text.toList)) = .ok ⟨prepend text.toList []⟩ := by
  have hend : Reads Blank [] [] [] := .stop []
  obtain ⟨ps, hread, hsegments⟩ := reads_quote h (.inl rfl) hend
  rw [List.append_nil] at hread
  rw [parse_of_reads (by simpa using hread), hsegments, segmentsOf]

/-- A text that is quoted renders as it is. -/
theorem renderText_quote {text : String} (h : Closed text.toList) (functions : FunctionSet)
    (context : Json) :
    renderText functions (String.ofList (quote text.toList)) context = .ok text := by
  -- There is one literal, or none if there is no text.
  rw [renderText, compile, parse_quote h]
  by_cases hempty : text = ""
  · rw [hempty]
    rfl
  · rw [prepend_eq_cons (by simpa using hempty) (by simp), String.ofList_toList]
    show (⟨[.literal text]⟩ : Template).render functions context = .ok text
    simp [render, Segment.render, Except.map, bind, Except.bind, pure, Except.pure]

/-- Printing and parsing are inverse. -/
theorem parse_print :
    (∀ segments, WellFormed segments → ∃ t, parse (print segments) = .ok t ∧
      t.segments.map Segment.plain = segments.map Segment.plain) ∧
    (∀ source t, parse source = .ok t → WellFormed t.segments ∧
      ∃ t', parse (print t.segments) = .ok t' ∧
        t'.segments.map Segment.plain = t.segments.map Segment.plain) ∧
    ∀ text : String, Closed text.toList → ∀ functions context,
      renderText functions (String.ofList (quote text.toList)) context = .ok text := by
  have hprint : ∀ segments, WellFormed segments → ∃ t, parse (print segments) = .ok t ∧
      t.segments.map Segment.plain = segments.map Segment.plain := fun segments h => by
    obtain ⟨ps, hread, hplain⟩ := reads_print h
    exact ⟨_, parse_of_reads (by simpa [print] using hread), hplain⟩
  refine ⟨hprint, fun source t ht => ?_, fun text htext => renderText_quote htext⟩
  obtain ⟨ps, hread, hsegments⟩ := reads_of_parse ht
  have hwell : WellFormed t.segments := hsegments ▸ wellFormed_segmentsOf hread
  exact ⟨hwell, hprint t.segments hwell⟩

end Template

end Lorebook
