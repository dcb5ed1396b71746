import Lorebook.Proofs.Lexing
import Lorebook.Proofs.Results

set_option autoImplicit false

/-! # The grammar of expressions

What may stand between the braces of an expression, said without the parser: a path of steps with
points between them, and pipes with bars before them. The parser takes exactly the contents that
are written so (`Expression.parse_eq_ok_iff`). Each of its functions has its part of the grammar,
and white space may stand around each part. -/

namespace Lorebook

namespace Expression

/-! ## Expressions as they are written -/

/-- A name of characters of a kind. -/
def IsName (kind : Char → Bool) (name : List Char) : Prop :=
  name ≠ [] ∧ ∀ c ∈ name, kind c

instance (kind : Char → Bool) (name : List Char) : Decidable (IsName kind name) :=
  decidable_of_iff ((!name.isEmpty && name.all kind) = true) (by simp [IsName])

/-- A step of a path, with white space around it. -/
def StepText (raw : List Char) (step : PathStep) : Prop :=
  IsName isPathChar step.name.toList ∧ Text.Padded step.text.toList raw

/-- A path: steps with points between them, at least one. -/
def PathText (raw : List Char) (path : List PathStep) : Prop :=
  path ≠ [] ∧ ∃ raws, raw = ['.'].intercalate raws ∧ List.Forall₂ StepText raws path

/-- An argument in double quotes, with white space around it. -/
def ArgText (raw : List Char) (arg : String) : Prop :=
  ∃ quoted, Quoted quoted arg.toList ∧ Text.Padded ('"' :: quoted) raw

/-- The arguments of a pipe, with commas between them. -/
def ArgsText (raw : List Char) (args : List String) : Prop :=
  (args = [] ∧ ∀ c ∈ raw, Text.isSpace c) ∨
    args ≠ [] ∧ ∃ raws, raw = [','].intercalate raws ∧ List.Forall₂ ArgText raws args

/-- A pipe, with white space around it: a name, or a name with arguments in parentheses. `gap` says
what may stand between the name and the parenthesis. -/
def PipeText (gap : List Char → Prop) (raw : List Char) (pipe : PipeCall) : Prop :=
  IsName isFunctionChar pipe.name.toList ∧ ∃ core, Text.Padded core raw ∧
    (core = pipe.name.toList ∧ pipe.args = [] ∨
      ∃ between inner, gap between ∧ ArgsText inner pipe.args ∧
        core = pipe.name.toList ++ between ++ '(' :: inner ++ [')'])

/-- The content of an expression: a path and pipes, with bars between them. -/
def Written (gap : List Char → Prop) (content : List Char) (path : List PathStep)
    (pipes : List PipeCall) : Prop :=
  ∃ first raws, content = ['|'].intercalate (first :: raws) ∧
    (∀ p ∈ first :: raws, Balanced (· ≠ '|') false p) ∧
    PathText first path ∧ List.Forall₂ (PipeText gap) raws pipes

/-- White space, or nothing. -/
def Blank (cs : List Char) : Prop :=
  ∀ c ∈ cs, Text.isSpace c

/-! ## Paths -/

theorem isSpace_of_isPathChar {c : Char} (h : isPathChar c) : Text.isSpace c = false := by
  simp only [isPathChar, Bool.or_eq_true, decide_eq_true_eq] at h
  rcases h with (h | rfl) | rfl
  · exact Text.isSpace_of_isAlphanumeric h
  · decide
  · decide

theorem checkPathName_eq_ok_iff {name : List Char} {s : String} :
    checkPathName name = .ok s ↔ IsName isPathChar name ∧ String.ofList name = s := by
  unfold checkPathName IsName
  by_cases hempty : name = []
  · simp [hempty]
  · rw [if_neg (by simpa using hempty)]
    by_cases hall : name.all isPathChar = true
    · rw [if_pos hall]
      simp only [Except.ok.injEq, ne_eq, hempty, not_false_eq_true, true_and]
      exact (and_iff_right (List.all_eq_true.1 hall)).symm
    · rw [if_neg hall]
      have hnot : ¬ ∀ c ∈ name, isPathChar c = true := fun h => hall (List.all_eq_true.2 h)
      simp [hnot]

section Name

variable {kind : Char → Bool} {name : List Char}

theorem IsName.isSpace_of_head? (hkind : ∀ c, kind c → Text.isSpace c = false)
    (h : IsName kind name) (rest : List Char) :
    ∀ c ∈ (name ++ rest).head?, Text.isSpace c = false := by
  intro c hc
  rw [List.head?_append_of_ne_nil _ h.1] at hc
  exact hkind c (h.2 c (List.mem_of_head? hc))

/-- A name is left by trimming. -/
theorem IsName.trimChars_eq (hkind : ∀ c, kind c → Text.isSpace c = false)
    (h : IsName kind name) : Text.trimChars name = name := by
  refine Text.trimChars_eq_self ?_ fun c hc => hkind c (h.2 c (List.mem_of_getLast? hc))
  simpa using h.isSpace_of_head? hkind []

/-- So is a text that begins with a name and ends in a character that is not white space. -/
theorem IsName.trimChars_concat (hkind : ∀ c, kind c → Text.isSpace c = false)
    (h : IsName kind name) (rest : List Char) {last : Char} (hlast : Text.isSpace last = false) :
    Text.trimChars (name ++ (rest ++ [last])) = name ++ (rest ++ [last]) := by
  refine Text.trimChars_eq_self (h.isSpace_of_head? hkind _) fun c hc => ?_
  rw [← List.append_assoc, List.getLast?_concat] at hc
  exact Option.some.inj hc ▸ hlast

end Name

theorem parseStep_eq_ok_iff {raw : List Char} {step : PathStep} :
    parseStep raw = .ok step ↔ StepText raw step := by
  unfold parseStep StepText
  constructor
  · intro h
    have hpadded := Text.padded_trimChars raw
    cases hending : Text.beforeEnd? ['[', '*', ']'] (Text.trimChars raw) with
    | none =>
      simp only [hending] at h
      obtain ⟨name, hcheck, rfl⟩ := map_eq_ok_iff.1 h
      obtain ⟨hname, rfl⟩ := checkPathName_eq_ok_iff.1 hcheck
      exact ⟨by simpa [PathStep.name] using hname, by simpa [PathStep.text] using hpadded⟩
    | some name =>
      simp only [hending] at h
      obtain ⟨name, hcheck, rfl⟩ := map_eq_ok_iff.1 h
      obtain ⟨hname, rfl⟩ := checkPathName_eq_ok_iff.1 hcheck
      rw [Text.beforeEnd?_eq_some_iff.1 hending] at hpadded
      exact ⟨by simpa [PathStep.name] using hname, by simpa [PathStep.text] using hpadded⟩
  · rintro ⟨hname, hpadded⟩
    have hok := checkPathName_eq_ok_iff.2 ⟨hname, String.ofList_toList⟩
    cases step with
    | key name =>
      have htrim : Text.trimChars raw = name.toList := by
        rw [hpadded.trimChars_eq]
        exact hname.trimChars_eq fun _ => isSpace_of_isPathChar
      have hnone : Text.beforeEnd? ['[', '*', ']'] name.toList = none := by
        refine Option.eq_none_iff_forall_not_mem.2 fun rest hrest => ?_
        have hmem : ']' ∈ name.toList := by
          rw [Text.beforeEnd?_eq_some_iff.1 hrest]
          simp
        exact absurd (hname.2 _ hmem) (by decide +kernel)
      simp only [htrim, hnone]
      exact map_eq_ok_iff.2 ⟨name, hok, rfl⟩
    | wildcard name =>
      have htrim : Text.trimChars raw = name.toList ++ ['[', '*', ']'] := by
        rw [hpadded.trimChars_eq, PathStep.text, String.toList_append]
        exact hname.trimChars_concat (fun _ => isSpace_of_isPathChar) ['[', '*'] (by decide)
      have hsome : Text.beforeEnd? ['[', '*', ']'] (name.toList ++ ['[', '*', ']']) =
          some name.toList := Text.beforeEnd?_eq_some_iff.2 rfl
      simp only [htrim, hsome]
      exact map_eq_ok_iff.2 ⟨name, hok, rfl⟩

/-- A step holds no point. -/
theorem StepText.notMem {raw : List Char} {step : PathStep} (h : StepText raw step) :
    '.' ∉ raw := by
  obtain ⟨hname, before, after, hbefore, hafter, rfl⟩ := h
  have hspace : ¬ Text.isSpace '.' = true := by decide
  have hpoint : '.' ∉ step.name.toList := fun hmem =>
    absurd (hname.2 _ hmem) (by decide +kernel)
  have htext : '.' ∉ step.text.toList := by
    cases step with
    | key name => exact hpoint
    | wildcard name =>
      rw [PathStep.text, String.toList_append, List.mem_append, not_or]
      exact ⟨hpoint, by decide⟩
  simp only [List.mem_append, not_or]
  exact ⟨⟨fun hmem => hspace (hbefore _ hmem), htext⟩, fun hmem => hspace (hafter _ hmem)⟩

theorem pathText_iff {raw : List Char} {path : List PathStep} :
    PathText raw path ↔ List.Forall₂ StepText (Text.pieces '.' raw) path := by
  rw [Text.pieces_eq_splitOn]
  constructor
  · rintro ⟨hne, raws, rfl, h⟩
    have hnotMem : ∀ r ∈ raws, '.' ∉ r :=
      ((List.forall₂_and_left raws path).1 (h.imp fun r step hstep => ⟨hstep.notMem, hstep⟩)).1
    have hraws : raws ≠ [] := by
      rintro rfl
      exact hne (List.forall₂_nil_left_iff.1 h)
    rwa [List.splitOn_intercalate '.' hnotMem hraws]
  · intro h
    refine ⟨?_, _, (List.intercalate_splitOn '.').symm, h⟩
    rintro rfl
    exact List.splitOn_ne_nil '.' raw (List.forall₂_nil_right_iff.1 h)

/-- A point is not white space, so that a path may be trimmed as a whole or step by step. -/
theorem parsePath_eq_ok_iff {raw : List Char} {path : List PathStep} :
    parsePath raw = .ok path ↔ PathText raw path := by
  have htrim : ∀ raws : List (List Char), List.Forall₂ StepText (raws.map Text.trimChars) path ↔
      List.Forall₂ StepText raws path := fun raws => by
    rw [List.forall₂_map_left_iff]
    have hstep : ∀ r step, StepText (Text.trimChars r) step ↔ StepText r step := fun r step => by
      rw [← parseStep_eq_ok_iff, ← parseStep_eq_ok_iff, parseStep, parseStep,
        ← (Text.padded_trimChars r).trimChars_eq]
    simp only [hstep]
  have hpieces : List.Forall₂ StepText (Text.pieces '.' (Text.trimChars raw)) path ↔
      PathText raw path := by
    rw [pathText_iff, ← htrim, ← htrim (Text.pieces '.' raw),
      (Text.padded_trimChars raw).map_trimChars_pieces (by decide)]
  rw [← hpieces]
  unfold parsePath
  by_cases hempty : Text.trimChars raw = []
  · have hnil : ∀ step, ¬ StepText [] step := fun step hstep => by
      have := parseStep_eq_ok_iff.2 hstep
      cases this
    simp [hempty, Text.pieces, List.forall₂_cons_left_iff, hnil]
  · simp only [List.isEmpty_iff, if_neg hempty, mapM_eq_ok_iff, parseStep_eq_ok_iff]

/-! ## Arguments -/

theorem exists_of_trimStartChars_eq {cs ds : List Char} (h : Text.trimStartChars cs = ds) :
    ∃ before, Blank before ∧ cs = before ++ ds :=
  ⟨cs.takeWhile Text.isSpace, fun _ => List.mem_takeWhile_imp,
    h ▸ (List.takeWhile_append_dropWhile).symm⟩

theorem trimStartChars_eq {before : List Char} (hbefore : Blank before) {c : Char}
    (hc : Text.isSpace c = false) (cs : List Char) :
    Text.trimStartChars (before ++ c :: cs) = c :: cs := by
  rw [Text.trimStartChars_append hbefore]
  exact List.dropWhile_cons_of_neg (by simp [hc])

/-- What follows an argument tells whether there is another. -/
theorem parseArgsFrom_argument {before quoted text : List Char} (hbefore : Blank before)
    (hquoted : Quoted quoted text) (cs : List Char) :
    parseArgsFrom (before ++ '"' :: quoted ++ cs) =
      match Text.trimStartChars cs with
      | [] => .ok [String.ofList text]
      | ',' :: rest => (parseArgsFrom rest).map (String.ofList text :: ·)
      | _ => .error .missingComma := by
  have hopen : Text.trimStartChars (before ++ '"' :: quoted ++ cs) = '"' :: (quoted ++ cs) := by
    rw [List.append_assoc]
    exact trimStartChars_eq hbefore (by decide) _
  have harg := scanArgument_quoted hquoted cs
  rw [parseArgsFrom]
  split
  · rename_i rest hrest
    obtain rfl : quoted ++ cs = rest := (List.cons.inj (hopen.symm.trans hrest)).2
    split
    · simp_all
    · rename_i arg rest' harg'
      obtain ⟨rfl, rfl⟩ := Prod.mk.inj (Option.some.inj (harg.symm.trans harg'))
      split <;> simp_all
  · simp_all

theorem parseArgsFrom_eq_ok_iff {raw : List Char} {args : List String} :
    parseArgsFrom raw = .ok args ↔
      args ≠ [] ∧ ∃ raws, raw = [','].intercalate raws ∧ List.Forall₂ ArgText raws args := by
  constructor
  · intro h
    fun_induction parseArgsFrom raw generalizing args with
    | case1 => cases h
    | case2 raw rest hopen arg after harg hend =>
      cases h
      obtain ⟨before, hbefore, rfl⟩ := exists_of_trimStartChars_eq hopen
      obtain ⟨quoted, rfl, hquoted⟩ := scanArgument_eq_some_iff.1 harg
      refine ⟨by simp, [_], (List.intercalate_singleton).symm, .cons ?_ .nil⟩
      exact ⟨quoted, by simpa using hquoted, before, after, hbefore,
        List.dropWhile_eq_nil_iff.1 hend, by simp⟩
    | case3 raw rest hopen arg rest' harg cs hcomma ih =>
      obtain ⟨args', hargs, rfl⟩ := map_eq_ok_iff.1 h
      obtain ⟨hne, raws, rfl, hraws⟩ := ih hargs
      obtain ⟨before, hbefore, rfl⟩ := exists_of_trimStartChars_eq hopen
      obtain ⟨quoted, rfl, hquoted⟩ := scanArgument_eq_some_iff.1 harg
      obtain ⟨after, hafter, rfl⟩ := exists_of_trimStartChars_eq hcomma
      have hraws' : raws ≠ [] := by
        rintro rfl
        exact hne (List.forall₂_nil_left_iff.1 hraws)
      refine ⟨by simp, (before ++ '"' :: quoted ++ after) :: raws, ?_, .cons ?_ hraws⟩
      · rw [List.intercalate_cons_of_ne_nil hraws']
        simp
      · exact ⟨quoted, by simpa using hquoted, before, after, hbefore, hafter, rfl⟩
    | case4 => cases h
    | case5 => cases h
  · rintro ⟨hne, raws, rfl, h⟩
    induction h with
    | nil => exact absurd rfl hne
    | @cons raw arg raws args harg h ih =>
      obtain ⟨quoted, hquoted, before, after, hbefore, hafter, rfl⟩ := harg
      cases h with
      | nil =>
        rw [List.intercalate_singleton, parseArgsFrom_argument hbefore hquoted,
          Text.trimStartChars, List.dropWhile_eq_nil_iff.2 hafter, String.ofList_toList]
      | @cons raw' arg' raws args harg' h =>
        rw [List.intercalate_cons_cons, List.append_assoc, List.append_assoc (_ ++ _),
          parseArgsFrom_argument hbefore hquoted, List.singleton_append,
          trimStartChars_eq hafter (by decide)]
        exact map_eq_ok_iff.2 ⟨_, ih (by simp), by rw [String.ofList_toList]⟩

theorem parseArgs_eq_ok_iff {raw : List Char} {args : List String} :
    parseArgs raw = .ok args ↔ ArgsText raw args := by
  unfold parseArgs ArgsText
  by_cases hblank : raw.all Text.isSpace = true
  · have hfrom : parseArgsFrom raw = .error .unquotedArgument := by
      have hempty : Text.trimStartChars raw = [] :=
        List.dropWhile_eq_nil_iff.2 (List.all_eq_true.1 hblank)
      rw [parseArgsFrom]
      split <;> simp_all
    rw [if_pos hblank, ← parseArgsFrom_eq_ok_iff, hfrom]
    constructor
    · intro h
      exact .inl ⟨(Except.ok.inj h).symm, List.all_eq_true.1 hblank⟩
    · rintro (⟨rfl, -⟩ | h)
      · rfl
      · cases h
  · rw [if_neg hblank, parseArgsFrom_eq_ok_iff]
    have hnot : ¬ ∀ c ∈ raw, Text.isSpace c := fun h => hblank (List.all_eq_true.2 h)
    simp [hnot]

/-! ## Pipes -/

theorem isSpace_of_isFunctionChar {c : Char} (h : isFunctionChar c) : Text.isSpace c = false := by
  simp only [isFunctionChar, Bool.or_eq_true, decide_eq_true_eq] at h
  rcases h with h | rfl
  · exact Text.isSpace_of_isAlphanumeric h
  · decide

theorem checkFunctionName_eq_ok_iff {name : List Char} {s : String} :
    checkFunctionName name = .ok s ↔ IsName isFunctionChar name ∧ String.ofList name = s := by
  unfold checkFunctionName IsName
  split
  · rename_i h
    simp only [Bool.and_eq_true, Bool.not_eq_true', List.isEmpty_eq_false_iff] at h
    simp only [Except.ok.injEq]
    exact (and_iff_right ⟨h.1, List.all_eq_true.1 h.2⟩).symm
  · rename_i h
    have hnot : ¬ IsName isFunctionChar name := fun hname => h (by
      simpa [hname.1] using hname.2)
    exact ⟨fun h => (by cases h), fun h => absurd h.1 hnot⟩

/-- What the parser takes for a pipe is written as one. -/
theorem pipeText_of_parsePipe {raw : List Char} {pipe : PipeCall} (h : parsePipe raw = .ok pipe) :
    PipeText Blank raw pipe := by
  unfold parsePipe at h
  have hpadded := Text.padded_trimChars raw
  have hsplit := List.takeWhile_append_dropWhile (p := (· ≠ '(')) (l := Text.trimChars raw)
  cases hdrop : (Text.trimChars raw).dropWhile (· ≠ '(') with
  | nil =>
    simp only [hdrop] at h
    obtain ⟨name, hcheck, rfl⟩ := map_eq_ok_iff.1 h
    obtain ⟨hname, rfl⟩ := checkFunctionName_eq_ok_iff.1 hcheck
    exact ⟨by simpa using hname, _, hpadded, .inl ⟨by simp, rfl⟩⟩
  | cons c inner =>
    have hc : c = '(' := by
      have hhead := List.head?_dropWhile_not (· ≠ '(') (Text.trimChars raw)
      rw [hdrop] at hhead
      simpa using hhead
    simp only [hdrop] at h hsplit
    split at h
    · cases h
    rename_i inner' hinner
    obtain ⟨args, hargs, h⟩ := bind_eq_ok_iff.1 h
    obtain ⟨name, hcheck, h⟩ := bind_eq_ok_iff.1 h
    cases h
    obtain ⟨hname, rfl⟩ := checkFunctionName_eq_ok_iff.1 hcheck
    -- White space before the name belongs to the pipe, that after it stands before the parenthesis.
    obtain ⟨before, between, hbefore, hbetween, hraw⟩ :=
      Text.padded_trimChars ((Text.trimChars raw).takeWhile (· ≠ '('))
    obtain rfl := Text.beforeEnd?_eq_some_iff.1 hinner
    rw [← hsplit, hraw, List.append_assoc, List.append_assoc] at hpadded
    refine ⟨by simpa using hname, _, hpadded.of_append hbefore,
      .inr ⟨between, inner', hbetween, parseArgs_eq_ok_iff.1 hargs, ?_⟩⟩
    simp [hc]

section Pipe

variable {raw : List Char} {pipe : PipeCall}

/-- No parenthesis stands in the name of a function. -/
theorem IsName.ne_parenthesis {name : List Char} (h : IsName isFunctionChar name) :
    ∀ c ∈ name, decide (c ≠ '(') = true := by
  intro c hc
  rw [decide_eq_true_eq]
  rintro rfl
  exact absurd (h.2 _ hc) (by decide +kernel)

theorem parsePipe_name (hname : IsName isFunctionChar pipe.name.toList)
    (hpadded : Text.Padded pipe.name.toList raw) (hargs : pipe.args = []) :
    parsePipe raw = .ok pipe := by
  have htrim : Text.trimChars raw = pipe.name.toList := by
    rw [hpadded.trimChars_eq]
    exact hname.trimChars_eq fun _ => isSpace_of_isFunctionChar
  have hdrop : pipe.name.toList.dropWhile (· ≠ '(') = [] :=
    List.dropWhile_eq_nil_iff.2 hname.ne_parenthesis
  simp only [parsePipe, htrim, hdrop]
  refine map_eq_ok_iff.2 ⟨_, checkFunctionName_eq_ok_iff.2 ⟨hname, String.ofList_toList⟩, ?_⟩
  rw [← hargs]

theorem parsePipe_call (hname : IsName isFunctionChar pipe.name.toList) {between inner : List Char}
    (hbetween : Blank between) (hargs : ArgsText inner pipe.args)
    (hpadded : Text.Padded (pipe.name.toList ++ between ++ '(' :: inner ++ [')']) raw) :
    parsePipe raw = .ok pipe := by
  have htrim : Text.trimChars raw = (pipe.name.toList ++ between) ++ '(' :: (inner ++ [')']) := by
    have hclose : Text.isSpace ')' = false := by decide
    rw [hpadded.trimChars_eq]
    simpa using hname.trimChars_concat (fun _ => isSpace_of_isFunctionChar)
      (between ++ '(' :: inner) hclose
  have hopen : ∀ c ∈ pipe.name.toList ++ between, decide (c ≠ '(') = true := by
    intro c hc
    rcases List.mem_append.1 hc with hc | hc
    · exact hname.ne_parenthesis c hc
    · rw [decide_eq_true_eq]
      rintro rfl
      exact absurd (hbetween _ hc) (by decide)
  have hdrop : (Text.trimChars raw).dropWhile (· ≠ '(') = '(' :: (inner ++ [')']) := by
    rw [htrim, List.dropWhile_append_of_pos hopen]
    rfl
  have htake : (Text.trimChars raw).takeWhile (· ≠ '(') = pipe.name.toList ++ between := by
    rw [htrim, List.takeWhile_append_of_pos hopen]
    simp
  have hinner : Text.beforeEnd? [')'] (inner ++ [')']) = some inner :=
    Text.beforeEnd?_eq_some_iff.2 rfl
  have htrimName : Text.trimChars (pipe.name.toList ++ between) = pipe.name.toList := by
    have hpad : Text.Padded pipe.name.toList (pipe.name.toList ++ between) :=
      ⟨[], between, by simp, hbetween, by simp⟩
    rw [hpad.trimChars_eq]
    exact hname.trimChars_eq fun _ => isSpace_of_isFunctionChar
  simp only [parsePipe, hdrop, hinner, htake, htrimName]
  exact bind_eq_ok_iff.2 ⟨_, parseArgs_eq_ok_iff.2 hargs, bind_eq_ok_iff.2
    ⟨_, checkFunctionName_eq_ok_iff.2 ⟨hname, String.ofList_toList⟩, rfl⟩⟩

theorem parsePipe_eq_ok_iff : parsePipe raw = .ok pipe ↔ PipeText Blank raw pipe := by
  refine ⟨pipeText_of_parsePipe, ?_⟩
  rintro ⟨hname, core, hpadded, ⟨rfl, hargs⟩ | ⟨between, inner, hbetween, hargs, rfl⟩⟩
  · exact parsePipe_name hname hpadded hargs
  · exact parsePipe_call hname hbetween hargs hpadded

end Pipe

/-! ## Expressions -/

/-- The parser takes the contents that are written as the grammar has them, white space being
allowed before the parenthesis of a pipe. -/
theorem parse_eq_ok_iff {content : List Char} (hbody : Body content) {e : Expression} :
    parse content = .ok e ↔ Written Blank content e.path e.pipes ∧
      e.source = String.ofList (Text.trimChars content) := by
  unfold parse Written
  constructor
  · intro h
    obtain ⟨path, hpath, h⟩ := bind_eq_ok_iff.1 h
    obtain ⟨pipes, hpipes, h⟩ := bind_eq_ok_iff.1 h
    cases h
    obtain ⟨hne, hcontent, hpieces⟩ := (splitPipes_eq_iff hbody).1 rfl
    obtain ⟨first, raws, hsplit⟩ := List.exists_cons_of_ne_nil hne
    rw [hsplit] at hpath hpipes hcontent hpieces
    simp only [List.headD_cons, List.tail_cons, mapM_eq_ok_iff, parsePipe_eq_ok_iff,
      parsePath_eq_ok_iff] at hpath hpipes
    exact ⟨⟨first, raws, hcontent, hpieces, hpath, hpipes⟩, rfl⟩
  · rintro ⟨⟨first, raws, hcontent, hpieces, hpath, hpipes⟩, hsource⟩
    have hsplit := (splitPipes_eq_iff hbody).2 ⟨List.cons_ne_nil first raws, hcontent, hpieces⟩
    refine bind_eq_ok_iff.2 ⟨e.path, ?_, bind_eq_ok_iff.2 ⟨e.pipes, ?_, ?_⟩⟩
    · simpa only [hsplit, List.headD_cons, parsePath_eq_ok_iff] using hpath
    · simpa only [hsplit, List.tail_cons, mapM_eq_ok_iff, parsePipe_eq_ok_iff] using hpipes
    · rw [← hsource]
      rfl

end Expression

end Lorebook
