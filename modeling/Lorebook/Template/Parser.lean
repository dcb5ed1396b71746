import Lorebook.Template.Basic
import Lorebook.Text.Affix
import Lorebook.Text.Alphanumeric
import Lorebook.Text.Blank

set_option autoImplicit false

/-! # Reading templates

`${path|f("arg")}` is an expression, `$${…}` stands for the literal text `${…}`, and everything
else is literal. An expression ends at the first closing brace outside double quotes; inside quotes
a backslash protects the character after it. Offsets count characters. -/

namespace Lorebook

namespace Expression

/-! ## The extent of an expression -/

/-- Why the end of an expression is not found. -/
inductive ScanFault where
  /-- An opening brace stands unquoted at the offset. -/
  | nested (offset : Nat)
  /-- The text ends first. -/
  | unclosed
deriving DecidableEq, Repr

/-- Splits what follows an opening brace into the content and what stands after the closing brace.
`offset` is that of the first character; `inString` tells whether a quote is open. -/
def scan (offset : Nat) (inString : Bool) :
    List Char → Except ScanFault (List Char × List Char)
  | [] => .error .unclosed
  | c :: rest =>
    if inString && c = '\\' then
      match rest with
      | [] => .error .unclosed
      | d :: rest => (scan (offset + 2) inString rest).map fun (cs, r) => (c :: d :: cs, r)
    else if c = '"' then
      (scan (offset + 1) (!inString) rest).map fun (cs, r) => (c :: cs, r)
    else if !inString && c = '\x7b' then .error (.nested offset)
    else if !inString && c = '\x7d' then .ok ([], rest)
    else (scan (offset + 1) inString rest).map fun (cs, r) => (c :: cs, r)

/-- Content, closing brace and rest make up the scanned characters. -/
theorem eq_of_scan_eq_ok {offset : Nat} {inString : Bool} {cs content rest : List Char}
    (h : scan offset inString cs = .ok (content, rest)) : cs = content ++ '\x7d' :: rest := by
  fun_induction scan offset inString cs generalizing content rest <;>
    simp_all [Except.map] <;> grind

theorem length_of_scan_eq_ok {offset : Nat} {inString : Bool} {cs content rest : List Char}
    (h : scan offset inString cs = .ok (content, rest)) :
    cs.length = content.length + 1 + rest.length := by
  rw [eq_of_scan_eq_ok h]
  simp only [List.length_append, List.length_cons]
  omega

/-! ## Paths -/

/-- Whether a character may stand in the name of a path segment. -/
def isPathChar (c : Char) : Bool :=
  Text.isAlphanumeric c || c = '_' || c = '-'

/-- Refuses names that are empty or hold a character foreign to paths. -/
def checkPathName (name : List Char) : Except SyntaxFault String :=
  if name.isEmpty then .error .emptyPathSegment
  else if name.all isPathChar then .ok (String.ofList name)
  else .error (.invalidPathSegment (String.ofList name))

/-- One step of a path: a name, or a name before `[*]`. -/
def parseStep (raw : List Char) : Except SyntaxFault PathStep :=
  let raw := Text.trimChars raw
  match Text.beforeEnd? ['[', '*', ']'] raw with
  | some name => (checkPathName name).map .wildcard
  | none => (checkPathName raw).map .key

/-! ## Pipes -/

/-- The character that an escape in an argument stands for. -/
def unescape (c : Char) : Char :=
  if c = 'n' then '\n' else if c = 't' then '\t' else c

/-- An argument after its opening quote, and what follows the closing quote. -/
def scanArgument : List Char → Option (List Char × List Char)
  | [] => none
  | '"' :: rest => some ([], rest)
  | '\\' :: c :: rest => (scanArgument rest).map fun (cs, r) => (unescape c :: cs, r)
  | c :: rest => (scanArgument rest).map fun (cs, r) => (c :: cs, r)

theorem length_of_scanArgument_eq_some {cs arg rest : List Char}
    (h : scanArgument cs = some (arg, rest)) : rest.length < cs.length := by
  fun_induction scanArgument cs generalizing arg rest <;> simp_all <;> grind

theorem length_dropWhile_le {α : Type} (p : α → Bool) (l : List α) :
    (l.dropWhile p).length ≤ l.length := by
  simpa using (List.dropWhile_suffix p).length_le

theorem length_le_of_trimStartChars_eq {cs rest : List Char} (h : Text.trimStartChars cs = rest) :
    rest.length ≤ cs.length :=
  h ▸ length_dropWhile_le Text.isSpace cs

/-- Quoted arguments separated by commas, at least one. -/
def parseArgsFrom (cs : List Char) : Except SyntaxFault (List String) :=
  match _open : Text.trimStartChars cs with
  | '"' :: rest =>
    match _arg : scanArgument rest with
    | none => .error .unterminatedArgument
    | some (arg, rest) =>
      match _close : Text.trimStartChars rest with
      | [] => .ok [String.ofList arg]
      | ',' :: rest => (parseArgsFrom rest).map (String.ofList arg :: ·)
      | _ => .error .missingComma
  | _ => .error .unquotedArgument
termination_by cs.length
decreasing_by
  have h₁ := length_le_of_trimStartChars_eq _open
  have h₂ := length_of_scanArgument_eq_some _arg
  have h₃ := length_le_of_trimStartChars_eq _close
  simp only [List.length_cons] at h₁ h₃
  omega

/-- The arguments between the parentheses of a pipe. -/
def parseArgs (cs : List Char) : Except SyntaxFault (List String) :=
  if cs.all Text.isSpace then .ok [] else parseArgsFrom cs

/-- Whether a character may stand in the name of a function. -/
def isFunctionChar (c : Char) : Bool :=
  Text.isAlphanumeric c || c = '_'

/-- Refuses names that are empty or hold a character foreign to function names. -/
def checkFunctionName (name : List Char) : Except SyntaxFault String :=
  if !name.isEmpty && name.all isFunctionChar then .ok (String.ofList name)
  else .error (.invalidFunctionName (String.ofList name))

/-- A pipe: a name, or a name with arguments in parentheses. -/
def parsePipe (raw : List Char) : Except SyntaxFault PipeCall :=
  let raw := Text.trimChars raw
  let name := raw.takeWhile (· ≠ '(')
  match raw.dropWhile (· ≠ '(') with
  | [] => (checkFunctionName raw).map fun name => ⟨name, []⟩
  | _ :: inner =>
    match Text.beforeEnd? [')'] inner with
    | none => .error (.unclosedArguments (String.ofList raw))
    | some inner => do
      let args ← parseArgs inner
      let name ← checkFunctionName (Text.trimChars name)
      return ⟨name, args⟩

/-! ## Expressions -/

/-- The pieces between the bars that stand outside double quotes. -/
def splitPipes (inString : Bool) : List Char → List (List Char)
  | [] => [[]]
  | c :: rest =>
    if inString && c = '\\' then
      match rest with
      | [] => [[c]]
      | d :: rest => extend [c, d] (splitPipes inString rest)
    else if c = '"' then extend [c] (splitPipes (!inString) rest)
    else if !inString && c = '|' then [] :: splitPipes inString rest
    else extend [c] (splitPipes inString rest)
where
  /-- Put characters in front of the first piece. -/
  extend (cs : List Char) : List (List Char) → List (List Char)
    | [] => [cs]
    | piece :: rest => (cs ++ piece) :: rest

/-- The path before the first bar. -/
def parsePath (raw : List Char) : Except SyntaxFault (List PathStep) :=
  let raw := Text.trimChars raw
  if raw.isEmpty then .error .emptyExpression
  else (Text.pieces '.' raw).mapM parseStep

/-- The expression between the braces. -/
def parse (content : List Char) : Except SyntaxFault Expression := do
  let pieces := splitPipes false content
  let path ← parsePath (pieces.headD [])
  let pipes ← pieces.tail.mapM parsePipe
  return ⟨path, pipes, String.ofList (Text.trimChars content)⟩

end Expression

namespace Template

/-- The literal segment of the characters gathered, the last one first, unless there are none. -/
def literalSegment (gathered : List Char) : List Segment :=
  if gathered.isEmpty then [] else [.literal (String.ofList gathered.reverse)]

/-- The offset and cause of an expression that opens at `start` and has no end. -/
def scanError (start : Nat) : Expression.ScanFault → TemplateError
  | .nested offset => .parse offset .nestedBraces
  | .unclosed => .parse start .unclosedExpression

/-- The segments of `cs`, whose first character is at `offset`. The characters in `gathered`, the
last one first, are literal text before `cs` that no segment holds yet. -/
def parseFrom (offset : Nat) (gathered : List Char) (cs : List Char) :
    Except TemplateError (List Segment) :=
  match cs with
  | [] => .ok (literalSegment gathered)
  | '$' :: '$' :: '\x7b' :: rest =>
    match _scanned : Expression.scan (offset + 3) false rest with
    | .error fault => .error (scanError offset fault)
    | .ok (content, rest') =>
      parseFrom (offset + 4 + content.length)
        ('\x7d' :: content.reverse ++ '\x7b' :: '$' :: gathered) rest'
  | '$' :: '\x7b' :: rest =>
    match _scanned : Expression.scan (offset + 2) false rest with
    | .error fault => .error (scanError offset fault)
    | .ok (content, rest') =>
      match Expression.parse content with
      | .error fault => .error (.parse offset fault)
      | .ok e => (parseFrom (offset + 3 + content.length) [] rest').map fun segments =>
          literalSegment gathered ++ .expr e :: segments
  | c :: rest => parseFrom (offset + 1) (c :: gathered) rest
termination_by cs.length
decreasing_by
  · have := Expression.length_of_scan_eq_ok _scanned
    simp only [List.length_cons]
    omega
  · have := Expression.length_of_scan_eq_ok _scanned
    simp only [List.length_cons]
    omega
  · simp

/-! Each of the following says what one kind of beginning comes to, so that `parseFrom` need not be
unfolded. -/

@[simp] theorem parseFrom_nil (offset : Nat) (gathered : List Char) :
    parseFrom offset gathered [] = .ok (literalSegment gathered) := by
  rw [parseFrom]

theorem parseFrom_escape {offset : Nat} {gathered rest content rest' : List Char}
    (h : Expression.scan (offset + 3) false rest = .ok (content, rest')) :
    parseFrom offset gathered ('$' :: '$' :: '\x7b' :: rest) =
      parseFrom (offset + 4 + content.length)
        ('\x7d' :: content.reverse ++ '\x7b' :: '$' :: gathered) rest' := by
  rw [parseFrom]
  split <;> simp_all

theorem parseFrom_escape_error {offset : Nat} {gathered rest : List Char}
    {fault : Expression.ScanFault} (h : Expression.scan (offset + 3) false rest = .error fault) :
    parseFrom offset gathered ('$' :: '$' :: '\x7b' :: rest) = .error (scanError offset fault) := by
  rw [parseFrom]
  split <;> simp_all

theorem parseFrom_expression {offset : Nat} {gathered rest content rest' : List Char}
    {e : Expression} (h : Expression.scan (offset + 2) false rest = .ok (content, rest'))
    (he : Expression.parse content = .ok e) :
    parseFrom offset gathered ('$' :: '\x7b' :: rest) =
      (parseFrom (offset + 3 + content.length) [] rest').map fun segments =>
        literalSegment gathered ++ .expr e :: segments := by
  rw [parseFrom]
  split <;> simp_all

theorem parseFrom_expression_error {offset : Nat} {gathered rest : List Char}
    {fault : Expression.ScanFault} (h : Expression.scan (offset + 2) false rest = .error fault) :
    parseFrom offset gathered ('$' :: '\x7b' :: rest) = .error (scanError offset fault) := by
  rw [parseFrom]
  split <;> simp_all

theorem parseFrom_malformed {offset : Nat} {gathered rest content rest' : List Char}
    {fault : SyntaxFault} (h : Expression.scan (offset + 2) false rest = .ok (content, rest'))
    (he : Expression.parse content = .error fault) :
    parseFrom offset gathered ('$' :: '\x7b' :: rest) = .error (.parse offset fault) := by
  rw [parseFrom]
  split <;> simp_all

theorem parseFrom_cons {offset : Nat} {gathered rest : List Char} {c : Char}
    (hescape : ¬ ['$', '$', '\x7b'] <+: c :: rest) (hopen : ¬ ['$', '\x7b'] <+: c :: rest) :
    parseFrom offset gathered (c :: rest) = parseFrom (offset + 1) (c :: gathered) rest := by
  rw [parseFrom]
  · rintro rest rfl rfl
    exact hescape (by simp)
  · rintro rest rfl rfl
    exact hopen (by simp)

/-- The template that a text denotes. -/
def parse (source : String) : Except TemplateError Template :=
  (parseFrom 0 [] source.toList).map Template.mk

end Template

end Lorebook
