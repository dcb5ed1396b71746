import Lorebook.Json.Reader

set_option autoImplicit false

/-! # Reading RON text

RON is the notation of the definition, prompt and configuration files. It leaves to the reader what
is expected at each place, so reading is directed by a `Shape`; the result is the value as JSON,
with a record as an object, an absent option as null and a floating-point number as its literal.

White space includes comments, and block comments nest. A file may begin with attributes that
enable extensions; the one that matters here lets an optional value stand without `Some`. Nesting
is bounded by a budget that every level of structure draws on. -/

namespace Lorebook.Ron

/-- What a text is read as. -/
inductive Shape where
  | text
  | bool
  /-- A natural number of at most so many bits. -/
  | nat (bits : Nat)
  /-- A floating-point number. -/
  | float
  | option (item : Shape)
  | list (item : Shape)
  /-- A map from texts. -/
  | map (item : Shape)
  /-- A record, whose name may be written before it, and its members. -/
  | record (name : String) (members : List (String × Shape))

/-- A reader consumes a beginning of the characters, or refuses. -/
abbrev Reader (α : Type) := StateT (List Char) Option α

variable {α : Type}

/-- How deep structures may stand inside one another. -/
def maxDepth : Nat := 128

/-! ## White space and punctuation -/

/-- Where the reader of white space stands. -/
inductive Gap where
  | space
  | lineComment
  | blockComment (level : Nat)

/-- The characters after white space and comments; `none` for a comment that does not end or a
slash that starts none. -/
def skipGap : Gap → List Char → Option (List Char)
  | .space, [] => some []
  | .space, '/' :: '/' :: rest => skipGap .lineComment rest
  | .space, '/' :: '*' :: rest => skipGap (.blockComment 0) rest
  | .space, '/' :: _ => none
  | .space, c :: rest => if Json.isJsonSpace c then skipGap .space rest else some (c :: rest)
  | .lineComment, [] => some []
  | .lineComment, c :: rest => skipGap (if c = '\n' then .space else .lineComment) rest
  | .blockComment _, [] => none
  | .blockComment level, '/' :: '*' :: rest => skipGap (.blockComment (level + 1)) rest
  | .blockComment 0, '*' :: '/' :: rest => skipGap .space rest
  | .blockComment (level + 1), '*' :: '/' :: rest => skipGap (.blockComment level) rest
  | .blockComment level, _ :: rest => skipGap (.blockComment level) rest

/-- Pass over white space and comments. -/
def space : Reader Unit := fun cs =>
  (skipGap .space cs).map ((), ·)

/-- The next character, which stays. -/
def peek : Reader (Option Char) := fun cs =>
  some (cs.head?, cs)

/-- Take a fixed text if it comes next. -/
def accept (word : String) : Reader Bool := fun cs =>
  match Text.afterStart? word.toList cs with
  | some rest => some (true, rest)
  | none => some (false, cs)

/-- Take a fixed text. -/
def expect (word : String) : Reader Unit := fun cs =>
  (Text.afterStart? word.toList cs).map ((), ·)

/-- Take a comma, with the white space around it. -/
def comma : Reader Bool := do
  space
  if ← accept "," then
    space
    return true
  return false

/-! ## Identifiers -/

/-- Whether a character may start an identifier. -/
def isIdentStart (c : Char) : Bool :=
  c.isAlpha || c = '_'

/-- Whether a character may stand in an identifier. -/
def isIdentChar (c : Char) : Bool :=
  c.isAlphanum || c = '_'

/-- Whether a character may stand in a raw identifier. -/
def isRawIdentChar (c : Char) : Bool :=
  isIdentChar c || c = '.' || c = '+' || c = '-'

/-- An identifier, or a raw one after `r#`. A plain identifier that goes on with characters of a raw
one is refused. -/
def ident : Reader String := fun cs =>
  match cs with
  | 'r' :: '"' :: _ => none
  | 'r' :: '#' :: rest =>
    let name := rest.takeWhile isRawIdentChar
    if name.isEmpty then none else some (String.ofList name, rest.drop name.length)
  | c :: _ =>
    let name := cs.takeWhile isIdentChar
    if isIdentStart c && (cs.takeWhile isRawIdentChar).length = name.length && cs ≠ ['r'] then
      some (String.ofList name, cs.drop name.length)
    else none
  | [] => none

/-- Take a word if it comes next and no identifier goes on after it. -/
def acceptWord (word : String) : Reader Bool := fun cs =>
  match Text.afterStart? word.toList cs with
  | some rest =>
    if rest.head?.any isIdentChar then some (false, cs) else some (true, rest)
  | none => some (false, cs)

/-! ## Texts -/

/-- A character given by up to six hexadecimal digits in braces. -/
def unicodeEscape (cs : List Char) : Option (Char × List Char) := do
  let digits := (cs.take 6).takeWhile (· ≠ '\x7d')
  let code ← digits.foldlM (fun n c => (Json.hexValue? c).map (n * 16 + ·)) 0
  match cs.drop digits.length with
  | '\x7d' :: rest =>
    if digits.isEmpty then none
    else if h : code.isValidChar then some (Char.ofNatAux code h, rest)
    else none
  | _ => none

/-- The character of an escape after its backslash, and what follows. -/
def escape : List Char → Option (Char × List Char)
  | '\'' :: rest => some ('\'', rest)
  | '"' :: rest => some ('"', rest)
  | '\\' :: rest => some ('\\', rest)
  | 'n' :: rest => some ('\n', rest)
  | 'r' :: rest => some ('\r', rest)
  | 't' :: rest => some ('\t', rest)
  | '0' :: rest => some ('\x00', rest)
  | 'x' :: a :: b :: rest => do
    some (Char.ofNat ((← Json.hexValue? a) * 16 + (← Json.hexValue? b)), rest)
  | 'u' :: '\x7b' :: rest => unicodeEscape rest
  | _ => none

/-- The rest of a quoted text after its opening quote. The number bounds the steps; that of the
characters is enough. -/
def quotedRest : Nat → List Char → Option (List Char × List Char)
  | 0, _ => none
  | fuel + 1, cs => match cs with
    | [] => none
    | '"' :: rest => some ([], rest)
    | '\\' :: rest => do
      let (c, rest) ← escape rest
      let (cs, rest) ← quotedRest fuel rest
      return (c :: cs, rest)
    | c :: rest => do
      let (cs, rest) ← quotedRest fuel rest
      return (c :: cs, rest)

/-- The text up to a closing quote with its hashes, and what follows. -/
def rawRest (ending : List Char) : List Char → Option (List Char × List Char)
  | [] => none
  | c :: rest =>
    match Text.afterStart? ending (c :: rest) with
    | some after => some ([], after)
    | none => (rawRest ending rest).map fun (cs, after) => (c :: cs, after)

/-- A quoted text, or a raw one between as many hashes on either side. -/
def text : Reader String := fun cs =>
  match cs with
  | '"' :: rest =>
    (quotedRest (rest.length + 1) rest).map fun (cs, rest) => (String.ofList cs, rest)
  | 'r' :: rest =>
    let hashes := rest.takeWhile (· = '#')
    match rest.drop hashes.length with
    | '"' :: rest => (rawRest ('"' :: hashes) rest).map fun (cs, rest) => (String.ofList cs, rest)
    | _ => none
  | _ => none

/-- A character between apostrophes. -/
def char : Reader Unit := fun cs => do
  let rest ← match cs with
    | '\'' :: '\\' :: rest => (escape rest).map (·.2)
    | '\'' :: c :: rest => if c = '\'' then none else some rest
    | _ => none
  match rest with
  | '\'' :: rest => some ((), rest)
  | _ => none

/-! ## Numbers -/

/-- Whether a character may stand in a whole number of some base. -/
def isIntChar (c : Char) : Bool :=
  (Json.hexValue? c).isSome || c = '_'

/-- Whether a character may stand in a floating-point number. -/
def isFloatChar (c : Char) : Bool :=
  c.isDigit || c = 'e' || c = 'E' || c = '.' || c = '+' || c = '-' || c = '_'

/-- A whole number without a sign, below `limit`, in base ten or after `0x`, `0b` or `0o`.
Underscores may stand after the first digit. -/
def natBelow (limit : Nat) : Reader Nat := fun cs => do
  let (base, cs) := match cs with
    | '0' :: 'x' :: rest => (16, rest)
    | '0' :: 'b' :: rest => (2, rest)
    | '0' :: 'o' :: rest => (8, rest)
    | rest => (10, rest)
  let digits := cs.takeWhile isIntChar
  if digits.isEmpty || digits.head? = some '_' then none
  else
    let value ← (digits.filter (· ≠ '_')).foldlM (fun n c => do
      let d ← Json.hexValue? c
      if d < base then some (n * base + d) else none) 0
    if value < limit then some (value, cs.drop digits.length) else none

/-- Whether a text is a decimal number with optional sign, point and exponent, and a digit. -/
def isDecimalLiteral (cs : List Char) : Bool :=
  let cs := match cs with
    | '+' :: rest => rest
    | '-' :: rest => rest
    | rest => rest
  let whole := cs.takeWhile Char.isDigit
  let cs := cs.drop whole.length
  let (fraction, cs) := match cs with
    | '.' :: rest =>
      let digits := rest.takeWhile Char.isDigit
      (digits, rest.drop digits.length)
    | rest => ([], rest)
  let exponent := match cs with
    | [] => true
    | e :: rest =>
      let rest := match rest with
        | '+' :: rest => rest
        | '-' :: rest => rest
        | rest => rest
      (e = 'e' || e = 'E') && !rest.isEmpty && rest.all Char.isDigit
  (!whole.isEmpty || !fraction.isEmpty) && exponent

/-- The literal of a floating-point number. -/
def float : Reader String := do
  for word in ["inf", "+inf", "-inf", "NaN", "+NaN", "-NaN"] do
    if ← acceptWord word then
      return word
  fun cs =>
    let literal := cs.takeWhile isFloatChar
    if isDecimalLiteral literal then some (String.ofList literal, cs.drop literal.length) else none

/-- A whole number of 64 bits, which may have a sign. -/
def anyInt : Reader Unit := fun cs =>
  let number := match cs with
    | '+' :: rest => (natBelow (twoPow 63)).run rest
    | '-' :: rest => (natBelow (twoPow 63 + 1)).run rest
    | rest => (natBelow (twoPow 64)).run rest
  number.map fun (_, rest) => ((), rest)

/-- A number of any kind. One that has more of the characters of a floating-point number is read as
such, and so is one that is no whole number of 64 bits. -/
def anyNumber : Reader Unit := fun cs =>
  let unsigned := match cs with
    | '+' :: rest => rest
    | '-' :: rest => rest
    | rest => rest
  let isFloat :=
    (unsigned.takeWhile isIntChar).length < (unsigned.takeWhile isFloatChar).length
  match if isFloat then none else anyInt.run cs with
  | some result => some result
  | none => (float.run cs).map fun (_, rest) => ((), rest)

/-! ## Structures -/

/-- The items up to a terminator, which stays; each but the last is followed by a comma. The first
number bounds the items; that of the characters is enough. -/
def items (terminator : Char) (item : Reader α) : Nat → (afterComma : Bool) → Reader (List α)
  | 0, _ => failure
  | fuel + 1, afterComma => do
    space
    match ← peek with
    | none => failure
    | some c =>
      if c = terminator then return []
      else if !afterComma then failure
      else
        let v ← item
        let more ← comma
        return v :: (← items terminator item fuel more)

/-- The items up to a terminator. -/
def itemsUpTo (terminator : Char) (item : Reader α) : Reader (List α) := do
  items terminator item ((← get).length + 1) true

/-- The colon between a key and its value. -/
def colon : Reader Unit := do
  space
  expect ":"
  space

/-- Draws on the budget of nesting. -/
def nested (budget : Nat) (reader : Nat → Reader α) : Reader α :=
  match budget with
  | 0 => failure
  | budget + 1 => reader budget

/-- Whether the record after an opening parenthesis lists its members without names. -/
def isTuple : Reader Bool := fun cs => do
  let rest ← skipGap .space cs
  match ident.run rest with
  | none => some (true, cs)
  | some (_, rest) =>
    match ← skipGap .space rest with
    | [] => none
    | c :: _ => some (c ≠ ':', cs)

/-- A value of any shape, passed over. The number is one more than the budget. -/
def ignored (implicitSome : Bool) : Nat → Reader Unit
  | 0 => failure
  | budget + 1 => do
    -- The parts of a structure stand two levels below it.
    let part : Reader Unit := match budget with
      | 0 => failure
      | budget + 1 => ignored implicitSome budget
    let enter : Reader Unit := if budget = 0 then failure else pure ()
    let parts : Reader Unit := do
      if ← accept "(" then
        enter
        if ← isTuple then
          let _ ← itemsUpTo ')' part
        else
          let _ ← itemsUpTo ')' (do
            let _ ← ident
            colon
            part)
        space
        expect ")"
    for word in ["true", "false", "None", "inf", "-inf", "NaN"] do
      if ← acceptWord word then
        return
    if ← acceptWord "Some" then
      space
      if ← accept "(" then
        space
        ignored implicitSome budget
        let _ ← comma
        expect ")"
      else if implicitSome then ignored implicitSome budget
      else failure
      return
    if ← accept "()" then return
    match ident.run (← get) with
    | some (_, rest) =>
      set rest
      space
      parts
    | none =>
      match ← peek with
      | none => failure
      | some c =>
        if c = '(' then parts
        else if c = '[' then
          expect "["
          enter
          let _ ← itemsUpTo ']' part
          space
          expect "]"
        else if c = '\x7b' then
          expect "\x7b"
          enter
          let _ ← itemsUpTo '\x7d' (do
            part
            colon
            part)
          space
          expect "\x7d"
        else if c = '"' || c = 'r' then
          let _ ← text
        else if c = '\'' then char
        else if c = '.' then
          let _ ← float
        else if c.isDigit || c = '+' || c = '-' then anyNumber
        else failure

/-- The name of a record, if one is written. -/
def recordName (name : String) : Reader Unit := do
  match ← peek with
  | none => return
  | some c =>
    if isIdentChar c then
      let found ← ident
      if found = name then return else failure

mutual

/-- A value of a shape. -/
def value (implicitSome : Bool) : Shape → (budget : Nat) → Reader Json
  | .text, _ => return .str (← text)
  | .bool, _ => do
    if ← accept "true" then return .bool true
    expect "false"
    return .bool false
  | .nat bits, _ => return .nat (← natBelow (twoPow bits))
  | .float, _ => return .str (← float)
  | .option item, budget => do
    if ← accept "None" then return .null
    let explicit ← do
      if ← accept "Some" then
        space
        accept "("
      else pure false
    if explicit then
      space
      let v ← nested budget fun budget => value implicitSome item budget
      let _ ← comma
      expect ")"
      return v
    else if implicitSome then nested budget fun budget => value implicitSome item budget
    else failure
  | .list item, budget => do
    expect "["
    let vs ← nested budget fun budget =>
      itemsUpTo ']' (nested budget fun budget => value implicitSome item budget)
    space
    expect "]"
    return .arr vs
  | .map item, budget => do
    expect "\x7b"
    let es ← nested budget fun budget => itemsUpTo '\x7d' (nested budget fun budget => do
      let key ← text
      colon
      return (key, ← value implicitSome item budget))
    space
    expect "\x7d"
    return .obj es
  | .record name members, budget => do
    recordName name
    space
    expect "("
    let es ← nested budget fun budget => itemsUpTo ')' (nested budget fun budget => do
      let key ← ident
      colon
      member implicitSome key members budget)
    let _ ← comma
    expect ")"
    return .obj (es.filterMap id)

/-- The value of a member of a record; that of a member which the record does not know is passed
over. -/
def member (implicitSome : Bool) (key : String) :
    List (String × Shape) → (budget : Nat) → Reader (Option (String × Json))
  | [], budget => do
    ignored implicitSome (budget + 1)
    return none
  | (name, shape) :: rest, budget =>
    if name = key then return some (key, ← value implicitSome shape budget)
    else member implicitSome key rest budget

end

/-! ## Documents -/

/-- The attributes at the start of a text; whether they let an optional value stand without
`Some`. The number bounds the attributes. -/
def attributes : Nat → Reader Bool
  | 0 => failure
  | fuel + 1 => do
    space
    if (← peek) ≠ some '#' then return false
    for mark in ["#", "!", "[", "enable", "("] do
      expect mark
      space
    let names ← itemsUpTo ')' (do
      let name ← ident
      if name ∈ ["unwrap_newtypes", "implicit_some", "unwrap_variant_newtypes"] then
        return name
      else failure)
    if names.isEmpty then failure
    expect ")"
    space
    expect "]"
    let more ← attributes fuel
    return "implicit_some" ∈ names || more

/-- The value of a shape that fills a text, as JSON. -/
def parse? (shape : Shape) (s : String) : Option Json := do
  let (implicitSome, cs) ← (attributes (s.length + 1)).run s.toList
  let (v, cs) ← (value implicitSome shape maxDepth).run cs
  if (← skipGap .space cs).isEmpty then some v else none

end Lorebook.Ron
