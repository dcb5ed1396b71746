import Lorebook.Decimal.Significand
import Lorebook.Json.Basic
import Lorebook.Text.Affix

set_option autoImplicit false

/-! # Reading JSON text

Readers take the characters that remain and return a value with the characters after it. Nesting is
bounded, so the reader of values recurses on the depth that is left; the loops over items and
entries recurse on the number of characters that remain.

Some tokens have the form of a value and denote none: a number beyond every double, text with half
of a surrogate pair. `Json.parse?` reads one value that fills the text and refuses such tokens, as
it does deep nesting. A record looks only at the members it knows, so `Json.parseRecord?` skims:
the rest needs to have the form of JSON and no more. -/

namespace Lorebook.Json

/-- A reader consumes a beginning of the characters, or refuses. -/
abbrev Reader (α : Type) := List Char → Option (α × List Char)

/-- How many arrays and objects may stand inside one another. -/
def maxDepth : Nat := 127

/-- The white space of JSON. -/
def isJsonSpace (c : Char) : Bool :=
  c = ' ' || c = '\n' || c = '\t' || c = '\r'

/-- The characters after white space. -/
def skipSpace (cs : List Char) : List Char :=
  cs.dropWhile isJsonSpace

/-! ## Strings -/

/-- The value of a hexadecimal digit. -/
def hexValue? (c : Char) : Option Nat :=
  if '0' ≤ c ∧ c ≤ '9' then some (c.toNat - 48)
  else if 'a' ≤ c ∧ c ≤ 'f' then some (c.toNat - 87)
  else if 'A' ≤ c ∧ c ≤ 'F' then some (c.toNat - 55)
  else none

/-- The value of four hexadecimal digits. -/
def hexUnit? (a b c d : Char) : Option Nat := do
  return (((← hexValue? a) * 16 + (← hexValue? b)) * 16 + (← hexValue? c)) * 16 + (← hexValue? d)

/-- The character a one-letter escape stands for. -/
def shortEscape? (c : Char) : Option Char :=
  if c = '"' then some '"'
  else if c = '\\' then some '\\'
  else if c = '/' then some '/'
  else if c = 'b' then some '\x08'
  else if c = 'f' then some '\x0c'
  else if c = 'n' then some '\n'
  else if c = 'r' then some '\r'
  else if c = 't' then some '\t'
  else none

/-- The code points of the rest of a string after its opening quote, surrogates as they are
escaped. A bare control is refused. -/
def readPoints : Reader (List Nat)
  | [] => none
  | '"' :: rest => some ([], rest)
  | '\\' :: 'u' :: a :: b :: c :: d :: rest => do
    let unit ← hexUnit? a b c d
    let (points, rest) ← readPoints rest
    return (unit :: points, rest)
  | '\\' :: e :: rest => do
    let c ← shortEscape? e
    let (points, rest) ← readPoints rest
    return (c.toNat :: points, rest)
  | c :: rest =>
    if c.toNat < 0x20 || c = '\\' then none
    else do
      let (points, rest) ← readPoints rest
      return (c.toNat :: points, rest)

/-- Whether a code point is the first half of a pair of surrogates. -/
def isHighSurrogate (n : Nat) : Bool :=
  0xD800 ≤ n && n < 0xDC00

/-- Whether a code point is the second half of a pair of surrogates. -/
def isLowSurrogate (n : Nat) : Bool :=
  0xDC00 ≤ n && n < 0xE000

/-- The text that code points denote, a pair of surrogates being one character beyond U+FFFF; none
where a surrogate stands alone. -/
def charsOfPoints? : List Nat → Option (List Char)
  | [] => some []
  | [n] => if isHighSurrogate n || isLowSurrogate n then none else some [Char.ofNat n]
  | n :: low :: rest =>
    if isHighSurrogate n && isLowSurrogate low then
      (charsOfPoints? rest).map
        (Char.ofNat (0x10000 + (n - 0xD800) * 0x400 + (low - 0xDC00)) :: ·)
    else if isHighSurrogate n || isLowSurrogate n then none
    else (charsOfPoints? (low :: rest)).map (Char.ofNat n :: ·)

/-- A string, from its opening quote on; without a value when it denotes no text. -/
def readString : Reader (Option String)
  | '"' :: rest =>
    (readPoints rest).map fun (points, rest) => ((charsOfPoints? points).map String.ofList, rest)
  | _ => none

/-! ## Numbers -/

/-- The number a run of decimal digits denotes. -/
def digitsValue (cs : List Char) : Nat :=
  cs.foldl (fun n c => n * 10 + (c.toNat - 48)) 0

/-- The digits at the front. -/
def takeDigits (cs : List Char) : List Char × List Char :=
  (cs.takeWhile Char.isDigit, cs.dropWhile Char.isDigit)

/-- The digits before the point: a zero alone or digits that do not start with one. -/
def readWhole : Reader (List Char)
  | '0' :: rest => match rest with
    | c :: _ => if c.isDigit then none else some (['0'], rest)
    | [] => some (['0'], rest)
  | cs =>
    let (digits, rest) := takeDigits cs
    if digits.isEmpty then none else some (digits, rest)

/-- The digits after the point, if there is one. -/
def readFraction : Reader (Option (List Char))
  | '.' :: cs =>
    let (digits, rest) := takeDigits cs
    if digits.isEmpty then none else some (some digits, rest)
  | cs => some (none, cs)

/-- The exponent, if there is one. -/
def readExponent : Reader (Option Int)
  | e :: cs =>
    if e = 'e' || e = 'E' then
      let (negative, cs) := match cs with
        | '-' :: rest => (true, rest)
        | '+' :: rest => (false, rest)
        | rest => (false, rest)
      let (digits, rest) := takeDigits cs
      if digits.isEmpty then none
      else
        let n : Int := digitsValue digits
        some (some (if negative then -n else n), rest)
    else some (none, e :: cs)
  | [] => some (none, [])

/-- Whether a significand of 64 bits holds one digit more. -/
def significandRoom (significand digit : Nat) : Bool :=
  significand * 10 + digit < twoPow 64

/-- The double nearest to a power of ten. -/
def tenPowDouble (n : Nat) : Binary :=
  (Binary.ofDecimal .double false 1 n).getD ⟨false, 0, 0⟩

/-- A double times a power of ten, as one product or quotient with the nearest double to the power;
`none` on overflow. Beyond the powers that are doubles it is divided first by the greatest of them,
as often as the bound allows. -/
def timesTenPow : Nat → Binary → Int → Option Binary
  | 0, _, _ => none
  | fuel + 1, x, power =>
    if power.natAbs ≤ 308 then
      if 0 ≤ power then x.mul .double (tenPowDouble power.toNat)
      else x.div .double (tenPowDouble power.natAbs)
    else if x.isZero then some x
    else if 0 < power then none
    else do timesTenPow fuel (← x.div .double (tenPowDouble 308)) (power + 308)

/-- The double that `significand * 10 ^ power` is read as, for a significand of at most 64 bits;
`none` on overflow. The significand is rounded before it is scaled, so this is not always the
nearest double. Two divisions by the greatest power of ten make every such significand zero. -/
def decimalDouble? (negative : Bool) (significand : Nat) (power : Int) : Option Binary := do
  let x ← timesTenPow 3 (← Binary.ofNat? .double significand) power
  return { x with negative }

/-- The number with the given parts; `none` when it is too large for a double. An integer is kept
as one when it fits 64 bits, and `-0` is the negative zero. -/
def number? (negative : Bool) (whole : List Char) (fraction : Option (List Char))
    (exponent : Option Int) : Option Number :=
  let n := digitsValue whole
  if fraction.isNone && exponent.isNone && !negative && n < twoPow 64 then some (.int n)
  else if fraction.isNone && exponent.isNone && negative && 0 < n && n ≤ twoPow 63 then
    some (.int (-n))
  else
    let (significand, power) := Decimal.ofDigits significandRoom whole (fraction.getD [])
    (decimalDouble? negative significand (power + exponent.getD 0)).map .real

/-- A number; without a value when it is too large. -/
def readNumber (cs : List Char) : Option (Option Number × List Char) := do
  let (negative, cs) := match cs with
    | '-' :: rest => (true, rest)
    | rest => (false, rest)
  let (whole, cs) ← readWhole cs
  let (fraction, cs) ← readFraction cs
  let (exponent, cs) ← readExponent cs
  return (number? negative whole fraction exponent, cs)

/-! ## Values -/

/-- A fixed word. -/
def readWord (word : List Char) (value : Json) (cs : List Char) : Option (Json × List Char) :=
  (Text.afterStart? word cs).map fun rest => (value, rest)

/-- What follows an item of a list: its end, or further items. -/
def readAfter {α : Type} (close : Char) (more : Reader (List α)) (v : α) : Reader (List α) :=
  fun cs => match skipSpace cs with
    | [] => none
    | c :: rest =>
      if c = close then some ([v], rest)
      else (more (c :: rest)).map fun (vs, rest) => (v :: vs, rest)

/-- Items up to a closing character, each but the first after a comma. The number bounds the items;
the characters that remain always suffice, as every item takes one. -/
def readList {α : Type} (close : Char) (item : Reader α) (first : Bool) : Nat → Reader (List α)
  | 0, _ => none
  | fuel + 1, cs => match skipSpace cs with
    | [] => none
    | c :: rest =>
      if c = close then (if first then some ([], rest) else none)
      else if c = ',' then
        if first then none
        else (item (skipSpace rest)).bind fun (v, rest) =>
          readAfter close (readList close item false fuel) v rest
      else if first then
        (item (c :: rest)).bind fun (v, rest) =>
          readAfter close (readList close item false fuel) v rest
      else none

/-- An entry as written; its key may denote no text. -/
abbrev RawEntry := Option String × Json

/-- One entry of an object. -/
def readEntry (item : Reader Json) (cs : List Char) : Option (RawEntry × List Char) := do
  let (key, cs) ← readString cs
  match skipSpace cs with
  | ':' :: rest =>
    let (v, rest) ← item (skipSpace rest)
    return ((key, v), rest)
  | _ => none

/-- The object with the entries as written, if all its keys denote text. -/
def objectOf? (entries : List RawEntry) : Option Json :=
  (entries.mapM fun (e : RawEntry) => e.1.map (·, e.2)).map .obj

/-- Stands for a skimmed token that denotes no value. No record has a member of this kind, so it
is refused where a record looks at it and passed over elsewhere. -/
def unvalued : Json := .num (.real ⟨false, 0, 0⟩)

/-- What was read, if it denotes a value; skimming takes other tokens too. -/
def taken (skim : Bool) : Option Json × List Char → Option (Json × List Char)
  | (some v, rest) => some (v, rest)
  | (none, rest) => if skim then some (unvalued, rest) else none

/-- A value that starts at once, with at most `depth` arrays and objects inside one another. -/
def readValue (skim : Bool) : Nat → Reader Json
  | depth, cs => match cs with
    | 'n' :: _ => readWord "null".toList .null cs
    | 't' :: _ => readWord "true".toList (.bool true) cs
    | 'f' :: _ => readWord "false".toList (.bool false) cs
    | '"' :: _ => (readString cs).bind fun (s, rest) => taken skim (s.map .str, rest)
    | '[' :: rest => match depth with
      | 0 => none
      | depth + 1 =>
        (readList ']' (readValue skim depth) true (rest.length + 1) rest).map fun (vs, rest) =>
          (.arr vs, rest)
    | '\x7b' :: rest => match depth with
      | 0 => none
      | depth + 1 =>
        (readList '\x7d' (readEntry (readValue skim depth)) true (rest.length + 1) rest).bind
          fun (es, rest) => taken skim (objectOf? es, rest)
    | _ => (readNumber cs).bind fun (n, rest) => taken skim (n.map .num, rest)

/-- The value that fills the characters. -/
def readAll (skim : Bool) (depth : Nat) (cs : List Char) : Option Json := do
  let (v, rest) ← readValue skim depth (skipSpace cs)
  if (skipSpace rest).isEmpty then some v else none

/-- The value that a text holds, skimmed for a record: its objects have the entries as written,
and nesting has no bound but the text itself. -/
def parseRecord? (s : String) : Option Json :=
  readAll true s.length s.toList

/-- The value that a text holds. -/
def parse? (s : String) : Option Json :=
  (readAll false maxDepth s.toList).map canonical

end Lorebook.Json
