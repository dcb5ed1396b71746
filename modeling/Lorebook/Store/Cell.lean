import Lorebook.Decimal.Extended
import Lorebook.Json.Reader

set_option autoImplicit false

/-! # Cells of stored rows

A cell holds nothing, a number, text or bytes, whatever its column is declared as. A column turns
what is written to it into its own kind where that loses nothing: numbers become text in a text
column, and text that is wholly a number becomes one in an integer column. Cells are ordered by
kind first: nothing, numbers, text, bytes. -/

namespace Lorebook

/-- What a cell of a row holds. -/
inductive Cell where
  | null
  | int (value : Int)
  | real (value : Binary)
  /-- A number beyond the greatest double. -/
  | infinite (negative : Bool)
  | text (value : String)
  | blob (bytes : List UInt8)
deriving DecidableEq

namespace Cell

instance : Inhabited Cell := ⟨.null⟩

/-- The cell of a text that may be absent. -/
def ofOption : Option String → Cell
  | none => .null
  | some s => .text s

/-- Whether the cell holds nothing. -/
def isNull : Cell → Bool
  | .null => true
  | _ => false

/-- Whether the cell holds the text. -/
def isText (c : Cell) (s : String) : Bool :=
  c = .text s

/-- The name of the kind of a cell. -/
def kind : Cell → String
  | .null => "Null"
  | .int _ => "Integer"
  | .real _ => "Real"
  | .infinite _ => "Real"
  | .text _ => "Text"
  | .blob _ => "Blob"

/-! ## Numbers in text -/

/-- The numbers that fit a 64-bit integer with a sign. -/
def fitsInt64 (n : Int) : Bool :=
  -(twoPow 63 : Int) ≤ n && n < (twoPow 63 : Int)

/-- A double as a cell, infinite where it overflowed. -/
def ofDouble (negative : Bool) : Option Binary → Cell
  | some x => .real x
  | none => .infinite negative

/-- A whole number as a cell: an integer when it fits one, else the nearest double. -/
def ofInt (n : Int) : Cell :=
  if fitsInt64 n then .int n
  else ofDouble (n < 0) ((Binary.ofNat? .double n.natAbs).map ({ · with negative := n < 0 }))

/-- The whole number that a double is, if it is one. -/
def wholeValue? (x : Binary) : Option Int :=
  let n : Option Nat :=
    if 0 ≤ x.exponent then some (x.significand * twoPow x.exponent.toNat)
    else
      let d := twoPow (-x.exponent).toNat
      if x.significand % d = 0 then some (x.significand / d) else none
  n.map fun n => if x.negative then -(n : Int) else n

/-- White space around a number. -/
def isNumberSpace (c : Char) : Bool :=
  c = ' ' || ('\t' ≤ c && c ≤ '\r')

/-- The number at the start of a text, and what follows it. -/
def leadingNumber? (cs : List Char) : Option (Cell × List Char) := do
  let cs := cs.dropWhile isNumberSpace
  let (negative, cs) := match cs with
    | '-' :: rest => (true, rest)
    | '+' :: rest => (false, rest)
    | rest => (false, rest)
  let whole := cs.takeWhile Char.isDigit
  let cs := cs.drop whole.length
  let (fraction, cs) := match cs with
    | '.' :: rest =>
      let digits := rest.takeWhile Char.isDigit
      if whole.isEmpty && digits.isEmpty then (none, cs)
      else (some digits, rest.drop digits.length)
    | _ => (none, cs)
  if whole.isEmpty && (fraction.getD []).isEmpty then none
  else
    let (exponent, cs) := match cs with
      | e :: rest =>
        let (minus, rest) := match rest with
          | '-' :: rest => (true, rest)
          | '+' :: rest => (false, rest)
          | rest => (false, rest)
        let digits := rest.takeWhile Char.isDigit
        if (e = 'e' || e = 'E') && !digits.isEmpty then
          let n := Json.digitsValue digits
          -- An exponent of six digits or more counts as ten thousand.
          let n : Int := if 100000 ≤ n then 10000 else n
          (some (if minus then -n else n), rest.drop digits.length)
        else (none, cs)
      | [] => (none, cs)
    let n : Int := Json.digitsValue whole
    let n := if negative then -n else n
    if fraction.isNone && exponent.isNone && fitsInt64 n then some (.int n, cs)
    else
      let x := Decimal.quickDouble? negative whole (fraction.getD []) (exponent.getD 0)
      some (ofDouble negative x, cs)

/-! ## What columns make of values -/

/-- A value as a text column keeps it. -/
def asText : Cell → Cell
  | .int n => .text (toString n)
  | c => c

/-- A number as an integer column keeps it: a double that is whole and lies between the ends of
the 64-bit integers becomes one. -/
def asWhole : Cell → Cell
  | .real x => match wholeValue? x with
    | some n => if n.natAbs < twoPow 63 then .int n else .real x
    | none => .real x
  | c => c

/-- A value as an integer column keeps it. -/
def asInteger : Cell → Cell
  | .text s => match leadingNumber? s.toList with
    | some (number, rest) => if rest.all isNumberSpace then number.asWhole else .text s
    | none => .text s
  | c => c

/-- The characters of bytes, each byte one character. -/
def byteChars (bytes : List UInt8) : List Char :=
  bytes.map fun b => Char.ofNat b.toNat

/-- The number that a cell counts as; text and bytes count as the number they start with, or as
zero. -/
def counted : Cell → Cell
  | .text s => (leadingNumber? s.toList).elim (.int 0) (·.1)
  | .blob bytes => (leadingNumber? (byteChars bytes)).elim (.int 0) (·.1)
  | c => c

/-- The number one greater than a double, rounded to a double. -/
def nextReal (x : Binary) : Cell :=
  let (size, den) := Binary.scaleRatio x.significand 1 x.exponent
  let sum : Int := (if x.negative then -(size : Int) else size) + den
  match Binary.roundRatio .double sum.natAbs den with
  | some (m, e) => .real ⟨sum < 0, m, e⟩
  | none => .infinite (sum < 0)

/-- What an integer column keeps of the number one greater than a cell counts as. Nothing stays
nothing. -/
def successor (c : Cell) : Cell :=
  match c.counted with
  | .int n => (ofInt (n + 1)).asWhole
  | .real x => (nextReal x).asWhole
  | c => c

/-! ## Order -/

/-- The place of a kind in the order. -/
def rank : Cell → Nat
  | .null => 0
  | .int _ => 1
  | .real _ => 1
  | .infinite _ => 1
  | .text _ => 2
  | .blob _ => 3

/-- A finite number as a ratio: a numerator and a positive denominator. -/
def ratio : Cell → Int × Nat
  | .int n => (n, 1)
  | .real x =>
    let (num, den) := Binary.scaleRatio x.significand 1 x.exponent
    (if x.negative then -(num : Int) else num, den)
  | _ => (0, 1)

/-- Whether one list of bytes comes before another. -/
def bytesBefore : List UInt8 → List UInt8 → Bool
  | _, [] => false
  | [], _ :: _ => true
  | a :: as, b :: bs => a < b || (a = b && bytesBefore as bs)

/-- Whether one cell comes before another. -/
def before (a b : Cell) : Bool :=
  match a, b with
  | .text s, .text t => s < t
  | .blob s, .blob t => bytesBefore s t
  | .infinite s, .infinite t => s && !t
  | .infinite s, b => a.rank < b.rank || (a.rank = b.rank && s)
  | a, .infinite t => a.rank < b.rank || (a.rank = b.rank && !t)
  | a, b =>
    a.rank < b.rank || (a.rank = b.rank &&
      let (n, d) := a.ratio
      let (m, e) := b.ratio
      n * e < m * d)

/-- Whether one cell does not come after another. -/
def notAfter (a b : Cell) : Bool :=
  !b.before a

end Cell

end Lorebook
