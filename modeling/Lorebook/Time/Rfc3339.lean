import Lorebook.Decimal.Binary
import Lorebook.Text.Blank
import Lorebook.Time.Instant

set_option autoImplicit false

/-! # Timestamps

An instant is written as `YYYY-MM-DDThh:mm:ss.fffffffffZ`. The stored form always has nine
decimals, so that for years of four digits the order of texts is the order of instants; the exchange
form has none, three, six or nine, as few as the instant needs. A year outside four digits carries
its sign. `parse?` reads a strict timestamp with any offset from universal time, `parseLenient?`
one that may also leave out leading zeros and have spaces between its parts. -/

namespace Lorebook

namespace Rfc3339

/-! ## Writing -/

/-- The digit of a number below ten. -/
def digit (n : Nat) : Char :=
  Char.ofNat (48 + n)

/-- The lowest `width` decimal digits of `n`. -/
def padded : Nat → Nat → List Char
  | 0, _ => []
  | width + 1, n => padded width (n / 10) ++ [digit (n % 10)]

/-- A year: four digits, or a sign and at least four digits. -/
def yearChars (year : Int) : List Char :=
  if 0 ≤ year ∧ year ≤ 9999 then padded 4 year.toNat
  else
    let sign := if year < 0 then '-' else '+'
    sign :: padded (max 4 (toString year.natAbs).length) year.natAbs

/-- The date, the time of day and then `decimals` digits of the fraction. -/
def write (t : Instant) (decimals : Nat) : List Char :=
  let date := Calendar.dateOf t.day
  let fraction := t.nano % 1000000000
  let second := t.second % 60 + t.nano / 1000000000
  yearChars date.year ++ '-' :: padded 2 date.month ++ '-' :: padded 2 date.day ++ 'T' ::
    padded 2 (t.second / 3600) ++ ':' :: padded 2 (t.second / 60 % 60) ++ ':' :: padded 2 second ++
    (if decimals = 0 then [] else '.' :: padded decimals (fraction / tenPow (9 - decimals))) ++
    ['Z']

/-- The stored form, with nine decimals. -/
def stored (t : Instant) : String :=
  String.ofList (write t 9)

/-- The exchange form, with the fewest decimals in groups of three. -/
def exchange (t : Instant) : String :=
  let fraction := t.nano % 1000000000
  let decimals :=
    if fraction = 0 then 0
    else if fraction % 1000000 = 0 then 3
    else if fraction % 1000 = 0 then 6
    else 9
  String.ofList (write t decimals)

/-! ## Reading -/

/-- A reader consumes a beginning of the characters, or refuses. -/
abbrev Reader (α : Type) := List Char → Option (α × List Char)

/-- The number that decimal digits denote. -/
def value (digits : List Char) : Nat :=
  digits.foldl (fun n c => n * 10 + (c.toNat - 48)) 0

/-- A number of at least `least` and at most `most` digits. -/
def number (least most : Nat) : Reader Nat := fun cs =>
  let digits := (cs.take most).takeWhile Char.isDigit
  if digits.length < least then none else some (value digits, cs.drop digits.length)

/-- One fixed character. -/
def mark (c : Char) : Reader Unit
  | d :: rest => if d = c then some ((), rest) else none
  | [] => none

/-- The mark between date and time: a `T` in either case, or a space. -/
def dateTimeMark : Reader Unit
  | c :: rest => if c = 'T' || c = 't' || c = ' ' then some ((), rest) else none
  | [] => none

/-- The decimals after a point in nanoseconds, digits beyond the ninth being ignored; zero when
there is no point. -/
def fraction : Reader Nat
  | '.' :: cs =>
    let digits := (cs.take 9).takeWhile Char.isDigit
    if digits.isEmpty then none
    else some (value digits * tenPow (9 - digits.length),
      (cs.drop digits.length).dropWhile Char.isDigit)
  | cs => some (0, cs)

/-- An offset from universal time in minutes: `Z`, or a sign, two digits of hours, what `separator`
skips, and two digits of minutes. The sign may be the mathematical minus. -/
def offset (separator : List Char → Option (List Char)) : Reader Int
  | c :: cs =>
    if c = 'Z' || c = 'z' then some (0, cs)
    else if c = '+' || c = '-' || c = '−' then do
      let (hours, cs) ← number 2 2 cs
      let cs ← separator cs
      let (minutes, cs) ← number 2 2 cs
      if 59 < minutes then none
      else
        let total : Int := hours * 60 + minutes
        some (if c = '+' then total else -total, cs)
    else none
  | [] => none

/-- The instant of a local date and time of day at an offset in minutes. The calendar has to reach
both the local reading and the instant. -/
def assemble? (date : CivilDate) (hour minute second nano : Nat) (offset : Int) :
    Option Instant := do
  let day ← Calendar.dayOf? date
  if h : hour < 24 ∧ minute < 60 ∧ second ≤ 60 ∧ nano < 1000000000 then
    let isLeap := second = 60
    let reading : Instant := {
      day := day
      second := hour * 3600 + minute * 60 + min second 59
      nano := if isLeap then nano + 1000000000 else nano
      second_lt := by omega
      nano_lt := by split <;> omega
      leap := by
        intro hn
        split at hn <;> omega }
    let t := reading.shift (-offset * 60) (by omega)
    if offset.natAbs < 1440 && reading.isRepresentable && t.isRepresentable then some t else none
  else none

/-- The instant of a strict timestamp. -/
def parse? (s : String) : Option Instant := do
  let (year, cs) ← number 4 4 s.toList
  let (_, cs) ← mark '-' cs
  let (month, cs) ← number 2 2 cs
  let (_, cs) ← mark '-' cs
  let (day, cs) ← number 2 2 cs
  let (_, cs) ← dateTimeMark cs
  let (hour, cs) ← number 2 2 cs
  let (_, cs) ← mark ':' cs
  let (minute, cs) ← number 2 2 cs
  let (_, cs) ← mark ':' cs
  let (second, cs) ← number 2 2 cs
  let (nano, cs) ← fraction cs
  let (offset, cs) ← offset (fun cs => (mark ':' cs).map (·.2)) cs
  if cs.isEmpty then assemble? ⟨year, month, day⟩ hour minute second nano offset else none

/-- A year of up to four digits, or of any length after a sign. -/
def lenientYear : Reader Int
  | '-' :: cs => (number 1 cs.length cs).map fun (n, rest) => (-(n : Int), rest)
  | '+' :: cs => (number 1 cs.length cs).map fun (n, rest) => ((n : Int), rest)
  | cs => (number 1 4 cs).map fun (n, rest) => ((n : Int), rest)

/-- An offset whose hours and minutes may stand apart, or the word `UTC` in any case. -/
def lenientOffset : Reader Int
  | a :: b :: c :: rest =>
    if [a, b, c].map Char.toUpper = ['U', 'T', 'C'] then some (0, rest)
    else
      offset (fun cs => some (cs.dropWhile fun c => c = ':' || Text.isSpace c))
        (a :: b :: c :: rest)
  | cs => offset (fun cs => some cs) cs

/-- The instant of a timestamp whose parts may lack leading zeros and stand apart. -/
def parseLenient? (s : String) : Option Instant := do
  let (year, cs) ← lenientYear (Text.trimStartChars s.toList)
  let (_, cs) ← mark '-' (Text.trimStartChars cs)
  let (month, cs) ← number 1 2 (Text.trimStartChars cs)
  let (_, cs) ← mark '-' (Text.trimStartChars cs)
  let (day, cs) ← number 1 2 (Text.trimStartChars cs)
  let (_, cs) ← dateTimeMark cs
  let (hour, cs) ← number 1 2 (Text.trimStartChars cs)
  let (_, cs) ← mark ':' (Text.trimStartChars cs)
  let (minute, cs) ← number 1 2 (Text.trimStartChars cs)
  let (_, cs) ← mark ':' (Text.trimStartChars cs)
  let (second, cs) ← number 1 2 (Text.trimStartChars cs)
  let (nano, cs) ← fraction cs
  let (offset, cs) ← lenientOffset (Text.trimStartChars cs)
  if cs.all Text.isSpace then assemble? ⟨year, month, day⟩ hour minute second nano offset else none

end Rfc3339

end Lorebook
