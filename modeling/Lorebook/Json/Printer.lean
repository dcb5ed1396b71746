import Lorebook.Json.Basic
import Lorebook.Decimal.Shortest
import Lorebook.Text.Quoted

set_option autoImplicit false

/-! # JSON text

The compact form has no white space. Strings escape the quote, the backslash and the controls
below U+0020; everything else stands for itself. A double is written with the fewest digits that
read back, positionally when its magnitude lies in `[10⁻⁵, 10¹⁶)` and with a signed exponent
otherwise. The indented form gives every item its own line. -/

namespace Lorebook.Json

/-! ## Numbers -/

/-- The text of a positional decimal with at least one digit after the point. -/
def positional (d : Decimal) : String :=
  let digits := toString d.digits
  let point : Int := digits.length + d.power
  if 0 ≤ d.power then digits ++ "".pushn '0' d.power.toNat ++ ".0"
  else if 0 < point then
    (digits.take point.toNat).toString ++ "." ++ (digits.drop point.toNat).toString
  else "0." ++ "".pushn '0' (-point).toNat ++ digits

/-- The text of a decimal in exponent form, the sign of the exponent always shown. -/
def scientific (d : Decimal) : String :=
  let digits := toString d.digits
  let exponent : Int := digits.length - 1 + d.power
  let fraction := (digits.drop 1).toString
  let mantissa := if fraction.isEmpty then digits else (digits.take 1).toString ++ "." ++ fraction
  mantissa ++ "e" ++ (if exponent < 0 then "-" else "+") ++ toString exponent.natAbs

/-- The text of a finite number of a format. -/
def realText (f : BinaryFormat) (x : Binary) : String :=
  let sign := if x.negative then "-" else ""
  if x.isZero then sign ++ "0.0"
  else
    let d := x.shortest f
    let exponent : Int := (toString d.digits).length - 1 + d.power
    sign ++ if -5 ≤ exponent ∧ exponent < 16 then positional d else scientific d

/-- The text of a number. -/
def Number.text : Number → String
  | .int n => toString n
  | .real x => realText .double x

/-! ## Strings -/

/-- A character as it stands in a JSON string. -/
def escapeChar (c : Char) : List Char :=
  if c = '"' then ['\\', '"']
  else if c = '\\' then ['\\', '\\']
  else if c = '\n' then ['\\', 'n']
  else if c = '\r' then ['\\', 'r']
  else if c = '\t' then ['\\', 't']
  else if c = '\x08' then ['\\', 'b']
  else if c = '\x0c' then ['\\', 'f']
  else if c.toNat < 0x20 then '\\' :: 'u' :: Text.hexPadded 4 c.toNat
  else [c]

/-- The characters of a JSON string, with its quotes. -/
def escapeChars (cs : List Char) : List Char :=
  '"' :: cs.flatMap escapeChar ++ ['"']

/-- Text as a JSON string. -/
def escape (s : String) : String :=
  String.ofList (escapeChars s.toList)

/-! ## Values -/

mutual

/-- The compact text of a value. -/
def compact : Json → String
  | .null => "null"
  | .bool true => "true"
  | .bool false => "false"
  | .num n => n.text
  | .str s => escape s
  | .arr items => "[" ++ compactItems true items ++ "]"
  | .obj entries => "\x7b" ++ compactEntries true entries ++ "\x7d"

/-- The items of an array, each but the first after a comma. -/
def compactItems (first : Bool) : List Json → String
  | [] => ""
  | v :: rest => (if first then "" else ",") ++ v.compact ++ compactItems false rest

/-- The entries of an object, each but the first after a comma. -/
def compactEntries (first : Bool) : List (String × Json) → String
  | [] => ""
  | (k, v) :: rest =>
    (if first then "" else ",") ++ escape k ++ ":" ++ v.compact ++ compactEntries false rest

end

/-- A line break and two spaces for each level. -/
def newline (level : Nat) : String :=
  "".pushn ' ' (2 * level) |> ("\n" ++ ·)

mutual

/-- The indented text of a value that starts at a level. -/
def indented (level : Nat) : Json → String
  | .arr (v :: rest) => "[" ++ indentedItems (level + 1) true (v :: rest) ++ newline level ++ "]"
  | .obj (e :: rest) =>
    "\x7b" ++ indentedEntries (level + 1) true (e :: rest) ++ newline level ++ "\x7d"
  | v => v.compact

/-- The items of an array, each on a line of its own. -/
def indentedItems (level : Nat) (first : Bool) : List Json → String
  | [] => ""
  | v :: rest =>
    (if first then "" else ",") ++ newline level ++ v.indented level
      ++ indentedItems level false rest

/-- The entries of an object, each on a line of its own. -/
def indentedEntries (level : Nat) (first : Bool) : List (String × Json) → String
  | [] => ""
  | (k, v) :: rest =>
    (if first then "" else ",") ++ newline level ++ escape k ++ ": " ++ v.indented level
      ++ indentedEntries level false rest

end

/-- The text of a value over several lines, two spaces to a level. -/
def pretty (v : Json) : String :=
  v.indented 0

end Lorebook.Json
