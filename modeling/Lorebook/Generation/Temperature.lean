import Lorebook.Decimal.Shortest
import Lorebook.Json.Reader

set_option autoImplicit false

/-! # Sampling temperatures

A temperature is a 32-bit floating-point number, written in a configuration as a decimal literal.
It is shown with the fewest digits that read back, always positionally. -/

namespace Lorebook

/-- A sampling temperature. -/
inductive Temperature where
  | finite (value : Binary)
  | infinite (negative : Bool)
  | undefined
deriving DecidableEq, Repr

namespace Temperature

/-- The temperature nearest to `± digits * 10 ^ power`. -/
def ofDecimal (negative : Bool) (digits : Nat) (power : Int) : Temperature :=
  match Binary.ofDecimal .single negative digits power with
  | some x => .finite x
  | none => .infinite negative

/-- The temperature nearest to a double. -/
def ofBinary (x : Binary) : Temperature :=
  let (num, den) := x.ratio
  match Binary.roundRatio .single num den with
  | some (m, e) => .finite ⟨x.negative, m, e⟩
  | none => .infinite x.negative

/-- The temperature nearest to the double of a whole number. -/
def ofInt (n : Int) : Temperature :=
  match Binary.ofNat? .double n.natAbs with
  | some x => ofBinary { x with negative := n < 0 }
  | none => .infinite (n < 0)

/-- The temperature of the number 0.8. -/
def standard : Temperature := ofDecimal false 8 (-1)

/-- An optional sign and what follows it. -/
def takeSign : List Char → Bool × List Char
  | '-' :: rest => (true, rest)
  | '+' :: rest => (false, rest)
  | rest => (false, rest)

/-- The temperature of a literal: a decimal with optional sign, point and exponent, or one of the
words `inf` and `NaN`. -/
def ofLiteral (literal : String) : Temperature :=
  let (negative, cs) := takeSign literal.toList
  if cs = "inf".toList then .infinite negative
  else if cs = "NaN".toList then .undefined
  else
    let whole := cs.takeWhile Char.isDigit
    let (fraction, cs) := match cs.drop whole.length with
      | '.' :: rest => (rest.takeWhile Char.isDigit, rest.dropWhile Char.isDigit)
      | rest => ([], rest)
    let exponent : Int := match cs with
      | _ :: rest =>
        let (minus, digits) := takeSign rest
        if minus then -(Json.digitsValue digits : Int) else Json.digitsValue digits
      | [] => 0
    ofDecimal negative (Json.digitsValue (whole ++ fraction)) (exponent - (fraction.length : Int))

/-- A decimal in positional form, without a point when it is whole. -/
def positional (d : Decimal) : String :=
  let digits := toString d.digits
  let point : Int := digits.length + d.power
  if 0 ≤ d.power then digits ++ "".pushn '0' d.power.toNat
  else if 0 < point then
    (digits.take point.toNat).toString ++ "." ++ (digits.drop point.toNat).toString
  else "0." ++ "".pushn '0' (-point).toNat ++ digits

/-- The text of a temperature. -/
def text : Temperature → String
  | .finite x =>
    (if x.negative then "-" else "") ++ if x.isZero then "0" else positional (x.shortest .single)
  | .infinite negative => if negative then "-inf" else "inf"
  | .undefined => "NaN"

/-- The temperature as a number of JSON, which has none that are not finite: what the shortest
decimal is read as. -/
def toJson : Temperature → Json
  | .finite x =>
    let d := x.shortest .single
    match Json.decimalDouble? x.negative d.digits d.power with
    | some y => .num (.real y)
    | none => .null
  | _ => .null

end Temperature

end Lorebook
