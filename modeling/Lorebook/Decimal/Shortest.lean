import Lorebook.Decimal.Binary

set_option autoImplicit false

/-! # The shortest decimal of a floating-point number

Of the decimals that round to a given number, the written one has the fewest digits and, among
those, lies nearest to the number. The decimals that round to `m * 2 ^ e` form an interval whose
ends belong to it exactly when `m` is even; on the grid of decimals with `n` digits only the two
neighbours of the number can be the answer. -/

namespace Lorebook

/-- The decimal `digits * 10 ^ power`. -/
structure Decimal where
  digits : Nat
  power : Int
deriving DecidableEq, Repr

namespace Binary

/-- Four times the number and the two ends of the interval that rounds to it, in units of
`2 ^ exponent`. Below a power of two the neighbouring numbers are twice as dense. -/
def roundingInterval (f : BinaryFormat) (x : Binary) : Nat × Nat × Nat :=
  let v := 4 * x.significand
  let lower :=
    if x.significand = twoPow (f.precision - 1) && f.minExponent < x.exponent then v - 1 else v - 2
  (lower, v, v + 2)

/-- Whether `digits * 10 ^ power` rounds to `x`. -/
def roundsTo (f : BinaryFormat) (x : Binary) (d : Decimal) : Bool :=
  let (lower, _, upper) := roundingInterval f x
  -- Compare digits * 10 ^ power with quarter units: both sides are scaled to naturals.
  let tens := tenPow d.power.natAbs
  let twos := twoPow x.exponent.natAbs
  let scale (quarters : Nat) : Nat :=
    quarters * (if 0 ≤ x.exponent then twos else 1) * (if 0 ≤ d.power then 1 else tens)
  let value :=
    4 * d.digits * (if 0 ≤ d.power then tens else 1) * (if 0 ≤ x.exponent then 1 else twos)
  if x.significand % 2 = 0 then scale lower ≤ value && value ≤ scale upper
  else scale lower < value && value < scale upper

/-- The number of digits before the point of `num / den ≥ 1`, or minus the number of zeros after
it: the least `p` with `num / den < 10 ^ p`, searched upwards from a lower bound. -/
def magnitudeFrom (num den : Nat) : Nat → Int → Int
  | 0, p => p
  | fuel + 1, p =>
    let below :=
      if 0 ≤ p then num < den * tenPow p.toNat else num * tenPow (-p).toNat < den
    if below then p else magnitudeFrom num den fuel (p + 1)

/-- The least `p` with `|x| < 10 ^ p`, for `x` other than zero. -/
def magnitude (x : Binary) : Int :=
  let (num, den) := x.ratio
  -- Three tenths of the binary logarithm lie below the decimal one.
  let start := (log2Ratio num den) * 30103 / 100000 - 1
  magnitudeFrom num den 4 start

/-- The decimals with `n` digits just below and just above `|x|`, the nearer one first. -/
def neighbours (x : Binary) (n : Nat) : List Decimal :=
  let power := x.magnitude - n
  let (num, den) := x.ratio
  let (num, den) :=
    if 0 ≤ power then (num, den * tenPow power.toNat) else (num * tenPow (-power).toNat, den)
  let q := num / den
  let r := num % den
  let lower : Decimal := ⟨q, power⟩
  let upper : Decimal := ⟨q + 1, power⟩
  if 2 * r < den || (2 * r = den && q % 2 = 0) then [lower, upper] else [upper, lower]

/-- Drop zeros at the end of the digits. -/
def stripZeros : Nat → Decimal → Decimal
  | 0, d => d
  | fuel + 1, d =>
    if d.digits ≠ 0 && d.digits % 10 = 0 then stripZeros fuel ⟨d.digits / 10, d.power + 1⟩ else d

/-- The shortest decimal that rounds to `|x|`; seventeen digits are always enough. -/
def shortest (f : BinaryFormat) (x : Binary) : Decimal :=
  if x.isZero then ⟨0, 0⟩
  else
    let candidates := (List.range 17).flatMap fun n => x.neighbours (n + 1)
    stripZeros 17 ((candidates.find? (roundsTo f x)).getD ⟨0, 0⟩)

end Binary

end Lorebook
