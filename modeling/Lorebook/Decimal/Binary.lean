set_option autoImplicit false

/-! # Binary floating-point numbers, exactly

A floating-point number is kept as what it denotes: a sign, a significand and a power of two. A
format bounds the significand and the exponent; `roundRatio` is the nearest number of a format to
a ratio of naturals, the tie going to the even significand. All arithmetic is on `Nat` and `Int`. -/

namespace Lorebook

/-- A power of two. -/
def twoPow (n : Nat) : Nat :=
  Nat.pow 2 n

/-- A power of ten. -/
def tenPow (n : Nat) : Nat :=
  Nat.pow 10 n

/-- A binary format: how many bits a significand has, and the range of the power of two. -/
structure BinaryFormat where
  precision : Nat
  minExponent : Int
  maxExponent : Int

/-- The 64-bit format. -/
def BinaryFormat.double : BinaryFormat := ⟨53, -1074, 971⟩

/-- The 32-bit format. -/
def BinaryFormat.single : BinaryFormat := ⟨24, -149, 104⟩

/-- The number `± significand * 2 ^ exponent`. A negative zero is kept apart from zero. -/
structure Binary where
  negative : Bool
  significand : Nat
  exponent : Int
deriving DecidableEq, Repr

namespace Binary

/-- `num * 2 ^ e / den` as a ratio of naturals. -/
def scaleRatio (num den : Nat) (e : Int) : Nat × Nat :=
  if 0 ≤ e then (num * twoPow e.toNat, den) else (num, den * twoPow (-e).toNat)

/-- The natural nearest to `num / den`, a tie going to the even one. -/
def roundHalfEven (num den : Nat) : Nat :=
  let q := num / den
  let r := num % den
  if 2 * r < den then q
  else if 2 * r = den then q + q % 2
  else q + 1

/-- The greatest `e` with `2 ^ e ≤ num / den`, for positive `num` and `den`. -/
def log2Ratio (num den : Nat) : Int :=
  let e : Int := (num.log2 : Int) - (den.log2 : Int)
  let (n, d) := scaleRatio num den (-e)
  if d ≤ n then e else e - 1

/-- The significand and exponent of the number of the format nearest to `num / den`; `none` when
that lies beyond the greatest number of the format. -/
def roundRatio (f : BinaryFormat) (num den : Nat) : Option (Nat × Int) :=
  if num = 0 then some (0, f.minExponent)
  else
    let e := max (log2Ratio num den - ((f.precision : Int) - 1)) f.minExponent
    let (n, d) := scaleRatio num den (-e)
    let m := roundHalfEven n d
    let (m, e) := if m = twoPow f.precision then (twoPow (f.precision - 1), e + 1) else (m, e)
    if f.maxExponent < e then none else some (m, e)

/-- The number nearest to `± digits * 10 ^ power`; `none` on overflow. Powers of ten far outside
the range of every format are settled by the number of digits alone. -/
def ofDecimal (f : BinaryFormat) (negative : Bool) (digits : Nat) (power : Int) : Option Binary :=
  let magnitude : Int := power + ((toString digits).length : Int)
  if digits = 0 || magnitude < -400 then some ⟨negative, 0, f.minExponent⟩
  else if 400 < magnitude then none
  else
    let (num, den) :=
      if 0 ≤ power then (digits * tenPow power.toNat, 1) else (digits, tenPow (-power).toNat)
    (roundRatio f num den).map fun (m, e) => ⟨negative, m, e⟩

/-- The magnitude of a number as a ratio of naturals. -/
def ratio (x : Binary) : Nat × Nat :=
  scaleRatio x.significand 1 x.exponent

/-- The number nearest to a natural; `none` on overflow. -/
def ofNat? (f : BinaryFormat) (n : Nat) : Option Binary :=
  (roundRatio f n 1).map fun (m, e) => ⟨false, m, e⟩

/-- The number nearest to the product; `none` on overflow. -/
def mul (f : BinaryFormat) (x y : Binary) : Option Binary :=
  let (num, den) := x.ratio
  let (num', den') := y.ratio
  (roundRatio f (num * num') (den * den')).map fun (m, e) => ⟨x.negative != y.negative, m, e⟩

/-- The number nearest to the quotient by a number other than zero; `none` on overflow. -/
def div (f : BinaryFormat) (x y : Binary) : Option Binary :=
  let (num, den) := x.ratio
  let (num', den') := y.ratio
  (roundRatio f (num * den') (den * num')).map fun (m, e) => ⟨x.negative != y.negative, m, e⟩

/-- Whether the number is zero, of either sign. -/
def isZero (x : Binary) : Bool :=
  x.significand == 0

end Binary

end Lorebook
