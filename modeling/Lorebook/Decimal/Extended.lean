import Lorebook.Decimal.Significand

set_option autoImplicit false

/-! # Decimals read in extended precision

A quick reader of decimals keeps about nineteen digits in a word and scales them by powers of ten in
a format whose significand has 64 bits. Each product is rounded, and the result is rounded once more
to a double. That is the nearest double but for decimals with more digits than the word holds, or
very close to the middle of two doubles. -/

namespace Lorebook

/-- The format with a significand of 64 bits. -/
def BinaryFormat.extended : BinaryFormat := ⟨64, -16445, 16320⟩

namespace Decimal

/-- Whether a word has room for one digit more, whichever it is. -/
def wordRoom (significand _digit : Nat) : Bool :=
  significand < (twoPow 64 - 10) / 10

/-- The same number with a lower power of ten, as long as the power is positive and the significand
stays within a word. The first argument bounds the number of steps; twenty are enough. -/
def lowerPower : Nat → Nat × Int → Nat × Int
  | 0, d => d
  | fuel + 1, (significand, power) =>
    if 0 < power && significand < (twoPow 64 - 1) / 10 then
      lowerPower fuel (significand * 10, power - 1)
    else (significand, power)

/-- The same number with a higher power of ten, as long as the power is negative and the significand
ends in zeros. The first argument bounds the number of steps; twenty are enough. -/
def raisePower : Nat → Nat × Int → Nat × Int
  | 0, d => d
  | fuel + 1, (significand, power) =>
    if power < 0 && significand % 10 = 0 then raisePower fuel (significand / 10, power + 1)
    else (significand, power)

/-- The extended number nearest to a power of ten. -/
def tenPowExtended (power : Int) : Binary :=
  (Binary.ofDecimal .extended false 1 power).getD ⟨false, 0, 0⟩

/-- A number times a factor so many times, each product rounded; `none` on overflow. -/
def timesRepeated (factor : Binary) : Nat → Binary → Option Binary
  | 0, x => some x
  | n + 1, x => do timesRepeated factor n (← x.mul .extended factor)

/-- A number times a power of ten, by hundreds, tens and ones of the power; `none` on overflow. -/
def scaleExtended (x : Binary) (power : Int) : Option Binary := do
  let factor (n : Int) : Binary := tenPowExtended (if power < 0 then -n else n)
  let n := power.natAbs
  let x ← timesRepeated (factor 100) (n / 100) x
  let x ← timesRepeated (factor 10) (n % 100 / 10) x
  timesRepeated (factor 1) (n % 10) x

/-- The double that a quick reader gives for the digits of a number and a power of ten; `none` on
overflow. -/
def quickDouble? (negative : Bool) (whole fraction : List Char) (exponent : Int) :
    Option Binary := do
  let (significand, shift) := ofDigits wordRoom whole fraction
  let (significand, power) := raisePower 20 (lowerPower 20 (significand, exponent + shift))
  let x ←
    if significand = 0 || power = 0 then Binary.ofNat? .double significand
    else do
      let (num, den) := (← scaleExtended (← Binary.ofNat? .extended significand) power).ratio
      (Binary.roundRatio .double num den).map fun (m, e) => ⟨false, m, e⟩
  return { x with negative }

end Decimal

end Lorebook
