import Lorebook.Decimal.Binary

set_option autoImplicit false

/-! # Significands of limited size

A reader of decimals can keep the digits it has seen in a word. It takes digits as long as there is
room for the next one; those it leaves out before the point count for the power of ten, those it
leaves out after the point count for nothing. -/

namespace Lorebook.Decimal

/-- Take digits into a significand while there is room, which depends on the significand so far and
the next digit; also the number of digits from the first for which there is none. -/
def takeSignificant (room : Nat → Nat → Bool) : Nat → List Char → Nat × Nat
  | significand, [] => (significand, 0)
  | significand, c :: cs =>
    let digit := c.toNat - 48
    if room significand digit then takeSignificant room (significand * 10 + digit) cs
    else (significand, cs.length + 1)

/-- The decimal that is kept of the digits before and after a point. -/
def ofDigits (room : Nat → Nat → Bool) (whole fraction : List Char) : Nat × Int :=
  let (upper, unread) := takeSignificant room 0 whole
  let (significand, dropped) := takeSignificant room upper fraction
  (significand, (unread : Int) - ((fraction.length - dropped : Nat) : Int))

/-- Where there is always room, every digit is taken. -/
theorem takeSignificant_true (significand : Nat) (cs : List Char) :
    takeSignificant (fun _ _ => true) significand cs =
      (cs.foldl (fun n c => n * 10 + (c.toNat - 48)) significand, 0) := by
  induction cs generalizing significand with
  | nil => rfl
  | cons c cs ih => simp [takeSignificant, ih]

end Lorebook.Decimal
