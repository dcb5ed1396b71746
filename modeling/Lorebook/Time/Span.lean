set_option autoImplicit false

/-! # Spans of time

A span is a number of whole seconds and nanoseconds below a second. Its text uses the largest of
the units second, milli-, micro- and nanosecond of which there is at least one, with as many
decimals as the span needs. -/

namespace Lorebook

/-- A length of time. -/
structure Span where
  seconds : Nat
  nanos : Nat
deriving DecidableEq, Repr

namespace Span

/-- A number of whole seconds. -/
def ofSeconds (n : Nat) : Span := ⟨n, 0⟩

/-- A number of milliseconds. -/
def ofMillis (n : Nat) : Span := ⟨n / 1000, n % 1000 * 1000000⟩

/-- A number of nanoseconds. -/
def ofNanos (n : Nat) : Span := ⟨n / 1000000000, n % 1000000000⟩

/-- The span in nanoseconds. -/
def toNanos (s : Span) : Nat := s.seconds * 1000000000 + s.nanos

/-- The decimals of `part` out of a unit of `10 ^ width`, without zeros at the end. -/
def decimals (part width : Nat) : String :=
  let digits := toString part
  let padded := "".pushn '0' (width - digits.length) ++ digits
  String.ofList (padded.toList.reverse.dropWhile (· = '0')).reverse

/-- A whole number and its decimals. -/
def decimalText (whole part width : Nat) : String :=
  if part = 0 then toString whole else toString whole ++ "." ++ decimals part width

/-- The text of a span. -/
def text (s : Span) : String :=
  if 0 < s.seconds then decimalText s.seconds s.nanos 9 ++ "s"
  else if 1000000 ≤ s.nanos then decimalText (s.nanos / 1000000) (s.nanos % 1000000) 6 ++ "ms"
  else if 1000 ≤ s.nanos then decimalText (s.nanos / 1000) (s.nanos % 1000) 3 ++ "µs"
  else toString s.nanos ++ "ns"

end Span

end Lorebook
