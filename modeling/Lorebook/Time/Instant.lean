import Lorebook.Time.Calendar

set_option autoImplicit false

/-! # Instants

An instant is a day of the calendar, a second of that day and a fraction in nanoseconds, in
universal time. A leap second is read as the second before it with a fraction of a second or more,
so it lies after every instant of that second and before the next one. Instants are ordered by day,
second and fraction. -/

namespace Lorebook

/-- A point in universal time. -/
structure Instant where
  day : Int
  second : Nat
  nano : Nat
  second_lt : second < 86400
  nano_lt : nano < 2000000000
  leap : 1000000000 ≤ nano → second % 60 = 59

namespace Instant

theorem ext' {t u : Instant} (hd : t.day = u.day) (hs : t.second = u.second)
    (hn : t.nano = u.nano) : t = u := by
  cases t; cases u; simp_all

instance : DecidableEq Instant := fun t u =>
  if h : t.day = u.day ∧ t.second = u.second ∧ t.nano = u.nano then
    isTrue (ext' h.1 h.2.1 h.2.2)
  else isFalse fun e => h (e ▸ ⟨rfl, rfl, rfl⟩)

/-- Midnight at the start of a day. -/
def ofDay (day : Int) : Instant :=
  ⟨day, 0, 0, by omega, by omega, by omega⟩

instance : Inhabited Instant := ⟨ofDay 0⟩

/-- One instant lies before another. -/
def Before (t u : Instant) : Prop :=
  t.day < u.day ∨ t.day = u.day ∧ (t.second < u.second ∨ t.second = u.second ∧ t.nano < u.nano)

instance : LT Instant := ⟨Before⟩

instance (t u : Instant) : Decidable (t < u) :=
  inferInstanceAs (Decidable (_ ∨ _ ∧ (_ ∨ _ ∧ _)))

/-- The instant of a count of seconds since the start of day 0, and nanoseconds below a second. -/
def ofSeconds (seconds : Int) (nano : Nat) : Instant where
  day := seconds / 86400
  second := (seconds % 86400).toNat
  nano := nano % 1000000000
  second_lt := by omega
  nano_lt := by omega
  leap := by omega

/-- The count of seconds since the start of day 0, the fraction left out. -/
def seconds (t : Instant) : Int :=
  t.day * 86400 + t.second

/-- The same clock reading a number of seconds later or earlier. -/
def shift (t : Instant) (seconds : Int) (h : seconds % 60 = 0) : Instant where
  day := (t.seconds + seconds) / 86400
  second := ((t.seconds + seconds) % 86400).toNat
  nano := t.nano
  second_lt := by omega
  nano_lt := t.nano_lt
  leap := by
    intro hn
    have := t.leap hn
    simp only [Instant.seconds]
    omega

/-- The day of the calendar's first instant, 1 January of the year −262143. -/
def firstDay : Int := Calendar.daysBeforeYear (-262143)

/-- The day after the calendar's last one, 1 January of the year 262143. -/
def endDay : Int := Calendar.daysBeforeYear 262143

/-- Whether the calendar reaches the instant. -/
def isRepresentable (t : Instant) : Bool :=
  firstDay ≤ t.day && t.day < endDay

/-- The instant a number of nanoseconds later. A leap second counts as the second after it. -/
def later (t : Instant) (nanos : Int) : Instant :=
  let total := t.seconds * 1000000000 + t.nano + nanos
  ofSeconds (total / 1000000000) (total % 1000000000).toNat

end Instant

end Lorebook
