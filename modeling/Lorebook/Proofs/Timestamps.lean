import Lorebook.Time.Rfc3339
import Mathlib.Algebra.Group.Nat.Defs
import Mathlib.Data.List.TakeWhile

set_option autoImplicit false

/-! # Timestamps read back

The date of a day is a date of the calendar, and its day is that day (`Calendar.dayOf?_dateOf`). The
stored form of an instant has fixed width, so each part reads back by its width alone: in years of
four digits, a stored timestamp is read as the instant that was written
(`Rfc3339.parse?_stored`). -/

namespace Lorebook

/-! ## The calendar -/

namespace Calendar

/-- The number of days in a year. -/
def daysInYear (leap : Bool) : Nat :=
  if leap then 366 else 365

theorem daysBeforeYear_succ (year : Int) :
    daysBeforeYear (year + 1) = daysBeforeYear year + daysInYear (isLeap year) := by
  have hleap : isLeap year = true ↔ year % 4 = 0 ∧ (year % 100 ≠ 0 ∨ year % 400 = 0) := by
    simp [isLeap]
  unfold daysBeforeYear daysInYear
  by_cases h : isLeap year = true
  · rw [if_pos h]
    have hyear := hleap.1 h
    omega
  · rw [if_neg h]
    have hyear := mt hleap.2 h
    omega

/-- The year of a day holds it. -/
theorem yearOf_holds (day : Int) :
    daysBeforeYear (yearOf day) ≤ day ∧ day < daysBeforeYear (yearOf day + 1) := by
  -- The estimate is off by at most one year.
  have hnear : daysBeforeYear (day * 400 / 146097 + 1 - 1) ≤ day ∧
      day < daysBeforeYear (day * 400 / 146097 + 1 + 1 + 1) := by
    unfold daysBeforeYear
    omega
  unfold yearOf
  simp only
  split
  · rename_i h
    exact ⟨hnear.1, by rwa [Int.sub_add_cancel]⟩
  · rename_i h
    split
    · rename_i h'
      exact ⟨h', hnear.2⟩
    · rename_i h'
      exact ⟨by omega, by omega⟩

/-- The month of a day of a year holds it. -/
theorem monthOf_holds : ∀ leap : Bool, ∀ day < daysInYear leap,
    (1 ≤ monthOf leap day 12 ∧ monthOf leap day 12 ≤ 12) ∧
      daysBeforeMonth leap (monthOf leap day 12) ≤ day ∧
      day < daysBeforeMonth leap (monthOf leap day 12) +
        daysInMonth leap (monthOf leap day 12) := by
  decide +kernel

/-- The date of a day is one of the calendar, and it is the date of that day. -/
theorem dayOf?_dateOf (day : Int) : dayOf? (dateOf day) = some day := by
  obtain ⟨hfirst, hlast⟩ := yearOf_holds day
  rw [daysBeforeYear_succ] at hlast
  obtain ⟨hmonth, hbefore, hin⟩ := monthOf_holds (isLeap (yearOf day))
    (day - daysBeforeYear (yearOf day)).toNat (by omega)
  unfold dayOf? dateOf
  simp only
  rw [if_pos ⟨hmonth.1, hmonth.2, by omega, by omega⟩, Option.some.injEq]
  omega

theorem dateOf_lt (day : Int) : (dateOf day).month < 100 ∧ (dateOf day).day < 100 := by
  have hdays : ∀ leap : Bool, ∀ month ≤ 12, daysInMonth leap month < 100 := by decide
  obtain ⟨hfirst, hlast⟩ := yearOf_holds day
  rw [daysBeforeYear_succ] at hlast
  obtain ⟨hmonth, hbefore, hin⟩ := monthOf_holds (isLeap (yearOf day))
    (day - daysBeforeYear (yearOf day)).toNat (by omega)
  have hlt := hdays (isLeap (yearOf day)) _ hmonth.2
  unfold dateOf
  simp only
  omega

end Calendar

/-! ## Years of four digits -/

/-- The instant lies in a year of four digits. -/
def Instant.InEra (t : Instant) : Prop :=
  Calendar.daysBeforeYear 0 ≤ t.day ∧ t.day < Calendar.daysBeforeYear 10000

instance (t : Instant) : Decidable t.InEra := by
  unfold Instant.InEra
  exact inferInstance

theorem Instant.shift_zero (t : Instant) {h : (-0 * 60 : Int) % 60 = 0} :
    t.shift (-0 * 60) h = t := by
  have hsecond := t.second_lt
  refine ext' ?_ ?_ rfl
  · show (t.day * 86400 + t.second + -0 * 60) / 86400 = t.day
    omega
  · show ((t.day * 86400 + t.second + -0 * 60) % 86400).toNat = t.second
    omega

theorem Instant.day_le_later (t : Instant) (n : Nat) : t.day ≤ (t.later n).day := by
  unfold later ofSeconds seconds
  simp only
  omega

theorem Calendar.yearOf_of_inEra {t : Instant} (h : t.InEra) :
    0 ≤ yearOf t.day ∧ yearOf t.day ≤ 9999 := by
  obtain ⟨hfirst, hlast⟩ := yearOf_holds t.day
  obtain ⟨hstart, hend⟩ := h
  unfold daysBeforeYear at hfirst hlast hstart hend
  omega

theorem Calendar.inEra_of_yearOf {t : Instant} (hstart : 0 ≤ yearOf t.day)
    (hend : yearOf t.day ≤ 9999) : t.InEra := by
  obtain ⟨hfirst, hlast⟩ := yearOf_holds t.day
  unfold Instant.InEra
  unfold daysBeforeYear at *
  omega

namespace Rfc3339

/-! ## Numbers of fixed width -/

theorem length_padded (width n : Nat) : (padded width n).length = width := by
  induction width generalizing n with
  | zero => rfl
  | succ width ih => rw [padded, List.length_append, ih, List.length_singleton]

theorem isDigit_digit : ∀ n < 10, (digit n).isDigit = true ∧ (digit n).toNat - 48 = n := by
  decide

theorem isDigit_of_mem_padded {width n : Nat} {c : Char} (hc : c ∈ padded width n) :
    c.isDigit = true := by
  induction width generalizing n with
  | zero => cases hc
  | succ width ih =>
    rcases List.mem_append.1 hc with hc | hc
    · exact ih hc
    · rw [List.mem_singleton.1 hc]
      exact (isDigit_digit (n % 10) (Nat.mod_lt _ (by omega))).1

theorem value_concat (ds : List Char) (d : Char) :
    value (ds ++ [d]) = value ds * 10 + (d.toNat - 48) := by
  unfold value
  rw [List.foldl_append]
  rfl

theorem value_padded {width n : Nat} (h : n < 10 ^ width) : value (padded width n) = n := by
  induction width generalizing n with
  | zero =>
    have hzero : n = 0 := by simpa using h
    rw [hzero]
    rfl
  | succ width ih =>
    rw [Nat.pow_succ] at h
    rw [padded, value_concat, ih (by omega),
      (isDigit_digit (n % 10) (Nat.mod_lt _ (by omega))).2]
    omega

/-- The digits of a padded number are taken off the front by their width. -/
theorem takeWhile_padded (width n : Nat) (rest : List Char) :
    ((padded width n ++ rest).take width).takeWhile Char.isDigit = padded width n := by
  have htake : (padded width n ++ rest).take width = padded width n :=
    List.take_left' (length_padded width n)
  rw [htake]
  exact List.takeWhile_eq_self_iff.2 fun c hc => isDigit_of_mem_padded hc

theorem drop_padded (width n : Nat) (rest : List Char) :
    (padded width n ++ rest).drop width = rest :=
  List.drop_left' (length_padded width n)

/-- A padded number is read by its width. -/
theorem number_padded {width n : Nat} (h : n < 10 ^ width) (rest : List Char) :
    number width width (padded width n ++ rest) = some (n, rest) := by
  unfold number
  simp only [takeWhile_padded, length_padded, Nat.lt_irrefl, if_false, value_padded h, drop_padded]

theorem mark_self (c : Char) (rest : List Char) : mark c (c :: rest) = some ((), rest) := by
  simp [mark]

theorem dateTimeMark_self (rest : List Char) : dateTimeMark ('T' :: rest) = some ((), rest) := rfl

theorem offset_self (separator : List Char → Option (List Char)) :
    offset separator ['Z'] = some (0, []) := rfl

theorem fraction_padded {n : Nat} (h : n < 10 ^ 9) :
    fraction ('.' :: (padded 9 n ++ ['Z'])) = some (n, ['Z']) := by
  unfold fraction
  have hne : (padded 9 n).isEmpty = false := rfl
  simp only [takeWhile_padded, length_padded, hne, Bool.false_eq_true, if_false, value_padded h,
    drop_padded]
  rw [show tenPow (9 - 9) = 1 from rfl, Nat.mul_one]
  rfl

end Rfc3339

/-! ## Instants -/

namespace Rfc3339

/-- The parts of an instant are put together again. -/
theorem assemble?_of_instant {t : Instant} (h : t.InEra) :
    assemble? (Calendar.dateOf t.day) (t.second / 3600) (t.second / 60 % 60)
      (t.second % 60 + t.nano / 1000000000) (t.nano % 1000000000) 0 = some t := by
  have hsecond := t.second_lt
  have hnano := t.nano_lt
  have hleap := t.leap
  have hreach : Instant.firstDay ≤ t.day ∧ t.day < Instant.endDay := by
    obtain ⟨hstart, hend⟩ := h
    unfold Instant.firstDay Instant.endDay
    unfold Calendar.daysBeforeYear at *
    omega
  have hfits : t.second / 3600 < 24 ∧ t.second / 60 % 60 < 60 ∧
      t.second % 60 + t.nano / 1000000000 ≤ 60 ∧ t.nano % 1000000000 < 1000000000 := by
    refine ⟨by omega, by omega, ?_, by omega⟩
    by_cases hn : 1000000000 ≤ t.nano
    · have := hleap hn
      omega
    · omega
  have hreading : t.second / 3600 * 3600 + t.second / 60 % 60 * 60 +
      min (t.second % 60 + t.nano / 1000000000) 59 = t.second := by
    by_cases hn : 1000000000 ≤ t.nano
    · have := hleap hn
      omega
    · omega
  have hfraction : (if t.second % 60 + t.nano / 1000000000 = 60 then
      t.nano % 1000000000 + 1000000000 else t.nano % 1000000000) = t.nano := by
    split <;> omega
  unfold assemble?
  rw [Calendar.dayOf?_dateOf]
  simp only [Option.bind_eq_bind, Option.bind_some, dif_pos hfits, hreading, hfraction]
  have hshift : t.shift (-0 * 60) (by omega) = t := t.shift_zero
  have hrepresentable : t.isRepresentable = true := by
    simp [Instant.isRepresentable, hreach]
  show (if (true && t.isRepresentable && (t.shift (-0 * 60) _).isRepresentable) = true then
    some (t.shift (-0 * 60) _) else none) = some t
  rw [hshift, hrepresentable]
  rfl

/-- In years of four digits, what is stored of an instant reads back as the instant. -/
theorem parse?_stored {t : Instant} (h : t.InEra) : parse? (stored t) = some t := by
  obtain ⟨hstart, hend⟩ := Calendar.yearOf_of_inEra h
  obtain ⟨hmonth, hday⟩ := Calendar.dateOf_lt t.day
  have hsecond := t.second_lt
  have hnano := t.nano_lt
  have hchars : yearChars (Calendar.dateOf t.day).year =
      padded 4 (Calendar.dateOf t.day).year.toNat := if_pos ⟨hstart, hend⟩
  have hfraction : tenPow (9 - 9) = 1 := rfl
  have hnine : ¬ (9 : Nat) = 0 := by decide
  have hbelow : t.nano % 1000000000 < 10 ^ 9 := Nat.mod_lt _ (by decide)
  have hyear : ((Calendar.dateOf t.day).year.toNat : Int) = (Calendar.dateOf t.day).year :=
    Int.toNat_of_nonneg hstart
  unfold parse? stored
  rw [String.toList_ofList, write, hchars]
  simp only [hfraction, Nat.div_one, List.append_assoc, List.cons_append, if_neg hnine,
    Option.bind_eq_bind]
  -- Each part is read by its width, and then the mark after it.
  rw [number_padded (by show (Calendar.yearOf t.day).toNat < 10 ^ 4; omega), Option.bind_some,
    mark_self, Option.bind_some, number_padded hmonth, Option.bind_some, mark_self,
    Option.bind_some, number_padded hday, Option.bind_some, dateTimeMark_self, Option.bind_some,
    number_padded (by omega), Option.bind_some, mark_self, Option.bind_some,
    number_padded (by omega), Option.bind_some, mark_self, Option.bind_some,
    number_padded (by omega), Option.bind_some, fraction_padded hbelow,
    Option.bind_some, offset_self, Option.bind_some, hyear]
  exact assemble?_of_instant h

/-- The year of an instant outside the years of four digits starts with a sign, which no strict
timestamp has. -/
theorem inEra_of_parse?_stored {t u : Instant} (h : parse? (stored t) = some u) : t.InEra := by
  by_cases hyear : 0 ≤ (Calendar.dateOf t.day).year ∧ (Calendar.dateOf t.day).year ≤ 9999
  · exact Calendar.inEra_of_yearOf hyear.1 hyear.2
  · have hsign (c : Char) (hc : c.isDigit = false) (rest : List Char) :
        number 4 4 (c :: rest) = none := by
      simp [number, hc]
    unfold parse? stored at h
    rw [String.toList_ofList, write, yearChars, if_neg hyear] at h
    simp only [List.cons_append, Option.bind_eq_bind] at h
    rw [hsign _ (by split <;> rfl)] at h
    cases h

end Rfc3339

end Lorebook
