import Lorebook.Proofs.Timestamps
import Mathlib.Data.String.Basic

set_option autoImplicit false

/-! # The order of timestamps

The stored form of an instant has its parts from the year down, each of fixed width. So in years of
four digits the order of the texts is the order of the instants (`Rfc3339.stored_lt_stored_iff`). A
year below these has a sign, and the sign comes before all digits. -/

namespace Lorebook

/-! ## Dates in their order -/

namespace Calendar

theorem yearOf_le_yearOf {a b : Int} (h : a ≤ b) : yearOf a ≤ yearOf b := by
  obtain ⟨hfirst, _⟩ := yearOf_holds a
  obtain ⟨_, hlast⟩ := yearOf_holds b
  unfold daysBeforeYear at hfirst hlast
  omega

/-- A month ends before each later one begins. -/
theorem daysBeforeMonth_le : ∀ leap : Bool, ∀ month < 13, ∀ later < 13, 1 ≤ month → month < later →
    daysBeforeMonth leap month + daysInMonth leap month ≤ daysBeforeMonth leap later := by
  decide

/-- A later day of a year has a later month, or the same one. -/
theorem monthOf_le_monthOf {leap : Bool} {a b : Nat} (h : a ≤ b) (hb : b < daysInYear leap) :
    monthOf leap a 12 ≤ monthOf leap b 12 := by
  obtain ⟨⟨_, hmonth⟩, hbefore, _⟩ := monthOf_holds leap a (Nat.lt_of_le_of_lt h hb)
  obtain ⟨⟨hfirst, hlast⟩, _, hin⟩ := monthOf_holds leap b hb
  by_contra hlt
  have hends := daysBeforeMonth_le leap (monthOf leap b 12) (by omega) (monthOf leap a 12)
    (by omega) hfirst (by omega)
  omega

/-- A later day has the later date. -/
theorem dateOf_lt_dateOf {a b : Int} (h : a < b) :
    (dateOf a).year < (dateOf b).year ∨ (dateOf a).year = (dateOf b).year ∧
      ((dateOf a).month < (dateOf b).month ∨
        (dateOf a).month = (dateOf b).month ∧ (dateOf a).day < (dateOf b).day) := by
  unfold dateOf
  simp only
  rcases Int.lt_or_eq_of_le (yearOf_le_yearOf (Int.le_of_lt h)) with hyear | hyear
  · exact Or.inl hyear
  refine Or.inr ⟨hyear, ?_⟩
  obtain ⟨hfirst, _⟩ := yearOf_holds a
  obtain ⟨_, hlast⟩ := yearOf_holds b
  rw [daysBeforeYear_succ] at hlast
  rw [hyear] at hfirst ⊢
  -- The days of the year that both lie in.
  generalize hda : (a - daysBeforeYear (yearOf b)).toNat = da
  generalize hdb : (b - daysBeforeYear (yearOf b)).toNat = db
  have hlt : da < db := by omega
  have hin : db < daysInYear (isLeap (yearOf b)) := by omega
  rcases Nat.lt_or_eq_of_le (monthOf_le_monthOf (Nat.le_of_lt hlt) hin) with hmonth | hmonth
  · exact Or.inl hmonth
  · obtain ⟨_, hbefore, _⟩ := monthOf_holds _ da (Nat.lt_trans hlt hin)
    rw [hmonth] at hbefore ⊢
    exact Or.inr ⟨rfl, by omega⟩

end Calendar

/-! ## Instants in their order -/

namespace Instant

variable {t u : Instant}

theorem lt_iff : t < u ↔ t.day < u.day ∨ t.day = u.day ∧
    (t.second < u.second ∨ t.second = u.second ∧ t.nano < u.nano) := Iff.rfl

theorem lt_asymm (h : t < u) : ¬ u < t := by
  rw [lt_iff] at *
  omega

theorem lt_trichotomy (t u : Instant) : t < u ∨ t = u ∨ u < t := by
  by_cases hsame : t.day = u.day ∧ t.second = u.second ∧ t.nano = u.nano
  · exact Or.inr (Or.inl (ext' hsame.1 hsame.2.1 hsame.2.2))
  · rw [lt_iff, lt_iff]
    omega

end Instant

/-! ## Numbers of fixed width -/

namespace Rfc3339

/-- Of texts of the same length, what comes first decides. -/
theorem append_lt_append {as bs : List Char} (hlength : as.length = bs.length) (h : as < bs)
    (cs ds : List Char) : as ++ cs < bs ++ ds := by
  induction h with
  | nil => cases hlength
  | rel hlt => exact List.Lex.rel hlt
  | cons _ ih => exact List.Lex.cons (ih (Nat.succ.inj hlength))

theorem digit_lt_digit : ∀ m < 10, ∀ n < 10, m < n → digit m < digit n := by
  decide

theorem padded_lt_padded {width m n : Nat} (h : m < n) (hn : n < 10 ^ width) :
    padded width m < padded width n := by
  induction width generalizing m n with
  | zero => omega
  | succ width ih =>
    rw [Nat.pow_succ] at hn
    rw [padded, padded]
    rcases Nat.lt_or_eq_of_le (Nat.div_le_div_right (c := 10) (Nat.le_of_lt h)) with htens | htens
    · refine append_lt_append ?_ (ih htens (by omega)) _ _
      rw [length_padded, length_padded]
    · rw [htens]
      exact List.append_left_lt (List.Lex.rel
        (digit_lt_digit (m % 10) (by omega) (n % 10) (by omega) (by omega)))

/-! ## The parts of a timestamp -/

/-- The numbers of a stored timestamp, from the greatest part to the least. -/
def numbers (t : Instant) : List Nat :=
  let date := Calendar.dateOf t.day
  [date.year.toNat, date.month, date.day, t.second / 3600, t.second / 60 % 60,
    t.second % 60 + t.nano / 1000000000, t.nano % 1000000000]

/-- The widths of the numbers, and the mark after each. -/
def form : List (Nat × Char) :=
  [(4, '-'), (2, '-'), (2, 'T'), (2, ':'), (2, ':'), (2, '.'), (9, 'Z')]

/-- Numbers written in a form. -/
def fill : List (Nat × Char) → List Nat → List Char
  | (width, c) :: form, n :: ns => padded width n ++ c :: fill form ns
  | _, _ => []

/-- Each number fits the width of its part. -/
abbrev Fits (form : List (Nat × Char)) (ns : List Nat) : Prop :=
  List.Forall₂ (fun part n => n < 10 ^ part.1) form ns

/-- Numbers that fit a form are written in their order. -/
theorem fill_lt_fill {form : List (Nat × Char)} {ms ns : List Nat} (hms : Fits form ms)
    (hns : Fits form ns) (h : ms < ns) : fill form ms < fill form ns := by
  induction h generalizing form with
  | nil => cases hms; cases hns
  | @rel m ms n ns hlt =>
    cases hms with
    | cons hm _ =>
      cases hns with
      | cons hn _ =>
        refine append_lt_append ?_ (padded_lt_padded hlt hn) _ _
        rw [length_padded, length_padded]
  | @cons n ms ns _ ih =>
    cases hms with
    | cons _ hms =>
      cases hns with
      | cons _ hns => exact List.append_left_lt (List.Lex.cons (ih hms hns))

/-- A year before the years of four digits has a sign. -/
theorem write_of_lt {t : Instant} (h : t.day < Calendar.daysBeforeYear 0) (decimals : Nat) :
    ∃ cs, write t decimals = '-' :: cs := by
  have hyear : (Calendar.dateOf t.day).year < 0 := by
    obtain ⟨hfirst, _⟩ := Calendar.yearOf_holds t.day
    show Calendar.yearOf t.day < 0
    unfold Calendar.daysBeforeYear at *
    omega
  rw [write, yearChars, if_neg (by omega)]
  simp only [if_pos hyear, List.cons_append]
  exact ⟨_, rfl⟩

theorem write_eq_fill {t : Instant} (h : t.InEra) : write t 9 = fill form (numbers t) := by
  have hyear : 0 ≤ (Calendar.dateOf t.day).year ∧ (Calendar.dateOf t.day).year ≤ 9999 :=
    Calendar.yearOf_of_inEra h
  have hnine : ¬ (9 : Nat) = 0 := by decide
  have hone : tenPow (9 - 9) = 1 := rfl
  simp only [write, yearChars, if_pos hyear, if_neg hnine, hone, Nat.div_one, form, numbers, fill,
    List.append_assoc, List.cons_append]

/-- The sign of a year comes before all digits. -/
theorem not_fill_lt_sign {t : Instant} {cs : List Char} :
    ¬ fill form (numbers t) < '-' :: cs := by
  simp only [form, numbers, fill]
  generalize hyear : padded 4 (Calendar.dateOf t.day).year.toNat = year
  cases year with
  | nil => cases hyear
  | cons c rest =>
    have hdigit : c.isDigit = true :=
      isDigit_of_mem_padded (hyear ▸ List.mem_cons_self)
    rw [List.cons_append, List.cons_lt_cons_iff]
    rintro (hlt | ⟨rfl, _⟩)
    · rw [Char.isDigit, Bool.and_eq_true, decide_eq_true_eq] at hdigit
      have hzero : '0' ≤ c := hdigit.1
      exact absurd (lt_of_le_of_lt hzero hlt) (by decide)
    · cases hdigit

theorem fits_numbers {t : Instant} (h : t.InEra) : Fits form (numbers t) := by
  obtain ⟨_, hyear⟩ := Calendar.yearOf_of_inEra h
  have hyear' : (Calendar.dateOf t.day).year.toNat < 10 ^ 4 := by
    show (Calendar.yearOf t.day).toNat < 10 ^ 4
    omega
  obtain ⟨hmonth, hday⟩ := Calendar.dateOf_lt t.day
  have hsecond := t.second_lt
  have hnano := t.nano_lt
  refine .cons hyear' (.cons hmonth (.cons hday (.cons ?_ (.cons ?_ (.cons ?_ (.cons ?_ .nil))))))
  all_goals
    simp only
    omega

/-- A later instant has the greater numbers. -/
theorem numbers_lt_numbers {t u : Instant} (ht : t.InEra) (h : t < u) :
    numbers t < numbers u := by
  have hyear : 0 ≤ (Calendar.dateOf t.day).year := (Calendar.yearOf_of_inEra ht).1
  simp only [numbers, List.cons_lt_cons_iff]
  rcases Instant.lt_iff.1 h with hday | ⟨hday, htime⟩
  · have hdate := Calendar.dateOf_lt_dateOf hday
    omega
  · -- A leap second is at the end of its minute.
    have htleap := t.leap
    have huleap := u.leap
    have htnano := t.nano_lt
    have hunano := u.nano_lt
    rw [hday]
    simp only [Nat.lt_irrefl, true_and, false_or]
    omega

/-- In years of four digits, the stored forms are in the order of the instants; an instant before
these years comes before all of them. -/
theorem stored_lt_stored_iff {t u : Instant} (ht : t.InEra)
    (hu : u.day < Calendar.daysBeforeYear 10000) : stored t < stored u ↔ t < u := by
  rw [String.lt_iff_toList_lt, stored, stored, String.toList_ofList, String.toList_ofList]
  by_cases hstart : Calendar.daysBeforeYear 0 ≤ u.day
  · have hera : u.InEra := ⟨hstart, hu⟩
    have hmono {a b : Instant} (ha : a.InEra) (hb : b.InEra) (hab : a < b) :
        write a 9 < write b 9 := by
      rw [write_eq_fill ha, write_eq_fill hb]
      exact fill_lt_fill (fits_numbers ha) (fits_numbers hb) (numbers_lt_numbers ha hab)
    refine ⟨fun h => ?_, hmono ht hera⟩
    rcases t.lt_trichotomy u with hlt | rfl | hgt
    · exact hlt
    · exact absurd h (List.lt_irrefl _)
    · exact absurd h (lt_asymm (hmono hera ht hgt))
  · have hday : u.day < t.day := by
      have := ht.1
      omega
    have hbelow : ¬ t < u := Instant.lt_asymm (Or.inl hday)
    obtain ⟨cs, hcs⟩ := write_of_lt (Int.not_le.1 hstart) 9
    refine iff_of_false (fun h => ?_) hbelow
    rw [hcs, write_eq_fill ht] at h
    exact not_fill_lt_sign h

end Rfc3339

end Lorebook
