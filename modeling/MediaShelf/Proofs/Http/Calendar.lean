import Mathlib
import MediaShelf.Http.Gregorian

/-!
# The Gregorian calendar

The calendar is given by its rule for leap years and the lengths of the months, and the number of a
day counts the days from the first of January of the year 0 to it, year by year and month by month
(`dayNumber`). The day that is computed from a number of days, forwards or backwards from 1970, is
one that the calendar has, and it has that number (`isDay_stampOf`).
-/

namespace MediaShelf.Http

/-! ## Years and months -/

/-- Every fourth year is a leap year, but of those that end a century only every fourth. -/
def IsLeap (year : Int) : Prop := 4 ∣ year ∧ (100 ∣ year → 400 ∣ year)

instance (year : Int) : Decidable (IsLeap year) := inferInstanceAs (Decidable (_ ∧ _))

/-- The lengths of the months of a year, from January on. -/
def monthLengths (year : Int) : List Nat :=
  [31, if IsLeap year then 29 else 28, 31, 30, 31, 30, 31, 31, 30, 31, 30, 31]

/-- The days of a year. -/
def yearLength (year : Int) : Nat := (monthLengths year).sum

/-- The days from the start of the year 0 to the start of a year; to a year before it they are
counted back. -/
def daysUntil : Int → Int
  | .ofNat years => ((List.range years).map fun n : Nat => yearLength n).sum
  | .negSucc years => -((List.range (years + 1)).map fun n : Nat => yearLength (-1 - n)).sum

/-- The days from the first of January of the year 0 to a day. -/
def dayNumber (year : Int) (month day : Nat) : Int :=
  daysUntil year + (((monthLengths year).take (month - 1)).sum + (day - 1) : Nat)

/-- A day that the calendar has. -/
structure IsDay (year : Int) (month day : Nat) : Prop where
  month_pos : 1 ≤ month
  month_le : month ≤ 12
  day_pos : 1 ≤ day
  day_le : day ≤ (monthLengths year).getD (month - 1) 0

variable {year : Int}

theorem isLeapYear_iff : isLeapYear year = true ↔ IsLeap year := by
  simp only [isLeapYear, IsLeap, Bool.and_eq_true, Bool.or_eq_true, decide_eq_true_eq]
  omega

theorem monthLengths_eq (year : Int) :
    monthLengths year = (List.range' 1 12).map (monthLength year) := by
  have hmonths : List.range' 1 12 = [1, 2, 3, 4, 5, 6, 7, 8, 9, 10, 11, 12] := rfl
  simp [monthLengths, monthLength, isLeapYear_iff, hmonths]

theorem IsDay.day_le_31 {month day : Nat} (h : IsDay year month day) : day ≤ 31 := by
  have hmonth : month - 1 < (monthLengths year).length :=
    Nat.lt_of_lt_of_le (Nat.sub_one_lt_of_le h.month_pos le_rfl) h.month_le
  have hlengths : ∀ length ∈ monthLengths year, length ≤ 31 := by
    unfold monthLengths
    split <;> decide
  have hle := h.day_le
  rw [List.getD_eq_getElem _ _ hmonth] at hle
  exact hle.trans (hlengths _ (List.getElem_mem hmonth))

theorem yearLength_eq (year : Int) : yearLength year = if IsLeap year then 366 else 365 := by
  unfold yearLength monthLengths
  split <;> rfl

/-! ## The year of a day -/

theorem daysBeforeYear_succ (year : Int) :
    daysBeforeYear (year + 1) = daysBeforeYear year + yearLength year := by
  have hleap : IsLeap year ↔ year % 4 = 0 ∧ (year % 100 = 0 → year % 400 = 0) := by
    simp only [IsLeap, Int.dvd_iff_emod_eq_zero]
  rw [yearLength_eq]
  simp only [daysBeforeYear, hleap]
  split <;> omega

/-- The leap years before a year are counted by three divisions. -/
theorem daysBeforeYear_eq (year : Int) : daysBeforeYear year = daysUntil year := by
  cases year with
  | ofNat years =>
    induction years with
    | zero => rfl
    | succ years ih =>
      rw [Int.ofNat_eq_natCast] at ih ⊢
      rw [Int.natCast_succ, daysBeforeYear_succ, ih, ← Int.natCast_succ]
      simp [daysUntil, List.range_succ]
  | negSucc years =>
    induction years with
    | zero => rfl
    | succ years ih =>
      -- a step back takes away the year that is stepped over
      have hback := daysBeforeYear_succ (Int.negSucc (years + 1))
      have hnext : Int.negSucc (years + 1) + 1 = Int.negSucc years := rfl
      have hyear : Int.negSucc (years + 1) = -1 - (years + 1 : Nat) := by omega
      have hsum : daysUntil (Int.negSucc (years + 1)) =
          daysUntil (Int.negSucc years) - yearLength (Int.negSucc (years + 1)) := by
        rw [daysUntil, daysUntil, List.range_succ, List.map_append, List.sum_append, hyear,
          List.map_singleton, List.sum_singleton]
        push_cast
        ring
      rw [hnext, ih] at hback
      omega

/-- The guess from the mean length of a year is off by one at most. -/
theorem yearOfDay_bounds (day : Int) :
    daysBeforeYear (yearOfDay day) ≤ day ∧ day < daysBeforeYear (yearOfDay day + 1) := by
  unfold yearOfDay
  dsimp only
  split
  · rw [Int.sub_add_cancel]
    unfold daysBeforeYear at *
    omega
  · split <;> unfold daysBeforeYear at * <;> omega

theorem le_yearOfDay_iff {day : Int} : year ≤ yearOfDay day ↔ daysBeforeYear year ≤ day := by
  obtain ⟨hfrom, huntil⟩ := yearOfDay_bounds day
  unfold daysBeforeYear at *
  omega

/-- A day lies between the start of its year and that of the next. -/
theorem IsDay.dayNumber_bounds {month day : Nat} (h : IsDay year month day) :
    daysBeforeYear year ≤ dayNumber year month day ∧
      dayNumber year month day < daysBeforeYear (year + 1) := by
  have hmonth : month - 1 < (monthLengths year).length :=
    Nat.lt_of_lt_of_le (Nat.sub_one_lt_of_le h.month_pos le_rfl) h.month_le
  have hpos := h.day_pos
  have hle := h.day_le
  rw [List.getD_eq_getElem _ _ hmonth] at hle
  have hsum := List.sum_take_add_sum_drop (monthLengths year) (month - 1)
  rw [List.drop_eq_getElem_cons hmonth, List.sum_cons] at hsum
  rw [daysBeforeYear_succ, daysBeforeYear_eq, dayNumber, yearLength]
  omega

theorem IsDay.le_year_iff {year' : Int} {month day : Nat} (h : IsDay year' month day) (year : Int) :
    year ≤ year' ↔ daysBeforeYear year ≤ dayNumber year' month day := by
  obtain ⟨hfrom, huntil⟩ := h.dayNumber_bounds
  unfold daysBeforeYear at *
  omega

/-- Days of a later month come later in the year. -/
theorem IsDay.lt_of_month_lt {month day month' : Nat} (h : IsDay year month day)
    (hlt : month < month') (day' : Nat) :
    dayNumber year month day < dayNumber year month' day' := by
  have hmonth : month - 1 < (monthLengths year).length :=
    Nat.lt_of_lt_of_le (Nat.sub_one_lt_of_le h.month_pos le_rfl) h.month_le
  have hpos := h.day_pos
  have hle := h.day_le
  rw [List.getD_eq_getElem _ _ hmonth] at hle
  have hsucc := List.sum_take_succ (monthLengths year) (month - 1) hmonth
  have hmono : ((monthLengths year).take (month - 1 + 1)).sum ≤
      ((monthLengths year).take (month' - 1)).sum :=
    (monthLengths year).monotone_sum_take (by have := h.month_pos; omega)
  rw [dayNumber, dayNumber]
  omega

/-- A day is told by its number. -/
theorem IsDay.eq_of_dayNumber_eq {year' : Int} {month day month' day' : Nat}
    (h : IsDay year month day) (h' : IsDay year' month' day')
    (heq : dayNumber year month day = dayNumber year' month' day') :
    year = year' ∧ month = month' ∧ day = day' := by
  obtain rfl : year = year' := by
    have hle := h'.le_year_iff year
    have hge := h.le_year_iff year'
    have hfrom := h.dayNumber_bounds.1
    have hfrom' := h'.dayNumber_bounds.1
    omega
  obtain rfl : month = month' := by
    rcases Nat.lt_trichotomy month month' with hlt | rfl | hlt
    · exact absurd heq (h.lt_of_month_lt hlt day').ne
    · rfl
    · exact absurd heq (h'.lt_of_month_lt hlt day).ne'
  have hpos := h.day_pos
  have hpos' := h'.day_pos
  rw [dayNumber, dayNumber] at heq
  exact ⟨rfl, rfl, by omega⟩

theorem dayNumber_newYear (year : Int) : dayNumber year 1 1 = daysBeforeYear year := by
  rw [daysBeforeYear_eq, dayNumber, List.take_zero, List.sum_nil]
  exact Int.add_zero _

/-! ## The month of a day -/

/-- The month that is found is the first one that the days do not fill. -/
theorem exists_monthFrom {year : Int} {count month day : Nat}
    (h : day < ((List.range' month (count + 1)).map (monthLength year)).sum) :
    ∃ before rest, monthFrom year count month day = (month + before, rest) ∧ before ≤ count ∧
      rest < monthLength year (month + before) ∧
      day = ((List.range' month before).map (monthLength year)).sum + rest := by
  induction count generalizing month day with
  | zero => exact ⟨0, day, rfl, le_rfl, by simpa using h, by simp⟩
  | succ count ih =>
    rw [monthFrom]
    split
    case isTrue hday => exact ⟨0, day, rfl, Nat.zero_le _, hday, by simp⟩
    case isFalse hday =>
      rw [List.range'_succ, List.map_cons, List.sum_cons] at h
      have hlater : day - monthLength year month <
          ((List.range' (month + 1) (count + 1)).map (monthLength year)).sum := by omega
      obtain ⟨before, rest, hfound, hle, hrest, hsum⟩ := ih hlater
      refine ⟨before + 1, rest, ?_, by omega, ?_, ?_⟩
      · rw [hfound, Nat.add_assoc, Nat.add_comm 1 before]
      · rwa [Nat.add_comm before 1, ← Nat.add_assoc]
      · rw [List.range'_succ, List.map_cons, List.sum_cons]
        omega

/-! ## The day -/

/-- The day that lies so many days after the first of January 1970, or before it, is one that the
calendar has, and its number says so. -/
theorem isDay_stampOf (days : Int) (second : Nat) :
    IsDay (stampOf days second).year (stampOf days second).month (stampOf days second).day ∧
      dayNumber (stampOf days second).year (stampOf days second).month (stampOf days second).day =
        days + epochDays := by
  obtain ⟨hfrom, huntil⟩ := yearOfDay_bounds (days + epochDays)
  generalize hyear : yearOfDay (days + epochDays) = year at hfrom huntil
  rw [daysBeforeYear_succ, yearLength, monthLengths_eq] at huntil
  have hday : (days + epochDays - daysBeforeYear year).toNat <
      ((List.range' 1 12).map (monthLength year)).sum := by omega
  obtain ⟨before, rest, hfound, hle, hrest, hsum⟩ := exists_monthFrom hday
  have htake : (monthLengths year).take before =
      (List.range' 1 before).map (monthLength year) := by
    rw [monthLengths_eq, ← List.map_take, List.take_range'_of_length_ge (by omega)]
  have hget : (monthLengths year).getD before 0 = monthLength year (1 + before) := by
    rw [monthLengths_eq, List.getD_eq_getElem _ _ (by simp; omega)]
    simp
  simp only [stampOf, hyear, hfound]
  refine ⟨⟨by omega, by omega, by omega, ?_⟩, ?_⟩
  · rw [Nat.add_sub_cancel_left, hget]
    exact hrest
  · simp only [dayNumber, Nat.add_sub_cancel, Nat.add_sub_cancel_left, htake, ← daysBeforeYear_eq]
    omega

end MediaShelf.Http
