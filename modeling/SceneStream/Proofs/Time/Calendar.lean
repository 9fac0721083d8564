import Mathlib.Tactic.IntervalCases
import SceneStream.Time.Calendar

/-!
# From days to dates and back

An era is four centuries, the last of them one day longer than the others; a century is twenty-five
cycles of four years, the last of them a day shorter except at the end of an era; and the last year of
a whole cycle has the day that leap years add. A day of an era is placed by these parts, and the year
that the calendar computes for it is read off the place.
-/

namespace SceneStream.Date

/-- The year of an era that a day of it falls in. -/
def yearOfEra (day : Nat) : Nat := (day - day / 1460 + day / 36524 - day / 146096) / 365

/-- The days of an era before one of its years. -/
def daysBefore (year : Nat) : Nat := 365 * year + year / 4 - year / 100

/-- The month of a year that starts in March, counted from 0, that a day of the year falls in. -/
def monthOfYear (day : Nat) : Nat := (5 * day + 2) / 153

/-- The days of a year that starts in March before one of its months. -/
def daysBeforeMonth (month : Nat) : Nat := (153 * month + 2) / 5

/-- Where a day of an era stands: the centuries, cycles of four years and years before it, and the day
of the year. -/
structure Stands (day century cycle year rest : Nat) : Prop where
  sum : day = 36524 * century + 1461 * cycle + 365 * year + rest
  century_le : century ≤ 3
  cycle_le : cycle ≤ 24
  year_le : year ≤ 3
  rest_le : rest < 365 ∨ rest = 365 ∧ year = 3
  /-- Only the last century of an era has the day that its last year adds. -/
  whole : century < 3 → 1461 * cycle + 365 * year + rest < 36524

theorem exists_stands {day : Nat} (inside : day < 146097) :
    ∃ century cycle year rest, Stands day century cycle year rest := by
  obtain ⟨century, hc⟩ : ∃ c, c = (day - day / 146096) / 36524 := ⟨_, rfl⟩
  obtain ⟨r, hr⟩ : ∃ r, day = 36524 * century + r := ⟨day - 36524 * century, by omega⟩
  obtain ⟨s, hs⟩ : ∃ s, r = 1461 * (r / 1461) + s := ⟨r % 1461, by omega⟩
  obtain ⟨year, hy⟩ : ∃ y, y = (s - s / 1460) / 365 := ⟨_, rfl⟩
  exact ⟨century, r / 1461, year, s - 365 * year, by omega, by omega, by omega, by omega, by omega,
    by omega⟩

section

variable {day century cycle year rest : Nat}

theorem Stands.yearOfEra_eq (h : Stands day century cycle year rest) :
    yearOfEra day = 100 * century + 4 * cycle + year := by
  obtain ⟨sum, century_le, cycle_le, year_le, rest_le, whole⟩ := h
  -- In the later centuries a day is divided by 1460 as if it were up to 96 days later; this matters
  -- at the end of a cycle only, and not to the year.
  have cycles : day / 1460 = 25 * century + cycle ∨
      day / 1460 = 25 * century + cycle + 1 ∧ year = 3 ∧ 269 ≤ rest := by omega
  have centuries : day / 36524 = century + day / 146096 := by omega
  unfold yearOfEra
  omega

theorem Stands.daysBefore_eq (h : Stands day century cycle year rest) :
    daysBefore (yearOfEra day) + rest = day := by
  obtain ⟨sum, century_le, cycle_le, year_le, rest_le, whole⟩ := id h
  rw [h.yearOfEra_eq]
  unfold daysBefore
  omega

/-- Only leap years have a day of number 365. -/
theorem Stands.isLeapYear (h : Stands day century cycle year 365) (era : Int) :
    isLeapYear (era * 400 + yearOfEra day + 1) = true := by
  obtain ⟨sum, century_le, cycle_le, year_le, rest_le, whole⟩ := id h
  rw [h.yearOfEra_eq]
  simp only [Date.isLeapYear, decide_eq_true_eq]
  omega

end

/-! ## Months -/

/-- The month of the calendar that a day of a year that starts in March falls in. -/
def calendarMonth (day : Nat) : Nat :=
  if monthOfYear day < 10 then monthOfYear day + 3 else monthOfYear day - 9

theorem monthOfYear_lt {day : Nat} (inside : day ≤ 365) : monthOfYear day < 12 := by
  unfold monthOfYear
  omega

theorem calendarMonth_inside {day : Nat} (inside : day ≤ 365) :
    1 ≤ calendarMonth day ∧ calendarMonth day ≤ 12 := by
  have := monthOfYear_lt inside
  unfold calendarMonth
  split <;> omega

theorem daysBeforeMonth_le (day : Nat) : daysBeforeMonth (monthOfYear day) ≤ day := by
  unfold daysBeforeMonth monthOfYear
  omega

/-- Every day falls in its month; only the last day of a leap year needs the year for it. -/
theorem le_daysInMonth {day : Nat} (inside : day ≤ 365) {year : Int}
    (leap : day = 365 → isLeapYear year = true) :
    day - daysBeforeMonth (monthOfYear day) + 1 ≤ daysInMonth year (calendarMonth day) := by
  have month := monthOfYear_lt inside
  obtain ⟨m, hm⟩ : ∃ m, m = monthOfYear day := ⟨_, rfl⟩
  have day_lt : 5 * day + 2 < 153 * (m + 1) := by
    rw [hm]
    unfold monthOfYear
    omega
  rw [calendarMonth, ← hm]
  rw [← hm] at month
  unfold daysBeforeMonth
  rcases Nat.lt_or_ge m 11 with other | february
  · interval_cases m <;> simp [daysInMonth] <;> omega
  · obtain rfl : m = 11 := by omega
    have within : daysInMonth year 2 = if isLeapYear year then 29 else 28 := rfl
    have ends : (if 11 < 10 then 11 + 3 else 11 - 9) = 2 := rfl
    rw [ends, within]
    by_cases last : day = 365
    · rw [if_pos (leap last)]
      omega
    · split <;> omega

/-! ## Dates -/

theorem isValid_iff {d : Date} : d.isValid = true ↔
    (1 ≤ d.month ∧ d.month ≤ 12) ∧ 1 ≤ d.day ∧ d.day ≤ daysInMonth d.year d.month := by
  simp [isValid, and_assoc]

theorem daysInMonth_le (year : Int) (month : Nat) : daysInMonth year month ≤ 31 := by
  unfold daysInMonth
  split <;> first | omega | (split <;> omega)

/-- The days from the start of year 0 to that of another year, both in March. -/
def yearStart (year : Int) : Int := 365 * year + year / 4 - year / 100 + year / 400

theorem yearStart_add_le {year later : Int} (before : year < later) :
    yearStart year + 365 ≤ yearStart later := by
  unfold yearStart
  omega

/-- A year starts 306 days after the March before it. -/
theorem toDays_newYear (year : Int) :
    toDays ⟨year, 1, 1⟩ = yearStart (year - 1) + 306 - epochShift := by
  have january : 1 ≤ 2 := by decide
  simp only [toDays, yearStart, january, if_true]
  omega

section

variable (days : Int)

/-- The day of its era that a day is. -/
def dayOfEra : Nat := ((days + epochShift) % 146097).toNat

/-- The day of a year that starts in March that a day is. -/
def dayOfYear : Nat := dayOfEra days - daysBefore (yearOfEra (dayOfEra days))

/-- The year, as it starts in March, that a day falls in. -/
def marchYear : Int := (days + epochShift) / 146097 * 400 + yearOfEra (dayOfEra days)

theorem ofDays_eq : ofDays days =
    { year := if monthOfYear (dayOfYear days) < 10 then marchYear days else marchYear days + 1
      month := calendarMonth (dayOfYear days)
      day := dayOfYear days - daysBeforeMonth (monthOfYear (dayOfYear days)) + 1 } := by
  unfold ofDays dayOfYear marchYear calendarMonth monthOfYear daysBeforeMonth daysBefore yearOfEra
    dayOfEra
  rfl

theorem exists_stands_dayOfYear :
    ∃ century cycle year, Stands (dayOfEra days) century cycle year (dayOfYear days) := by
  have inside : dayOfEra days < 146097 := by
    unfold dayOfEra
    omega
  obtain ⟨century, cycle, year, rest, stands⟩ := exists_stands inside
  have same : dayOfYear days = rest := by
    have := stands.daysBefore_eq
    unfold dayOfYear
    omega
  rw [same]
  exact ⟨century, cycle, year, stands⟩

theorem dayOfYear_le : dayOfYear days ≤ 365 := by
  obtain ⟨century, cycle, year, stands⟩ := exists_stands_dayOfYear days
  have := stands.rest_le
  omega

/-- The calendar has every date that it gives to a number of days. -/
theorem isValid_ofDays : (ofDays days).isValid = true := by
  obtain ⟨century, cycle, year, stands⟩ := exists_stands_dayOfYear days
  have inside := dayOfYear_le days
  rw [ofDays_eq, isValid_iff]
  refine ⟨calendarMonth_inside inside, Nat.succ_pos _, le_daysInMonth inside ?_⟩
  intro last
  have late : ¬ monthOfYear (dayOfYear days) < 10 := by
    rw [last]
    decide
  rw [last] at stands
  simp only [late, if_false]
  exact stands.isLeapYear _

/-- The days before a date, reckoned from the start of its year in March. -/
theorem toDays_ofDays_eq : (ofDays days).toDays =
    yearStart (marchYear days) + dayOfYear days - epochShift := by
  have month := monthOfYear_lt (dayOfYear_le days)
  have before := daysBeforeMonth_le (dayOfYear days)
  rw [ofDays_eq]
  unfold toDays calendarMonth yearStart
  unfold daysBeforeMonth at before ⊢
  by_cases early : monthOfYear (dayOfYear days) < 10
  · have late : ¬ monthOfYear (dayOfYear days) + 3 ≤ 2 := by omega
    simp only [early, late, if_true, if_false, Nat.add_sub_cancel]
    omega
  · have start : monthOfYear (dayOfYear days) - 9 ≤ 2 := by omega
    have whole : monthOfYear (dayOfYear days) - 9 + 9 = monthOfYear (dayOfYear days) := by omega
    simp only [early, start, if_true, if_false, whole, Int.add_sub_cancel]
    omega

/-- A number of days comes back from its date. -/
theorem toDays_ofDays : (ofDays days).toDays = days := by
  obtain ⟨century, cycle, year, stands⟩ := exists_stands_dayOfYear days
  have reckoned := stands.daysBefore_eq
  have yearOfEra_lt : yearOfEra (dayOfEra days) < 400 := by
    rw [stands.yearOfEra_eq]
    have := stands.century_le
    have := stands.cycle_le
    have := stands.year_le
    omega
  have whole : (days + epochShift) / 146097 * 146097 + dayOfEra days = days + epochShift := by
    unfold dayOfEra
    omega
  rw [toDays_ofDays_eq, marchYear, yearStart]
  unfold daysBefore at reckoned
  generalize (days + epochShift) / 146097 = era at whole ⊢
  have fours : (era * 400 + yearOfEra (dayOfEra days)) / 4 =
      era * 100 + (yearOfEra (dayOfEra days) / 4 : Nat) := by omega
  have centuries : (era * 400 + yearOfEra (dayOfEra days)) / 100 =
      era * 4 + (yearOfEra (dayOfEra days) / 100 : Nat) := by omega
  have eras : (era * 400 + yearOfEra (dayOfEra days)) / 400 = era := by omega
  rw [fours, centuries, eras]
  omega

/-- The months up to December end before the days from January on begin. -/
theorem year_ofDays_cases :
    (ofDays days).year = marchYear days ∧ dayOfYear days < 306 ∨
      (ofDays days).year = marchYear days + 1 ∧ 306 ≤ dayOfYear days := by
  rw [ofDays_eq]
  by_cases early : monthOfYear (dayOfYear days) < 10
  · exact .inl ⟨if_pos early, by unfold monthOfYear at early; omega⟩
  · exact .inr ⟨if_neg early, by unfold monthOfYear at early; omega⟩

variable {days} {year : Int}

theorem le_year_ofDays (h : toDays ⟨year, 1, 1⟩ ≤ days) : year ≤ (ofDays days).year := by
  have reckoned := (toDays_ofDays days).symm.trans (toDays_ofDays_eq days)
  have inside := dayOfYear_le days
  rw [toDays_newYear] at h
  by_contra before
  rcases year_ofDays_cases days with ⟨same, early⟩ | ⟨same, late⟩
  · rcases (show marchYear days ≤ year - 1 by omega).eq_or_lt with last | earlier
    · rw [last] at reckoned
      omega
    · have := yearStart_add_le earlier
      omega
  · have := yearStart_add_le (show marchYear days < year - 1 by omega)
    omega

theorem year_ofDays_lt (h : days < toDays ⟨year, 1, 1⟩) : (ofDays days).year < year := by
  have reckoned := (toDays_ofDays days).symm.trans (toDays_ofDays_eq days)
  rw [toDays_newYear] at h
  by_contra behind
  rcases year_ofDays_cases days with ⟨same, early⟩ | ⟨same, late⟩
  · have := yearStart_add_le (show year - 1 < marchYear days by omega)
    omega
  · rcases (show year - 1 ≤ marchYear days by omega).eq_or_lt with first | later
    · rw [← first] at reckoned
      omega
    · have := yearStart_add_le later
      omega

end

end SceneStream.Date
