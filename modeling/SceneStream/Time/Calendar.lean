/-!
# Days of the calendar

The Gregorian calendar, continued backwards and forwards without end. Days are counted from the first
of January 1970. Years are reckoned from March, so that the day a leap year adds is the last of its
year, and in eras of 400 years, after which the calendar repeats.
-/

namespace SceneStream

structure Date where
  year : Int
  month : Nat
  day : Nat
  deriving DecidableEq, Repr

namespace Date

def isLeapYear (year : Int) : Bool := year % 4 = 0 ∧ (year % 100 ≠ 0 ∨ year % 400 = 0)

def daysInMonth (year : Int) (month : Nat) : Nat :=
  match month with
  | 2 => if isLeapYear year then 29 else 28
  | 4 | 6 | 9 | 11 => 30
  | _ => 31

/-- Whether the calendar has this day. -/
def isValid (d : Date) : Bool :=
  1 ≤ d.month ∧ d.month ≤ 12 ∧ 1 ≤ d.day ∧ d.day ≤ daysInMonth d.year d.month

/-- Days from the first of March of year 0 to the first of January 1970. -/
def epochShift : Int := 719468

/-- The number of days from the first of January 1970. -/
def toDays (d : Date) : Int :=
  let year := if d.month ≤ 2 then d.year - 1 else d.year
  let month := if d.month ≤ 2 then d.month + 9 else d.month - 3
  let dayOfYear : Int := ((153 * month + 2) / 5 + d.day : Nat) - 1
  365 * year + year / 4 - year / 100 + year / 400 + dayOfYear - epochShift

/-- The date that lies a number of days after the first of January 1970. -/
def ofDays (days : Int) : Date :=
  let shifted := days + epochShift
  let era := shifted / 146097
  let dayOfEra := (shifted % 146097).toNat
  let yearOfEra := (dayOfEra - dayOfEra / 1460 + dayOfEra / 36524 - dayOfEra / 146096) / 365
  let dayOfYear := dayOfEra - (365 * yearOfEra + yearOfEra / 4 - yearOfEra / 100)
  let month := (5 * dayOfYear + 2) / 153
  let year := era * 400 + yearOfEra
  { year := if month < 10 then year else year + 1
    month := if month < 10 then month + 3 else month - 9
    day := dayOfYear - (153 * month + 2) / 5 + 1 }

end Date

end SceneStream
