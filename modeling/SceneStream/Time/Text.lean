import SceneStream.Time.Instant

/-!
# The text of an instant

Instants are written in the form of ISO 8601, in universal time, with as many digits of the fraction
as say it exactly: none, three, six or nine. A leap second is written as the second behind the one
that it follows, which is second 60 at the end of a minute.
-/

namespace SceneStream

/-- A number with zeros in front, at least `width` digits long. -/
def padded (width n : Nat) : String :=
  let digits := Nat.repr n
  "".pushn '0' (width - digits.length) ++ digits

namespace Instant

/-- Years of four digits stand alone; any other year has a sign. -/
def yearText (year : Int) : String :=
  if 0 ≤ year ∧ year ≤ 9999 then padded 4 year.natAbs
  else (if year < 0 then "-" else "+") ++ padded 4 year.natAbs

/-- The fraction of a second, in the fewest groups of three digits. -/
def fractionText (nanos : Nat) : String :=
  if nanos = 0 then ""
  else if nanos % 1000000 = 0 then "." ++ padded 3 (nanos / 1000000)
  else if nanos % 1000 = 0 then "." ++ padded 6 (nanos / 1000)
  else "." ++ padded 9 nanos

def dateText (d : Date) : String :=
  yearText d.year ++ "-" ++ padded 2 d.month ++ "-" ++ padded 2 d.day

/-- The instant as text, such as `2012-08-04T16:00:00Z`. -/
def text (t : Instant) : String :=
  let second := t.secondOfDay.toNat
  let leap := if t.isLeap then 1 else 0
  dateText (Date.ofDays (t.seconds / 86400)) ++ "T" ++ padded 2 (second / 3600) ++ ":" ++
    padded 2 (second / 60 % 60) ++ ":" ++ padded 2 (second % 60 + leap) ++
    fractionText (t.nanos - leap * billion) ++ "Z"

end Instant

end SceneStream
