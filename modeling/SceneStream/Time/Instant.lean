import SceneStream.Binary.Nearest
import SceneStream.Time.Calendar

/-!
# Instants

A point in time, with leap seconds: the leap second that follows a second shares its count of whole
seconds and goes on counting nanoseconds from one billion. Instants are ordered by seconds, then
nanoseconds, so a leap second lies between its neighbours. In civil time it is the last second of a
minute that a leap second may follow; an instant may be in one behind any second. The years that an
instant may have are bounded; the type holds no other.
-/

namespace SceneStream

/-- Nanoseconds in a second. -/
def Instant.billion : Nat := 1000000000

/-- The first year that an instant may have. -/
def Instant.firstYear : Int := -262143

/-- The last year that an instant may have. -/
def Instant.lastYear : Int := 262142

/-- The first second of the first year. -/
def Instant.firstSecond : Int := -8334601228800

/-- The last second of the last year. -/
def Instant.lastSecond : Int := 8210266876799

/-- Whole seconds since the start of 1970, and nanoseconds counted forward from there. A second and
the leap second that may follow it have two billion of them. -/
structure Instant where
  seconds : Int
  nanos : Nat
  in_range : Instant.firstSecond ≤ seconds ∧ seconds ≤ Instant.lastSecond
  nanos_lt : nanos < 2 * Instant.billion
  deriving DecidableEq, Repr

namespace Instant

theorem firstSecond_eq : firstSecond = Date.toDays ⟨firstYear, 1, 1⟩ * 86400 := by decide

theorem lastSecond_eq : lastSecond = Date.toDays ⟨lastYear + 1, 1, 1⟩ * 86400 - 1 := by decide

/-- The instant with these parts, if there is one. -/
def of? (seconds : Int) (nanos : Nat) : Option Instant :=
  if hs : firstSecond ≤ seconds ∧ seconds ≤ lastSecond then
    if hn : nanos < 2 * billion then
      some ⟨seconds, nanos, hs, hn⟩
    else none
  else none

instance : LT Instant :=
  ⟨fun a b => a.seconds < b.seconds ∨ a.seconds = b.seconds ∧ a.nanos < b.nanos⟩

instance : LE Instant :=
  ⟨fun a b => a.seconds < b.seconds ∨ a.seconds = b.seconds ∧ a.nanos ≤ b.nanos⟩

theorem lt_iff {a b : Instant} :
    a < b ↔ a.seconds < b.seconds ∨ a.seconds = b.seconds ∧ a.nanos < b.nanos := Iff.rfl

theorem le_iff {a b : Instant} :
    a ≤ b ↔ a.seconds < b.seconds ∨ a.seconds = b.seconds ∧ a.nanos ≤ b.nanos := Iff.rfl

instance (a b : Instant) : Decidable (a < b) := decidable_of_iff _ lt_iff.symm

instance (a b : Instant) : Decidable (a ≤ b) := decidable_of_iff _ le_iff.symm

theorem not_lt {a b : Instant} : ¬ a < b ↔ b ≤ a := by
  simp only [lt_iff, le_iff]
  omega

/-- Inside a leap second. -/
def isLeap (t : Instant) : Bool := billion ≤ t.nanos

/-- Seconds since midnight. -/
def secondOfDay (t : Instant) : Int := t.seconds % 86400

/-- Nanoseconds as if no leap second had been counted. -/
def totalNanos (t : Instant) : Int := t.seconds * billion + t.nanos

/-- The nanoseconds from `epoch` to `t`. A leap second that lies between the two times of day is a
second of its own: it is added after a leap epoch and taken off before a leap `t`. -/
def nanosSince (epoch t : Instant) : Int :=
  let apart := t.totalNanos - epoch.totalNanos
  if epoch.secondOfDay < t.secondOfDay ∧ epoch.isLeap then apart + billion
  else if t.secondOfDay < epoch.secondOfDay ∧ t.isLeap then apart - billion
  else apart

/-- The seconds from `epoch` to `t`: the whole seconds and the fraction are each rounded to double
precision, then their sum. -/
def secondsSince (epoch t : Instant) : Double :=
  let apart := nanosSince epoch t
  Binary.ofInt (apart.tdiv billion) + Binary.ofRat (mkRat (apart.tmod billion) billion)

end Instant

end SceneStream
