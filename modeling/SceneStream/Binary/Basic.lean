/-!
# Binary numbers of a fixed precision

A number is held by its meaning, not by its bits: a sign, a significand and the exponent of a power
of two, next to the two infinities and the one undefined number. Each value has one form only, up to
the sign of zero. The width is a parameter, so that the two precisions in use share every definition
and every lemma.
-/

namespace SceneStream

/-- A power with a whole exponent, as an exact fraction. -/
def powerOf (base : Nat) : Int → Rat
  | .ofNat n => (Nat.pow base n : Nat)
  | .negSucc n => mkRat 1 (Nat.pow base (n + 1))

/-- How much room a binary number has: its significand has at most `precision` binary digits, and
the power of two it counts lies between `least` and `greatest`. -/
structure Binary.Format where
  precision : Nat
  least : Int
  greatest : Int
  least_le_greatest : least ≤ greatest := by decide
  deriving DecidableEq, Repr

namespace Binary.Format

/-- Double precision: 53 bits. -/
def double : Format where
  precision := 53
  least := -1074
  greatest := 971

/-- Single precision: 24 bits. -/
def single : Format where
  precision := 24
  least := -149
  greatest := 104

/-- The bound of the significands: two to the precision. -/
def capacity (f : Format) : Nat := Nat.pow 2 f.precision

/-- The one form of a finite value: its significand fills the upper half of the room, unless the
exponent is the least already. -/
def Fits (f : Format) (m : Nat) (q : Int) : Prop :=
  m < f.capacity ∧ f.least ≤ q ∧ q ≤ f.greatest ∧ (f.capacity ≤ 2 * m ∨ q = f.least)

instance (f : Format) (m : Nat) (q : Int) : Decidable (f.Fits m q) :=
  inferInstanceAs (Decidable (_ ∧ _ ∧ _ ∧ (_ ∨ _)))

theorem fits_zero (f : Format) : f.Fits 0 f.least :=
  ⟨Nat.two_pow_pos _, Int.le_refl _, f.least_le_greatest, .inr rfl⟩

end Binary.Format

/-- A binary number. `finite negative m q` is `m * 2 ^ q` with its sign, which a zero has too. -/
inductive Binary (f : Binary.Format) where
  | nan
  | infinite (negative : Bool)
  | finite (negative : Bool) (significand : Nat) (exponent : Int)
      (fits : f.Fits significand exponent)
  deriving DecidableEq, Repr

abbrev Double := Binary .double
abbrev Single := Binary .single

namespace Binary

variable {f : Format}

/-- A power of two. -/
def twoPow : Int → Rat := powerOf 2

/-- The exact value of a number that has one. -/
def toRat? : Binary f → Option Rat
  | .finite negative m q _ => some (if negative then -(m * twoPow q) else m * twoPow q)
  | _ => none

def isFinite : Binary f → Bool
  | .finite .. => true
  | _ => false

/-- Zero with the given sign. -/
def zero (negative : Bool) : Binary f := .finite negative 0 f.least f.fits_zero

@[simp] theorem toRat?_nan : (nan : Binary f).toRat? = none := rfl

@[simp] theorem toRat?_infinite (negative : Bool) :
    (infinite negative : Binary f).toRat? = none := rfl

theorem isFinite_iff_toRat? (x : Binary f) : x.isFinite = x.toRat?.isSome := by
  cases x <;> rfl

end Binary

/-- Every number of a list is finite. -/
def allFinite (xs : List Double) : Bool := xs.all Binary.isFinite

end SceneStream
