import SceneStream.Binary.Basic

/-!
# Rounding to the nearest binary number

`nearest` is the one place where precision is lost: it takes an exact fraction to the binary number
closest to it, a tie to the even significand, and anything beyond the greatest finite number to
infinity. The arithmetic below computes exactly and rounds once.
-/

namespace SceneStream

/-- The integer nearest to `x`, a tie going to the even one. -/
def nearestEven (x : Rat) : Int :=
  let below := x.floor
  let twice := 2 * (x - below)
  if 1 < twice ∨ twice = 1 ∧ below % 2 = 1 then below + 1 else below

/-- The exponent of the greatest power of two not above a positive `x`. -/
def floorLog2 (x : Rat) : Int :=
  let guess : Int := (x.num.natAbs.log2 : Int) - (x.den.log2 : Int)
  if x < Binary.twoPow guess then guess - 1 else guess

namespace Binary

variable {f : Format}

/-- The exponent of the unit in which a positive `x` is counted: as fine as the precision allows,
and no finer than the format's least unit. -/
def Format.unit (f : Format) (x : Rat) : Int :=
  max (floorLog2 x - (f.precision - 1)) f.least

/-- The one form of `m * 2 ^ q`, where `m` is at most the bound of the significands; infinity if that
is beyond the greatest finite number. -/
def ofParts (negative : Bool) (m : Nat) (q : Int) : Binary f :=
  let (m, q) := if m = f.capacity then (m / 2, q + 1) else (m, q)
  if fits : f.Fits m q then .finite negative m q fits else .infinite negative

/-- The binary number nearest to a magnitude, with the given sign. -/
def nearest (negative : Bool) (magnitude : Rat) : Binary f :=
  if magnitude = 0 then zero negative
  else
    let q := f.unit magnitude
    ofParts negative (nearestEven (magnitude / twoPow q)).toNat q

/-- The binary number nearest to `x`; an exact zero is positive. -/
def ofRat (x : Rat) : Binary f := nearest (x < 0) x.abs

def ofInt (n : Int) : Binary f := ofRat n

/-- The decimal number `digits * 10 ^ exponent`, with its sign, read as the nearest binary one. -/
def ofDecimal (negative : Bool) (digits : Nat) (exponent : Int) : Binary f :=
  nearest negative (digits * powerOf 10 exponent)

/-- The same number in another format. -/
def convert {g : Format} : Binary f → Binary g
  | .nan => .nan
  | .infinite negative => .infinite negative
  | .finite negative m q _ => nearest negative (m * twoPow q)

/-- The rounded sum. An exact zero is negative only where both terms are. -/
def add : Binary f → Binary f → Binary f
  | .nan, _ => .nan
  | _, .nan => .nan
  | .infinite a, .infinite b => if a = b then .infinite a else .nan
  | .infinite a, _ => .infinite a
  | _, .infinite b => .infinite b
  | .finite a m q _, .finite b n r _ =>
    let term (negative : Bool) (x : Rat) : Rat := if negative then -x else x
    let sum := term a (m * twoPow q) + term b (n * twoPow r)
    if sum = 0 then zero (a && b) else ofRat sum

instance : Add (Binary f) := ⟨add⟩

/-- The rounded product with a natural number. -/
def scale (n : Nat) : Binary f → Binary f
  | .nan => .nan
  | .infinite negative => if n = 0 then .nan else .infinite negative
  | .finite negative m q _ => nearest negative (m * twoPow q * n)

end Binary

end SceneStream
