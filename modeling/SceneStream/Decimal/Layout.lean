import SceneStream.Decimal.Shortest

/-!
# Layouts of decimal text

A layout fixes everything about the text of a number that its digits leave open: which magnitudes
are written without an exponent, whether a whole number keeps a fraction, how an exponent is
spelled, and what stands for the numbers that are not finite.
-/

namespace SceneStream

/-- The decisions behind the text of a binary number. -/
structure Decimal.Layout where
  /-- The exponents of the first digit, from the first bound to below the second, that are written
  without an exponent part; all of them where there are no bounds. -/
  positional : Option (Int × Int)
  /-- Whether a whole number is written with a fraction of one zero. -/
  wholeFraction : Bool
  /-- Whether an exponent part spells its plus sign. -/
  exponentPlus : Bool
  tie : Decimal.Tie
  nan : String
  infinity : String
  minusInfinity : String

namespace Decimal

/-- The digits of a natural number. -/
def digitsText (n : Nat) : String := Nat.repr n

/-- The exponent of the first digit. -/
def leading (d : Decimal) : Int := d.exponent + ((digitsText d.digits).length - 1 : Nat)

namespace Layout

/-- The text of a whole number. -/
def whole (l : Layout) (digits : String) : String :=
  if l.wholeFraction then digits ++ ".0" else digits

/-- The text of a decimal without an exponent part. -/
def plain (l : Layout) (d : Decimal) : String :=
  let digits := digitsText d.digits
  match d.exponent with
  | .ofNat e => l.whole (digits ++ "".pushn '0' e)
  | .negSucc e =>
    let places := e + 1
    let digits := if digits.length ≤ places then
      "".pushn '0' (places + 1 - digits.length) ++ digits else digits
    let chars := digits.toList
    String.ofList (chars.take (chars.length - places)) ++ "." ++
      String.ofList (chars.drop (chars.length - places))

/-- The text of a decimal with one digit before the point and an exponent part. -/
def scientific (l : Layout) (d : Decimal) : String :=
  let mantissa := match (digitsText d.digits).toList with
    | [] => ""
    | [c] => c.toString
    | c :: rest => c.toString ++ "." ++ String.ofList rest
  match d.leading with
  | .ofNat e => mantissa ++ (if l.exponentPlus then "e+" else "e") ++ digitsText e
  | .negSucc e => mantissa ++ "e-" ++ digitsText (e + 1)

/-- The text of a positive decimal. -/
def decimal (l : Layout) (d : Decimal) : String :=
  match l.positional with
  | none => l.plain d
  | some (first, bound) =>
    if first ≤ d.leading ∧ d.leading < bound then l.plain d else l.scientific d

/-- The text of a magnitude. -/
def magnitude (l : Layout) (f : Binary.Format) (m : Nat) (q : Int) : String :=
  if m = 0 then l.whole "0" else l.decimal (Binary.shortest f l.tie m q)

/-- The text of a binary number. -/
def text (l : Layout) {f : Binary.Format} : Binary f → String
  | .nan => l.nan
  | .infinite negative => if negative then l.minusInfinity else l.infinity
  | .finite negative m q _ => (if negative then "-" else "") ++ l.magnitude f m q

end Layout

end Decimal

end SceneStream
