import SceneStream.Decimal.Layout
import SceneStream.Json.Basic

/-!
# Scalars

The values that a stream writes in one piece, and the text each is written as.
-/

namespace SceneStream

inductive Scalar where
  | bool (value : Bool)
  | integer (value : Int)
  | double (value : Double)
  | single (value : Single)
  | text (value : String)
  deriving DecidableEq, Repr

namespace Scalar

/-- Doubles are positional from `1e-5` to below `1e16` and always have a fraction there. JSON has no
text for a number that is not finite. -/
def doubles : Decimal.Layout where
  positional := some (-5, 16)
  wholeFraction := true
  exponentPlus := true
  tie := .toEven
  nan := "null"
  infinity := "null"
  minusInfinity := "null"

/-- Singles are positional from `1e-6` to below `1e13`. -/
def singles : Decimal.Layout := { doubles with positional := some (-6, 13) }

/-- The text of a scalar. -/
def json : Scalar → String
  | bool value => if value then "true" else "false"
  | integer value => toString value
  | double value => doubles.text value
  | single value => singles.text value
  | text value => Json.quote value

end Scalar

end SceneStream
