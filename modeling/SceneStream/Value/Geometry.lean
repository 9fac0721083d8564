import SceneStream.Error

/-!
# Numbers, vectors, extents and bounds

Numbers may be anything when they are made; each kind says what it refuses when it is written.
-/

namespace SceneStream

structure Vector2 where
  x : Double
  y : Double
  deriving DecidableEq, Repr

structure Vector3 where
  x : Double
  y : Double
  z : Double
  deriving DecidableEq, Repr

/-- A region of the globe, in the unit that its encoding names. -/
structure Extent where
  west : Double
  south : Double
  east : Double
  north : Double
  deriving DecidableEq, Repr

/-- The unit an extent is in. -/
inductive ExtentEncoding where
  | radians
  | degrees
  deriving DecidableEq, Repr

/-- A lower and an upper bound. -/
structure Bounds where
  lower : Double
  upper : Double
  deriving DecidableEq, Repr

namespace Vector2

def components (v : Vector2) : List Double := [v.x, v.y]

def defect? (v : Vector2) : Option Defect :=
  if allFinite v.components then none else some (.vectorNotFinite "cartesian2" v.components)

end Vector2

namespace Vector3

def components (v : Vector3) : List Double := [v.x, v.y, v.z]

def defect? (v : Vector3) : Option Defect :=
  if allFinite v.components then none else some (.vectorNotFinite "cartesian" v.components)

end Vector3

namespace Extent

def components (e : Extent) : List Double := [e.west, e.south, e.east, e.north]

def defect? (e : Extent) : Option Defect :=
  if allFinite e.components then none else some (.extentNotFinite e.components)

end Extent

namespace Bounds

def components (b : Bounds) : List Double := [b.lower, b.upper]

/-- Bounds are finite, and the lower one does not exceed the upper one. -/
def defect? (b : Bounds) : Option Defect :=
  match b.lower.toRat?, b.upper.toRat? with
  | some l, some u => if u < l then some (.boundsReversed b.lower b.upper) else none
  | _, _ => some (.boundsNotFinite b.lower b.upper)

/-- Bounds that were checked. -/
def between (lower upper : Double) : Except Error Bounds :=
  match defect? ⟨lower, upper⟩ with
  | none => .ok ⟨lower, upper⟩
  | some d => .error (.invalidArgument d)

end Bounds

/-- A single number is finite. -/
def numberDefect? (x : Double) : Option Defect := if x.isFinite then none else some (.notFinite x)

/-- The integer that a double is, refused if it is none or does not fit into 32 bits. -/
def integerOf (x : Double) : Except Error Int32 :=
  match x.toRat? with
  | some r =>
    if r.den ≠ 1 then .error (.invalidArgument (.notIntegral x))
    else if r.num < Int32.minValue.toInt ∨ Int32.maxValue.toInt < r.num then
      .error (.invalidArgument (.beyondIntegers x))
    else .ok (.ofInt r.num)
  | none => .error (.invalidArgument (.notIntegral x))

end SceneStream
