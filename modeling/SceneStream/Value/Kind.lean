import SceneStream.Scalar
import SceneStream.Value.Color
import SceneStream.Value.Geometry
import SceneStream.Value.Uri
import SceneStream.Value.Vocabulary

/-!
# Kinds of values

Every property holds values of one kind. A kind fixes the type of its values and of its encodings,
the member its values are written under, which values it refuses, and the scalars that a value is
written as.
-/

namespace SceneStream

inductive Kind where
  | boolean
  | number
  | integer
  | string
  | uri
  | color
  | extent
  | bounds
  | cartesian2
  | cartesian
  | heightReference
  | shadowMode
  | classificationType
  deriving DecidableEq, Repr

/-- What a kind is called in tables and descriptions; several kinds share a category. -/
inductive Category where
  | boolean
  | number
  | integer
  | string
  | uri
  | color
  | cartesian
  | token
  | record
  | boundPair
  /-- A property made of properties. -/
  | composite
  deriving DecidableEq, Repr

def Category.title : Category → String
  | boolean => "Boolean"
  | number => "Number"
  | integer => "Integer"
  | string => "String"
  | uri => "Uri"
  | color => "Color"
  | cartesian => "Cartesian"
  | token => "Enum"
  | record => "Struct"
  | boundPair => "IntervalBoundPair"
  | composite => "Composite"

namespace Kind

/-- The values of a kind. -/
@[reducible] def Value : Kind → Type
  | boolean => Bool
  | number => Double
  | integer => Int32
  | string => String
  | uri => Uri
  | color => Color
  | extent => Extent
  | bounds => Bounds
  | cartesian2 => Vector2
  | cartesian => Vector3
  | heightReference => HeightReference
  | shadowMode => ShadowMode
  | classificationType => ClassificationType

/-- The encodings of a kind; most have one only. -/
@[reducible] def Encoding : Kind → Type
  | color => ColorEncoding
  | extent => ExtentEncoding
  | _ => Unit

instance : (k : Kind) → DecidableEq k.Encoding
  | color => inferInstanceAs (DecidableEq ColorEncoding)
  | extent => inferInstanceAs (DecidableEq ExtentEncoding)
  | boolean | number | integer | string | uri | bounds | cartesian2 | cartesian
  | heightReference | shadowMode | classificationType => inferInstanceAs (DecidableEq Unit)

/-- The encoding that is used where none is named. -/
def standard : (k : Kind) → k.Encoding
  | color => ColorEncoding.rgba
  | extent => ExtentEncoding.radians
  | boolean | number | integer | string | uri | bounds | cartesian2 | cartesian
  | heightReference | shadowMode | classificationType => ()

def category : Kind → Category
  | boolean => .boolean
  | number => .number
  | integer => .integer
  | string => .string
  | uri => .uri
  | color => .color
  | extent => .record
  | bounds => .boundPair
  | cartesian2 | cartesian => .cartesian
  | heightReference | shadowMode | classificationType => .token

/-- The number of scalars that a value is written as. -/
def arity : Kind → Nat
  | color | extent => 4
  | bounds | cartesian2 => 2
  | cartesian => 3
  | _ => 1

/-- Whether a literal may stand for the whole property, with no object around it. -/
def isBare : Kind → Bool
  | color | extent | bounds | cartesian2 | cartesian => false
  | _ => true

/-- Whether a client can interpolate between samples. -/
def interpolates : Kind → Bool
  | number | integer | color | extent | bounds | cartesian2 | cartesian => true
  | _ => false

/-- The member that values are written under. -/
def key : (k : Kind) → k.Encoding → String
  | boolean, _ => "boolean"
  | number, _ => "number"
  | integer, _ => "number"
  | string, _ => "string"
  | uri, _ => "uri"
  | color, .rgba => "rgba"
  | color, .rgbaf => "rgbaf"
  | extent, .radians => "wsen"
  | extent, .degrees => "wsenDegrees"
  | bounds, _ => "distanceDisplayCondition"
  | cartesian2, _ => "cartesian2"
  | cartesian, _ => "cartesian"
  | heightReference, _ => "heightReference"
  | shadowMode, _ => "shadowMode"
  | classificationType, _ => "classificationType"

/-- Why a value cannot be written, if it cannot. -/
def defect? : (k : Kind) → k.Value → Option Defect
  | number, x => numberDefect? x
  | extent, e => Extent.defect? e
  | bounds, b => Bounds.defect? b
  | cartesian2, v => Vector2.defect? v
  | cartesian, v => Vector3.defect? v
  | boolean, _ | integer, _ | string, _ | uri, _ | color, _ | heightReference, _ | shadowMode, _
  | classificationType, _ => none

/-- Refuses a value that cannot be written. -/
def check (k : Kind) (v : k.Value) : Except Error Unit :=
  match k.defect? v with
  | some d => .error (.invalidArgument d)
  | none => .ok ()

/-- The scalars that a value is written as. -/
def components : (k : Kind) → k.Encoding → k.Value → List Scalar
  | boolean, _, b => [.bool b]
  | number, _, x => [.double x]
  | integer, _, n => [.integer n.toInt]
  | string, _, s => [.text s]
  | uri, _, u => [.text (Uri.text u)]
  | color, .rgba, c => (Color.bytes c).map fun (b : Nat) => .integer b
  | color, .rgbaf, c => (Color.channels c).map .single
  | extent, _, e => (Extent.components e).map .double
  | bounds, _, b => (Bounds.components b).map .double
  | cartesian2, _, v => (Vector2.components v).map .double
  | cartesian, _, v => (Vector3.components v).map .double
  | heightReference, _, w => [.text (Vocabulary.token (w : HeightReference))]
  | shadowMode, _, w => [.text (Vocabulary.token (w : ShadowMode))]
  | classificationType, _, w => [.text (Vocabulary.token (w : ClassificationType))]

theorem length_components (k : Kind) (e : k.Encoding) (v : k.Value) :
    (k.components e v).length = k.arity := by
  cases k <;> cases e <;> simp [components, arity, Color.bytes, Color.channels,
    Extent.components, Bounds.components, Vector2.components, Vector3.components]

end Kind

end SceneStream
