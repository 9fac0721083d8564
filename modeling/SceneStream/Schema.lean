import SceneStream.Value.Kind

/-!
# The properties of composites

A composite is a property made of properties. Its table names them in order, with what each holds
and the value that a client assumes where it is missing; such a value is never written.
-/

namespace SceneStream

inductive Composite where
  | rectangle
  | box
  | material
  | solidColor
  | image
  | grid
  deriving DecidableEq, Repr

/-- What a property holds: values of one kind, or properties. -/
inductive Content where
  | value (kind : Kind)
  | composite (composite : Composite)
  deriving DecidableEq, Repr

/-- What a writer writes. -/
inductive Shape where
  | packet
  | property (content : Content)
  deriving DecidableEq, Repr

/-- One row of a table. -/
structure Row where
  name : String
  content : Content
  assumed : Option String := none
  deriving DecidableEq, Repr

def Content.category : Content → Category
  | value k => k.category
  | composite _ => .composite

namespace Composite

/-- What descriptions call a writer of this composite. -/
def title : Composite → String
  | rectangle => "RectangleWriter"
  | box => "BoxWriter"
  | material => "MaterialWriter"
  | solidColor => "SolidColorMaterialWriter"
  | image => "ImageMaterialWriter"
  | grid => "GridMaterialWriter"

/-- The properties of a composite. -/
def rows : Composite → List Row
  | rectangle => [
      ⟨"show", .value .boolean, some "true"⟩,
      ⟨"coordinates", .value .extent, none⟩,
      ⟨"height", .value .number, some "0.0"⟩,
      ⟨"heightReference", .value .heightReference, some "NONE"⟩,
      ⟨"extrudedHeight", .value .number, none⟩,
      ⟨"extrudedHeightReference", .value .heightReference, some "NONE"⟩,
      ⟨"rotation", .value .number, some "0.0"⟩,
      ⟨"stRotation", .value .number, some "0.0"⟩,
      ⟨"granularity", .value .number, some "0.017453292519943295"⟩,
      ⟨"fill", .value .boolean, some "true"⟩,
      ⟨"outline", .value .boolean, some "false"⟩,
      ⟨"outlineColor", .value .color, some "black"⟩,
      ⟨"outlineWidth", .value .number, some "1.0"⟩,
      ⟨"shadows", .value .shadowMode, some "DISABLED"⟩,
      ⟨"distanceDisplayCondition", .value .bounds, none⟩,
      ⟨"classificationType", .value .classificationType, some "BOTH"⟩,
      ⟨"zIndex", .value .integer, some "0"⟩,
      ⟨"material", .composite .material, none⟩]
  | box => [
      ⟨"show", .value .boolean, some "true"⟩,
      ⟨"dimensions", .value .cartesian, none⟩,
      ⟨"heightReference", .value .heightReference, some "NONE"⟩,
      ⟨"fill", .value .boolean, some "true"⟩,
      ⟨"outline", .value .boolean, some "false"⟩,
      ⟨"outlineColor", .value .color, some "black"⟩,
      ⟨"outlineWidth", .value .number, some "1.0"⟩,
      ⟨"shadows", .value .shadowMode, some "DISABLED"⟩,
      ⟨"distanceDisplayCondition", .value .bounds, none⟩,
      ⟨"material", .composite .material, none⟩]
  | material => [
      ⟨"solidColor", .composite .solidColor, none⟩,
      ⟨"image", .composite .image, none⟩,
      ⟨"grid", .composite .grid, none⟩]
  | solidColor => [⟨"color", .value .color, some "white"⟩]
  | image => [
      ⟨"image", .value .uri, none⟩,
      ⟨"repeat", .value .cartesian2, some "[1, 1]"⟩,
      ⟨"color", .value .color, some "white"⟩,
      ⟨"transparent", .value .boolean, some "false"⟩]
  | grid => [
      ⟨"color", .value .color, some "white"⟩,
      ⟨"cellAlpha", .value .number, some "0.1"⟩,
      ⟨"lineCount", .value .cartesian2, some "[8, 8]"⟩,
      ⟨"lineThickness", .value .cartesian2, some "[1, 1]"⟩,
      ⟨"lineOffset", .value .cartesian2, some "[0, 0]"⟩]

/-- The row of this name. -/
def row? (c : Composite) (name : String) : Option Row := c.rows.find? (·.name = name)

end Composite

/-- The properties of a packet. -/
def packetRows : List Row := [
  ⟨"description", .value .string, none⟩,
  ⟨"rectangle", .composite .rectangle, none⟩,
  ⟨"box", .composite .box, none⟩]

namespace Shape

def rows : Shape → List Row
  | packet => packetRows
  | property (.composite c) => c.rows
  | property (.value _) => []

/-- What the member of this name holds. -/
def child? (s : Shape) (name : String) : Option Content :=
  (s.rows.find? (·.name = name)).map Row.content

/-- What is found at the end of a path of member names. -/
def follow? (s : Shape) : List String → Option Shape
  | [] => some s
  | name :: path => do (Shape.property (← s.child? name)).follow? path

end Shape

end SceneStream
