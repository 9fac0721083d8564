import SceneStream.Error

/-!
# Vocabularies

A vocabulary is a closed list of words with a fixed spelling each. Reading any other text is refused
and never reaches the output.
-/

namespace SceneStream

/-- A type whose values are the words of a vocabulary. -/
class Vocabulary (α : Type) where
  /-- The name of the vocabulary in messages. -/
  title : String
  /-- All words in their order. -/
  all : List α
  token : α → String
  /-- The word that a client assumes where none is given. -/
  standard : α

namespace Vocabulary

variable {α : Type} [Vocabulary α]

/-- The word with this spelling. -/
def read (text : String) : Except Error α :=
  match (all : List α).find? (token · = text) with
  | some word => .ok word
  | none => .error (.invalidArgument (.unknownToken (title α) text))

end Vocabulary

/-- What a height is measured from. -/
inductive HeightReference where
  | absolute
  | clampToGround
  | relativeToGround
  deriving DecidableEq, Repr

instance : Vocabulary HeightReference where
  title := "HeightReference"
  all := [.absolute, .clampToGround, .relativeToGround]
  token
    | .absolute => "NONE"
    | .clampToGround => "CLAMP_TO_GROUND"
    | .relativeToGround => "RELATIVE_TO_GROUND"
  standard := .absolute

/-- Whether an object casts or receives shadows. -/
inductive ShadowMode where
  | disabled
  | enabled
  | castOnly
  | receiveOnly
  deriving DecidableEq, Repr

instance : Vocabulary ShadowMode where
  title := "ShadowMode"
  all := [.disabled, .enabled, .castOnly, .receiveOnly]
  token
    | .disabled => "DISABLED"
    | .enabled => "ENABLED"
    | .castOnly => "CAST_ONLY"
    | .receiveOnly => "RECEIVE_ONLY"
  standard := .disabled

/-- What a shape on the ground classifies. -/
inductive ClassificationType where
  | terrain
  | tiles
  | both
  deriving DecidableEq, Repr

instance : Vocabulary ClassificationType where
  title := "ClassificationType"
  all := [.terrain, .tiles, .both]
  token
    | .terrain => "TERRAIN"
    | .tiles => "CESIUM_3D_TILE"
    | .both => "BOTH"
  standard := .both

/-- How a client interpolates between samples. -/
inductive InterpolationAlgorithm where
  | linear
  | lagrange
  | hermite
  deriving DecidableEq, Repr

instance : Vocabulary InterpolationAlgorithm where
  title := "InterpolationAlgorithm"
  all := [.linear, .lagrange, .hermite]
  token
    | .linear => "LINEAR"
    | .lagrange => "LAGRANGE"
    | .hermite => "HERMITE"
  standard := .linear

end SceneStream
