import SceneStream.Error

/-!
# Colours

A colour has four channels between zero and one in single precision; the type holds no other. It is
written either as those numbers or as integers from 0 to 255.
-/

namespace SceneStream

/-- A channel lies between zero and one. -/
def Binary.inUnit {f : Binary.Format} (x : Binary f) : Bool :=
  match x.toRat? with
  | some r => 0 ≤ r ∧ r ≤ 1
  | none => false

structure Color where
  red : Single
  green : Single
  blue : Single
  alpha : Single
  inUnit : [red, green, blue, alpha].all Binary.inUnit
  deriving DecidableEq

/-- How a colour is written. -/
inductive ColorEncoding where
  /-- As integers from 0 to 255. -/
  | rgba
  /-- As fractions of one. -/
  | rgbaf
  deriving DecidableEq, Repr

namespace Color

/-- The channel that an integer from 0 to 255 stands for. -/
def channelOfByte (v : Fin 256) : Single := Binary.ofRat (mkRat v 255)

theorem channelOfByte_inUnit (v : Fin 256) : (channelOfByte v).inUnit := by
  have h : ∀ v : Fin 256, (channelOfByte v).inUnit := by decide +kernel
  exact h v

def ofBytes (red green blue alpha : Fin 256) : Color where
  red := channelOfByte red
  green := channelOfByte green
  blue := channelOfByte blue
  alpha := channelOfByte alpha
  inUnit := by simp [channelOfByte_inUnit]

def black : Color := ofBytes 0 0 0 255
def white : Color := ofBytes 255 255 255 255
def transparent : Color := ofBytes 0 0 0 0

/-- An integer as a channel, refused outside of 0 to 255. -/
def byte (channel : String) (v : Int) : Except Error (Fin 256) :=
  if h : 0 ≤ v ∧ v ≤ 255 then .ok ⟨v.toNat, by omega⟩
  else .error (.invalidArgument (.channelOutside channel v))

/-- The colour with these integer channels. -/
def ofRgba (red green blue alpha : Int) : Except Error Color := do
  return ofBytes (← byte "red" red) (← byte "green" green) (← byte "blue" blue)
    (← byte "alpha" alpha)

/-- The colour with these fractions as channels. -/
def ofRgbaf (red green blue alpha : Single) : Except Error Color :=
  if h : [red, green, blue, alpha].all Binary.inUnit then .ok ⟨red, green, blue, alpha, h⟩
  else .error (.invalidArgument (.channelsOutside [red, green, blue, alpha]))

def channels (c : Color) : List Single := [c.red, c.green, c.blue, c.alpha]

/-- A channel as an integer from 0 to 255: the product with 255 in single precision, rounded to the
nearest integer, a tie to the even one. -/
def toByte (x : Single) : Nat :=
  match (x.scale 255).toRat? with
  | some r => min 255 (nearestEven r).toNat
  | none => 0

def bytes (c : Color) : List Nat := c.channels.map toByte

end Color

end SceneStream
