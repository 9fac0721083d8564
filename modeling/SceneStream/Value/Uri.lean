import SceneStream.Error

/-!
# URIs

A URI is not empty when it is made. A resolver may put any text in its place before it is written.
-/

namespace SceneStream

structure Uri where
  text : String
  deriving DecidableEq, Repr

namespace Uri

/-- The URI with this text. -/
def of (text : String) : Except Error Uri :=
  if text = "" then .error (.invalidArgument .emptyUri) else .ok ⟨text⟩

/-- The URI that a resolver puts in place of this one. -/
def resolve (resolver : String → String) (u : Uri) : Uri := ⟨resolver u.text⟩

end Uri

end SceneStream
