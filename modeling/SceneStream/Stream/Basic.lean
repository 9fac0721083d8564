import SceneStream.Settings
import SceneStream.Sink

/-!
# The output stream

All writers of a document write to one stream. It holds the sink, the containers that are open in
the text, and the stack of writers that are open in the program. An operation that fails keeps what
it had noted up to the failure.
-/

namespace SceneStream

/-- A container that is open in the text. -/
inductive Frame where
  /-- An object with the number of names written, and whether the last one has no value yet. -/
  | object (members : Nat) (pending : Bool)
  | array (items : Nat)
  deriving DecidableEq, Repr

/-- What names one opening of a writer. -/
abbrev Token := Nat

structure Stream where
  sink : Sink := {}
  settings : Settings := {}
  /-- The open containers, innermost first. -/
  frames : List Frame := []
  rootWritten : Bool := false
  /-- The openings that are not closed, innermost first. -/
  writers : List Token := []
  /-- The opening that may have one writer opened inside it. -/
  grant : Option Token := none
  nextToken : Token := 0

/-- An operation on a stream. -/
abbrev StreamM := EStateM Error Stream

namespace Stream

def depth (s : Stream) : Nat := s.frames.length

/-- Whether the innermost object has a name without a value. -/
def isValuePending (s : Stream) : Bool :=
  match s.frames with
  | .object _ true :: _ => true
  | _ => false

/-- The innermost open writer. -/
def active? (s : Stream) : Option Token := s.writers.head?

/-- The stream as a record with the names of its fields. -/
def description (s : Stream) : String :=
  "CzmlOutputStream \x7b settings: " ++ s.settings.description ++ ", depth: " ++
    Nat.repr s.depth ++ ", open_writers: " ++ Nat.repr s.writers.length ++ ", .. \x7d"

/-- Sends a piece of text to the sink, with the failure to report if it does not fit. -/
def emit (failure : Error) (piece : String) : StreamM Unit := fun s =>
  match s.sink.put piece with
  | (sink, true) => .ok () { s with sink }
  | (sink, false) => .error failure { s with sink }

/-- Nothing fails for want of room where there is no limit. -/
theorem emit_of_unlimited {s : Stream} (h : s.sink.limit = none) (failure : Error)
    (piece : String) :
    emit failure piece s =
      .ok () { s with sink := { s.sink with text := s.sink.text ++ piece } } := by
  simp [emit, Sink.put_of_unlimited h]

/-- Text of the stream's own: brackets, separators and line breaks. -/
def punctuation (piece : String) : StreamM Unit := emit (.io .sinkFull) piece

/-- Text of a scalar or a name. -/
def scalarText (piece : String) : StreamM Unit := emit (.json .sinkFull) piece

def setFrames (frames : List Frame) : StreamM Unit := modify fun s => { s with frames }

@[simp] theorem setFrames_apply (frames : List Frame) (s : Stream) :
    setFrames frames s = .ok () { s with frames } := rfl

end Stream

end SceneStream
